import PeerRelay.Proofs.Lobby.Announcements
import PeerRelay.Proofs.Lobby.Capacity

/-!
Who is told whose address. A room keeps what its host said and where it was seen when it was opened,
so what a later caller is told goes back to that request. An address is given away only to the two
sides of an admitted request for a room, and only if both want to connect directly and have been
seen.
-/
namespace PeerRelay

/-- What a room was opened with and keeps as long as it is there. -/
structure RoomTerms where
  host : ConnectionId
  endpoint : Option Net.SocketAddress
  localIp : String
  direct : Bool
  punch : Bool
  port : Int32

def Room.terms (r : Room) : RoomTerms :=
  ⟨r.host, r.hostEndpoint, r.hostLocalIp, r.supportsDirect, r.useNatPunch, r.port⟩

def ServerFrame.discloses : ServerFrame → Bool
  | .directConnect .. => true
  | _ => false

namespace Lobby
open Map

variable {l : Lobby} {c : ConnectionId} {id : String} {room : Room} {terms : RoomTerms}
  {requests : List LobbyRequest} {s : RoomSettings} {endpoint : Option Net.SocketAddress}
  {req : JoinRequest} {o : Outbound}

/-! Where a room comes from -/

theorem leave_terms (h : l.Consistent) {required : Option ConnectionId}
    (stored : (l.leave c required).1.rooms[id]? = some room) :
    ∃ earlier, l.rooms[id]? = some earlier ∧ room.terms = earlier.terms := by
  have d := leave_departure h c required
  generalize l.leave c required = result at d stored
  cases d with
  | outside | denied => exact ⟨room, stored, rfl⟩
  | closed => exact ⟨room, (found_erase_iff.mp stored).2, rfl⟩
  | @dropped other before there client permission =>
    rcases found_insert_iff.mp stored with ⟨rfl, rfl⟩ | ⟨_, kept⟩
    · exact ⟨before, there, rfl⟩
    · exact ⟨room, kept, rfl⟩

theorem enter_terms (stored : (l.enter c req).1.rooms[id]? = some room) :
    ∃ earlier, l.rooms[id]? = some earlier ∧ room.terms = earlier.terms := by
  have a := enter_admission l c req
  generalize l.enter c req = result at a stored
  cases a with
  | refused => exact ⟨room, stored, rfl⟩
  | @admitted before there free =>
    rcases found_insert_iff.mp stored with ⟨rfl, rfl⟩ | ⟨_, kept⟩
    · exact ⟨before, there, rfl⟩
    · exact ⟨room, kept, rfl⟩

/-- A room that is there after a request was there before, on the same terms, or the request opened
    it. -/
theorem serve_terms (h : l.Consistent) (r : LobbyRequest)
    (stored : (l.serve r).1.rooms[id]? = some room) :
    (∃ earlier, l.rooms[id]? = some earlier ∧ room.terms = earlier.terms) ∨
      (l.rooms[id]? = none ∧ ∃ host s endpoint, r = .create host id s endpoint ∧
        room.terms = (Room.opened id host s endpoint).terms) := by
  cases r with
  | create host other s endpoint =>
    rcases l.serve_create_cases host other s endpoint with refused | created
    · rw [refused] at stored
      exact Or.inl ⟨room, stored, rfl⟩
    · obtain ⟨free, result⟩ := create_ok_iff.mp created
      rw [result] at stored
      rcases found_insert_iff.mp stored with ⟨rfl, rfl⟩ | ⟨_, kept⟩
      · exact Or.inr ⟨free, host, s, endpoint, rfl, rfl⟩
      · exact Or.inl (leave_terms h kept)
  | join caller req =>
    obtain ⟨between, there, same⟩ := enter_terms (l := (l.leave caller none).1) stored
    obtain ⟨earlier, first, kept⟩ := leave_terms h there
    exact Or.inl ⟨earlier, first, same.trans kept⟩
  | leave c required => exact Or.inl (leave_terms h stored)
  | kick caller target => exact Or.inl (leave_terms h stored)
  | update caller change =>
    rcases l.serve_update_cases caller change with refused | updated
    · rw [refused] at stored
      exact Or.inl ⟨room, stored, rfl⟩
    · obtain ⟨other, before, _, there, result⟩ := update_ok_iff.mp updated
      rw [result] at stored
      rcases found_insert_iff.mp stored with ⟨rfl, rfl⟩ | ⟨_, kept⟩
      · exact Or.inl ⟨before, there, rfl⟩
      · exact Or.inl ⟨room, kept, rfl⟩

def Lasts (l : Lobby) (id : String) (terms : RoomTerms) (requests : List LobbyRequest) : Prop :=
  ∀ part, part <+: requests →
    ∃ room : Room, (l.serveAll part).1.rooms[id]? = some room ∧ room.terms = terms

theorem Lasts.cons {r : LobbyRequest} (stored : l.rooms[id]? = some room)
    (same : room.terms = terms) (later : (l.serve r).1.Lasts id terms requests) :
    l.Lasts id terms (r :: requests) := by
  intro part early
  rcases part with _ | ⟨first, others⟩
  · exact ⟨room, stored, same⟩
  · obtain ⟨rfl, begins⟩ := List.cons_prefix_cons.mp early
    exact later others begins

/-- The request among these that opened a room: the id was free then, and the room has been there
    since. -/
def Opened (l : Lobby) (requests : List LobbyRequest) (id : String) (room : Room)
    (s : RoomSettings) (endpoint : Option Net.SocketAddress) : Prop :=
  ∃ past later, requests = past ++ .create room.host id s endpoint :: later ∧
    (l.serveAll past).1.rooms[id]? = none ∧
    room.terms = (Room.opened id room.host s endpoint).terms ∧
    ((l.serveAll past).1.serve (.create room.host id s endpoint)).1.Lasts id room.terms later

/-- A room that is there after a history has been there all along, or was opened by it. -/
theorem history_terms (h : l.Consistent)
    (stored : (l.serveAll requests).1.rooms[id]? = some room) :
    l.Lasts id room.terms requests ∨ ∃ s endpoint, l.Opened requests id room s endpoint := by
  induction requests generalizing l with
  | nil =>
    refine Or.inl fun part early => ?_
    rw [List.prefix_nil.mp early]
    exact ⟨room, stored, rfl⟩
  | cons r rest ih =>
    rcases ih (serve_consistent l r h) stored with lasts | ⟨s, endpoint, past, later, rfl, opened⟩
    · obtain ⟨now, there, same⟩ := lasts [] List.nil_prefix
      rcases serve_terms h r there with ⟨earlier, before, kept⟩ | ⟨free, host, s, endpoint, made⟩
      · exact Or.inl (lasts.cons before (kept.symm.trans same))
      · obtain ⟨rfl, terms⟩ := made
        obtain rfl : room.host = host := congrArg RoomTerms.host (same.symm.trans terms)
        exact Or.inr ⟨s, endpoint, [], rest, rfl, free, same.symm.trans terms, lasts⟩
    · exact Or.inr ⟨s, endpoint, r :: past, later, rfl, opened⟩

theorem room_opened (stored : (empty.serveAll requests).1.rooms[id]? = some room) :
    ∃ s endpoint, empty.Opened requests id room s endpoint := by
  rcases history_terms empty_consistent stored with lasts | opened
  · obtain ⟨first, there, -⟩ := lasts [] List.nil_prefix
    simp [serveAll, empty] at there
  · exact opened

theorem Opened.kept (opened : l.Opened requests id room s endpoint) :
    room.terms = (Room.opened id room.host s endpoint).terms := by
  obtain ⟨past, later, -, -, kept, -⟩ := opened
  exact kept

theorem Opened.of_terms {other : Room} (opened : l.Opened requests id other s endpoint)
    (same : room.terms = other.terms) : l.Opened requests id room s endpoint := by
  have host : room.host = other.host := congrArg RoomTerms.host same
  unfold Opened at opened ⊢
  rwa [host, same]

/-! What the two sides are told -/

/-- Both sides want to connect directly and have been seen. -/
structure Meets (req : JoinRequest) (s : RoomSettings) (endpoint : Option Net.SocketAddress)
    (caller host : Net.SocketAddress) : Prop where
  able : req.canDirect = true
  offered : s.supportsDirect = true
  caller_seen : req.endpoint = some caller
  host_seen : endpoint = some host

structure Way (s : RoomSettings) (localIp : String) (caller host : Net.SocketAddress)
    (ip : String) (port : Int32) : Prop where
  same_machine : caller.ip = host.ip → s.hostLocalIp = localIp → ip = "127.0.0.1"
  same_network : caller.ip = host.ip → s.hostLocalIp ≠ localIp → ip = s.hostLocalIp
  apart : caller.ip ≠ host.ip → ip = host.ip.text
  punched : s.useNatPunch = true → port = portNumber host.port
  advertised : s.useNatPunch = false → port = s.port

/-- The frames that follow those of a departure when a caller gets into a room that was opened with
    these settings by a host seen at this endpoint. -/
inductive Introduced (c host : ConnectionId) (req : JoinRequest) (s : RoomSettings)
    (endpoint : Option Net.SocketAddress) : List Outbound → Prop
  | relayed (apart : ∀ caller seen, ¬ Meets req s endpoint caller seen) :
      Introduced c host req s endpoint [⟨c, .roomJoined c⟩, ⟨host, .roomJoined c⟩]
  | direct {caller seen : Net.SocketAddress} {ip : String} {port : Int32}
      (meets : Meets req s endpoint caller seen) (punch : s.useNatPunch = false)
      (way : Way s req.localIp caller seen ip port) :
      Introduced c host req s endpoint [⟨c, .directConnect ip port false⟩]
  | punched {caller seen : Net.SocketAddress} {ip : String} {port : Int32}
      (meets : Meets req s endpoint caller seen) (punch : s.useNatPunch = true)
      (way : Way s req.localIp caller seen ip port) :
      Introduced c host req s endpoint
        [⟨c, .directConnect ip port true⟩,
         ⟨host, .directConnect caller.ip.text (portNumber caller.port) true⟩]

theorem directEndpoints_some_iff (kept : room.terms = (Room.opened id room.host s endpoint).terms)
    {caller host : Net.SocketAddress} :
    directEndpoints? room req = some (caller, host) ↔ Meets req s endpoint caller host := by
  have seen : room.hostEndpoint = endpoint := congrArg RoomTerms.endpoint kept
  have direct : room.supportsDirect = (endpoint.isSome && s.supportsDirect) :=
    congrArg RoomTerms.direct kept
  unfold directEndpoints?
  rw [seen, direct]
  constructor
  · intro found
    split at found
    · rename_i _ _ caller_seen
      simp only [Option.isSome_some, Bool.true_and, Bool.and_eq_true] at found
      split at found
      · rename_i both
        cases found
        exact ⟨both.1, both.2, caller_seen, rfl⟩
      · contradiction
    · contradiction
  · rintro ⟨able, offered, caller_seen, rfl⟩
    simp [able, offered, caller_seen]

theorem direct_way (kept : room.terms = (Room.opened id room.host s endpoint).terms)
    (caller host : Net.SocketAddress) :
    Way s req.localIp caller host (directIp room req caller host) (directPort room host) := by
  have localIp : room.hostLocalIp = s.hostLocalIp := congrArg RoomTerms.localIp kept
  have punch : room.useNatPunch = s.useNatPunch := congrArg RoomTerms.punch kept
  have port : room.port = s.port := congrArg RoomTerms.port kept
  unfold directIp directPort
  rw [localIp, punch, port]
  constructor
  · exact fun near same => by rw [if_pos near, if_pos same]
  · exact fun near other => by rw [if_pos near, if_neg other]
  · exact fun far => if_neg far
  · exact fun punched => if_pos punched
  · exact fun unpunched => if_neg (by simp [unpunched])

theorem introductions_introduced
    (kept : room.terms = (Room.opened id room.host s endpoint).terms) (c : ConnectionId)
    (req : JoinRequest) :
    Introduced c room.host req s endpoint (introductions room c req) := by
  have punch : room.useNatPunch = s.useNatPunch := congrArg RoomTerms.punch kept
  unfold introductions
  split
  · rename_i none
    refine .relayed fun caller seen meets => ?_
    exact nomatch none.symm.trans ((directEndpoints_some_iff kept).mpr meets)
  · rename_i caller seen found
    have meets := (directEndpoints_some_iff kept).mp found
    rw [punch]
    cases punched : s.useNatPunch with
    | false => exact .direct meets punched (direct_way kept caller seen)
    | true => exact .punched meets punched (direct_way kept caller seen)

theorem Introduced.disclosure {host : ConnectionId} {news : List Outbound}
    (introduced : Introduced c host req s endpoint news) (sent : o ∈ news)
    (discloses : o.frame.discloses = true) :
    (∃ caller seen, Meets req s endpoint caller seen) ∧ (o.recipient = c ∨ o.recipient = host) := by
  cases introduced with
  | relayed =>
    simp only [List.mem_cons, List.not_mem_nil, or_false] at sent
    rcases sent with rfl | rfl <;> contradiction
  | direct meets =>
    rw [List.mem_singleton.mp sent]
    exact ⟨⟨_, _, meets⟩, Or.inl rfl⟩
  | punched meets =>
    simp only [List.mem_cons, List.not_mem_nil, or_false] at sent
    rcases sent with rfl | rfl
    · exact ⟨⟨_, _, meets⟩, Or.inl rfl⟩
    · exact ⟨⟨_, _, meets⟩, Or.inr rfl⟩

/-! What a request discloses -/

theorem leave_discreet (h : l.Consistent) {required : Option ConnectionId}
    (sent : o ∈ (l.leave c required).2.outbound) : o.frame.discloses = false := by
  rcases departure_sent (leave_departure h c required) with
    none | ⟨_, _, _, _, _, told⟩ | ⟨_, _, _, _, told⟩
  · simp [none] at sent
  · rw [(mem_farewells (told ▸ sent)).2]
    rfl
  · rw [told] at sent
    rw [List.mem_singleton.mp sent]
    rfl

def Admits (l : Lobby) (c : ConnectionId) (req : JoinRequest) (room : Room) : Prop :=
  (l.leave c none).1.rooms[req.room]? = some room ∧ room.HasPlace

theorem serve_discreet (h : l.Consistent) (r : LobbyRequest) (sent : o ∈ (l.serve r).2.outbound)
    (discloses : o.frame.discloses = true) :
    ∃ c req room, r = .join c req ∧ l.Admits c req room ∧ o ∈ introductions room c req := by
  have departs {c : ConnectionId} {required : Option ConnectionId}
      (sent : o ∈ (l.leave c required).2.outbound) : False :=
    nomatch discloses.symm.trans (leave_discreet h sent)
  cases r with
  | create host id s endpoint =>
    rcases l.serve_create_cases host id s endpoint with refused | created
    · simp [refused] at sent
    · rw [(create_ok_iff.mp created).2] at sent
      rcases List.mem_append.mp sent with departure | last
      · exact (departs departure).elim
      · rw [List.mem_singleton.mp last] at discloses
        contradiction
  | join c req =>
    by_cases place : (l.leave c none).1.HasPlace req.room
    · obtain ⟨room, stored, free⟩ := place
      have outcome : l.serve (.join c req) = _ := ((join_decided h c req).admitted stored free).1
      rw [outcome] at sent
      rcases List.mem_append.mp sent with departure | introduction
      · exact (departs departure).elim
      · exact ⟨c, req, room, rfl, ⟨stored, free⟩, introduction⟩
    · have outcome : l.serve (.join c req) = _ := (join_decided h c req).refused place
      rw [outcome] at sent
      rcases List.mem_append.mp sent with departure | last
      · exact (departs departure).elim
      · rw [List.mem_singleton.mp last] at discloses
        contradiction
  | leave c required => exact (departs sent).elim
  | kick caller target => exact (departs sent).elim
  | update caller change =>
    rcases l.serve_update_cases caller change with refused | updated
    · simp [refused] at sent
    · obtain ⟨id, room, -, -, result⟩ := update_ok_iff.mp updated
      simp [result] at sent

theorem admits_opened (admits : (empty.serveAll requests).1.Admits c req room) :
    ∃ s endpoint, empty.Opened requests req.room room s endpoint := by
  obtain ⟨earlier, there, same⟩ := leave_terms (history_consistent requests) admits.1
  obtain ⟨s, endpoint, opened⟩ := room_opened there
  exact ⟨s, endpoint, opened.of_terms same⟩

/-- After every history: an address is told only in answer to an admitted request for a room, to the
    caller or to the host, and only if the caller can connect directly and has been seen, and the
    host offered it and had been seen when it opened the room; and what the two are told when a
    caller gets in, after its departure, is decided by what the host said then. -/
theorem addresses_told_to_direct_peers (requests : List LobbyRequest) :
    let l := (empty.serveAll requests).1
    (∀ r, ∀ o ∈ (l.serve r).2.outbound, o.frame.discloses = true →
      ∃ c req room s endpoint caller seen, r = .join c req ∧ l.Admits c req room ∧
        empty.Opened requests req.room room s endpoint ∧ Meets req s endpoint caller seen ∧
        (o.recipient = c ∨ o.recipient = room.host)) ∧
    ∀ c req room, l.Admits c req room →
      (∃ s endpoint, empty.Opened requests req.room room s endpoint) ∧
      ∀ s endpoint, empty.Opened requests req.room room s endpoint →
        ∃ news, Introduced c room.host req s endpoint news ∧
          (l.serve (.join c req)).2.outbound = (l.leave c none).2.outbound ++ news ∧
          ∀ o ∈ (l.leave c none).2.outbound, o.frame.discloses = false := by
  intro l
  have h : l.Consistent := history_consistent requests
  refine ⟨fun r o sent discloses => ?_, fun c req room admits => ?_⟩
  · obtain ⟨c, req, room, rfl, admits, told⟩ := serve_discreet h r sent discloses
    obtain ⟨s, endpoint, opened⟩ := admits_opened admits
    obtain ⟨⟨caller, seen, meets⟩, recipient⟩ :=
      (introductions_introduced opened.kept c req).disclosure told discloses
    exact ⟨c, req, room, s, endpoint, caller, seen, rfl, admits, opened, meets, recipient⟩
  · have outcome : l.serve (.join c req) = _ :=
      ((join_decided h c req).admitted admits.1 admits.2).1
    refine ⟨admits_opened admits, fun s endpoint opened =>
      ⟨_, introductions_introduced opened.kept c req, ?_, fun o sent => leave_discreet h sent⟩⟩
    rw [outcome]

/-- A host that offers its address and asks for a punch. The first caller comes from elsewhere, the
    second from the machine of the host. -/
example :
    let host : Net.SocketAddress := .v4 198 51 100 1 40000
    let l := (empty.serveAll
      [.create ⟨1⟩ "R" ⟨4, "Lobby", true, "", true, "192.168.1.10", true, 7777⟩ (some host)]).1
    (l.join ⟨2⟩ ⟨"R", true, "10.0.0.5", some (.v4 203 0 113 9 50000)⟩).2.outbound =
        [⟨⟨2⟩, .directConnect "198.51.100.1" 40000 true⟩,
         ⟨⟨1⟩, .directConnect "203.0.113.9" 50000 true⟩] ∧
      (l.join ⟨2⟩ ⟨"R", true, "192.168.1.10", some (.v4 198 51 100 1 40001)⟩).2.outbound =
        [⟨⟨2⟩, .directConnect "127.0.0.1" 40000 true⟩,
         ⟨⟨1⟩, .directConnect "198.51.100.1" 40001 true⟩] := by
  decide +kernel

end Lobby

end PeerRelay
