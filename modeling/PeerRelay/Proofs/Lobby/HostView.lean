import PeerRelay.Proofs.Lobby.Operations

/-!
What a host can tell about its room from the frames it is sent. As long as clients are relayed, the
frames since its room was created give the clients of the room as the node has them, in order. A
client that connects directly is announced by no such frame.
-/
namespace PeerRelay

namespace ServerFrame

def lastCreation? : List ServerFrame → Option (String × List ServerFrame)
  | [] => none
  | f :: rest =>
    match lastCreation? rest, f with
    | some found, _ => some found
    | none, .roomCreated id => some (id, rest)
    | none, _ => none

def seat (clients : List ConnectionId) : ServerFrame → List ConnectionId
  | .roomJoined c => clients ++ [c]
  | .peerLeft c => clients.filter (· != c)
  | _ => clients

/-- The id and the clients of a room, as its host rebuilds them from all that it was ever sent. -/
def rebuild? (frames : List ServerFrame) : Option (String × List ConnectionId) :=
  (lastCreation? frames).map fun (id, later) => (id, later.foldl seat [])

def follow (view : Option (String × List ConnectionId)) (f : ServerFrame) :
    Option (String × List ConnectionId) :=
  match f with
  | .roomCreated id => some (id, [])
  | f => view.map fun (id, clients) => (id, seat clients f)

theorem foldl_follow_eq (frames : List ServerFrame) (view : Option (String × List ConnectionId)) :
    frames.foldl follow view =
      match lastCreation? frames with
      | some (id, later) => some (id, later.foldl seat [])
      | none => view.map fun (id, clients) => (id, frames.foldl seat clients) := by
  induction frames generalizing view with
  | nil => cases view <;> rfl
  | cons f rest ih =>
    rw [List.foldl_cons, ih]
    cases later : lastCreation? rest with
    | some found => cases f <;> simp only [lastCreation?, later]
    | none => cases f <;> cases view <;> simp only [lastCreation?, later] <;> rfl

theorem rebuild?_eq_foldl (frames : List ServerFrame) :
    rebuild? frames = frames.foldl follow none := by
  rw [foldl_follow_eq]
  unfold rebuild?
  cases lastCreation? frames <;> rfl

@[simp] theorem rebuild?_append (frames more : List ServerFrame) :
    rebuild? (frames ++ more) = more.foldl follow (rebuild? frames) := by
  rw [rebuild?_eq_foldl, rebuild?_eq_foldl, List.foldl_append]

@[simp] theorem follow_roomLeft (view : Option (String × List ConnectionId)) :
    follow view .roomLeft = view := by
  cases view <;> rfl

theorem foldl_follow_roomLeft {frames : List ServerFrame} (idle : ∀ f ∈ frames, f = .roomLeft)
    (view : Option (String × List ConnectionId)) : frames.foldl follow view = view := by
  induction frames with
  | nil => rfl
  | cons f rest ih =>
    rw [List.foldl_cons, idle f (by simp), follow_roomLeft]
    exact ih fun g mem => idle g (by simp [mem])

end ServerFrame

namespace Lobby
open Map ServerFrame

def framesFor (c : ConnectionId) (log : List Outbound) : List ServerFrame :=
  (log.filter fun o => o.recipient == c).map Outbound.frame

@[simp] theorem framesFor_append (c : ConnectionId) (log more : List Outbound) :
    framesFor c (log ++ more) = framesFor c log ++ framesFor c more := by
  simp [framesFor]

theorem mem_framesFor {c : ConnectionId} {log : List Outbound} {f : ServerFrame} :
    f ∈ framesFor c log ↔ ⟨c, f⟩ ∈ log := by
  simp only [framesFor, List.mem_map, List.mem_filter, beq_iff_eq]
  constructor
  · rintro ⟨o, ⟨mem, rfl⟩, rfl⟩
    exact mem
  · intro mem
    exact ⟨⟨c, f⟩, ⟨mem, rfl⟩, rfl⟩

def Mirrored (l : Lobby) (log : List Outbound) : Prop :=
  ∀ (id : String) (room : Room), l.rooms[id]? = some room →
    rebuild? (framesFor room.host log) = some (id, room.clients)

variable {l : Lobby} {log : List Outbound}

theorem Mirrored.append (m : l.Mirrored log) {more : List Outbound} {id : String} {room : Room}
    (stored : l.rooms[id]? = some room) :
    rebuild? (framesFor room.host (log ++ more)) =
      (framesFor room.host more).foldl follow (some (id, room.clients)) := by
  simp [m id room stored]

theorem Consistent.other_host (h : l.Consistent) {id id' : String} {room room' : Room}
    (stored : l.rooms[id]? = some room) (stored' : l.rooms[id']? = some room')
    (elsewhere : id' ≠ id) : room'.host ≠ room.host := by
  intro same
  exact elsewhere (h.seat_unique stored' stored (Or.inl rfl) (Or.inl same.symm))

theorem departure_mirrored (h : l.Consistent) (m : l.Mirrored log) {c : ConnectionId}
    {required : Option ConnectionId} {result : Lobby × Effects}
    (d : Departure l c required result) : result.1.Mirrored (log ++ result.2.outbound) := by
  cases d with
  | outside | denied => simpa using m
  | closed stored host permission =>
    intro id' room' found
    rw [m.append (found_erase_iff.mp found).2]
    apply foldl_follow_roomLeft
    intro f mem
    obtain ⟨client, _, same⟩ := List.mem_map.mp (mem_framesFor.mp mem)
    exact (Outbound.mk.inj same).2.symm
  | @dropped id room stored client permission =>
    intro id' room' found
    rcases found_insert_iff.mp found with ⟨rfl, rfl⟩ | ⟨elsewhere, found⟩
    · show rebuild? (framesFor room.host _) = _
      rw [m.append stored]
      simp [framesFor, dropClient, follow, seat]
    · rw [m.append found]
      simp [framesFor, dropClient, (h.other_host stored found elsewhere).symm]

theorem leave_mirrored (h : l.Consistent) (m : l.Mirrored log) (c : ConnectionId)
    (required : Option ConnectionId) :
    (l.leave c required).1.Mirrored (log ++ (l.leave c required).2.outbound) :=
  departure_mirrored h m (leave_departure h c required)

/-- Whether a request gets a client into a room that it then connects to directly. -/
def joinsDirectly (l : Lobby) : LobbyRequest → Bool
  | .join c req =>
    ((l.leave c none).1.get? req.room).any fun room =>
      room.hasFreeSlot && (directEndpoints? room req).isSome
  | _ => false

def allRelayed (l : Lobby) : List LobbyRequest → Bool
  | [] => true
  | r :: rest => !l.joinsDirectly r && (l.serve r).1.allRelayed rest

theorem enter_mirrored (h : l.Consistent) (m : l.Mirrored log) {c : ConnectionId}
    (no_host : l.hosts[c]? = none) {req : JoinRequest}
    (relayed : ∀ room : Room, l.rooms[req.room]? = some room → room.hasFreeSlot = true →
      directEndpoints? room req = none) :
    (l.enter c req).1.Mirrored (log ++ (l.enter c req).2.outbound) := by
  have hosts_no_room : ∀ {id : String} {room : Room}, l.rooms[id]? = some room → room.host ≠ c := by
    rintro id room stored rfl
    rw [h.host_indexed stored] at no_host
    contradiction
  have a := enter_admission l c req
  generalize l.enter c req = result at a
  cases a with
  | refused full =>
    intro id room stored
    rw [m.append stored]
    apply foldl_follow_roomLeft
    intro f mem
    exact (Outbound.mk.inj (List.mem_singleton.mp (mem_framesFor.mp mem))).2
  | @admitted room stored free =>
    have told : introductions room c req = [⟨c, .roomJoined c⟩, ⟨room.host, .roomJoined c⟩] := by
      rw [introductions, relayed room stored free]
    intro id' room' found
    rcases found_insert_iff.mp found with ⟨rfl, rfl⟩ | ⟨elsewhere, found⟩
    · show rebuild? (framesFor room.host _) = _
      rw [m.append stored, told]
      simp [framesFor, (hosts_no_room stored).symm, follow, seat]
    · rw [m.append found, told]
      simp [framesFor, (hosts_no_room found).symm, (h.other_host stored found elsewhere).symm]

theorem join_mirrored (h : l.Consistent) (m : l.Mirrored log) {c : ConnectionId}
    {req : JoinRequest} (relayed : l.joinsDirectly (.join c req) = false) :
    (l.join c req).1.Mirrored (log ++ (l.join c req).2.outbound) := by
  show ((l.leave c none).1.enter c req).1.Mirrored
    (log ++ ((l.leave c none).2.outbound ++ ((l.leave c none).1.enter c req).2.outbound))
  rw [← List.append_assoc]
  refine enter_mirrored (leave_consistent h c none) (leave_mirrored h m c none)
    (leave_absent h c).1 ?_
  intro room stored free
  have found : (l.leave c none).1.get? req.room = some room := stored
  simpa [joinsDirectly, found, free] using relayed

theorem create_mirrored (h : l.Consistent) (m : l.Mirrored log) {host : ConnectionId}
    {id : String} {s : RoomSettings} {endpoint : Option Net.SocketAddress}
    {result : Lobby × Effects} (created : l.create host id s endpoint = .ok result) :
    result.1.Mirrored (log ++ result.2.outbound) := by
  obtain ⟨_, rfl⟩ := create_ok_iff.mp created
  have left := leave_mirrored h m host none
  have consistent := leave_consistent h host none
  have no_host := (leave_absent h host).1
  intro id' room' found
  rw [← List.append_assoc]
  rcases found_insert_iff.mp found with ⟨rfl, rfl⟩ | ⟨_, found⟩
  · show rebuild? (framesFor host _) = _
    simp [framesFor, follow, Room.opened]
  · have other : room'.host ≠ host := by
      rintro rfl
      rw [consistent.host_indexed found] at no_host
      contradiction
    rw [left.append found]
    simp [framesFor, other.symm]

theorem update_mirrored (m : l.Mirrored log) {caller : ConnectionId} {u : RoomUpdate}
    {result : Lobby × Effects} (updated : l.update caller u = .ok result) :
    result.1.Mirrored (log ++ result.2.outbound) := by
  obtain ⟨id, room, _, stored, rfl⟩ := update_ok_iff.mp updated
  intro id' room' found
  rw [List.append_nil]
  rcases found_insert_iff.mp found with ⟨rfl, rfl⟩ | ⟨_, found⟩
  · exact m _ room stored
  · exact m id' room' found

theorem serve_mirrored (h : l.Consistent) (m : l.Mirrored log) {r : LobbyRequest}
    (relayed : l.joinsDirectly r = false) :
    (l.serve r).1.Mirrored (log ++ (l.serve r).2.outbound) := by
  cases r with
  | create host id settings endpoint =>
    rcases l.serve_create_cases host id settings endpoint with refused | created
    · simpa [refused] using m
    · exact create_mirrored h m created
  | join caller request => exact join_mirrored h m relayed
  | leave c required => exact leave_mirrored h m c required
  | kick caller target => exact leave_mirrored h m target (some caller)
  | update caller change =>
    rcases l.serve_update_cases caller change with refused | updated
    · simpa [refused] using m
    · exact update_mirrored m updated

theorem history_mirrored (requests : List LobbyRequest) (h : l.Consistent) (m : l.Mirrored log)
    (relayed : l.allRelayed requests = true) :
    (l.serveAll requests).1.Mirrored (log ++ framesOf (l.serveAll requests).2) := by
  induction requests generalizing l log with
  | nil => simpa [framesOf, serveAll] using m
  | cons r rest ih =>
    obtain ⟨first, others⟩ := Bool.and_eq_true_iff.mp relayed
    have step := serve_mirrored h m (by simpa using first)
    rw [serveAll_cons]
    simp only [framesOf, List.flatMap_cons]
    rw [← List.append_assoc]
    exact ih (serve_consistent l r h) step others

/-- At the end of a history in which every client that got into a room is relayed, a host that
    follows the frames it was sent since its last room was created has the id of its room and the
    clients in it, in the order of the room. -/
theorem host_rebuilds_room (requests : List LobbyRequest)
    (relayed : empty.allRelayed requests = true) (host : ConnectionId) (room : Room)
    (hosting : (empty.serveAll requests).1.hostedBy? host = some room) :
    rebuild? (framesFor host (framesOf (empty.serveAll requests).2)) =
      some (room.id, room.clients) := by
  have consistent := history_consistent requests
  obtain ⟨id, listed, stored⟩ := Option.bind_eq_some_iff.mp hosting
  obtain ⟨other, found, rfl⟩ := consistent.hosts_iff.mp listed
  obtain rfl := found_unique found stored
  have nothing : empty.Mirrored [] := by
    intro id room stored
    simp [empty] at stored
  have mirrored := history_mirrored requests empty_consistent nothing relayed
  rw [consistent.own_id found]
  exact mirrored id other found

def busyHistory : List LobbyRequest :=
  let settings : RoomSettings := ⟨4, "Lobby", true, "", false, "", false, 0⟩
  let into (room : String) : JoinRequest := ⟨room, true, "", none⟩
  [.create ⟨1⟩ "A" settings none, .join ⟨2⟩ (into "A"), .join ⟨3⟩ (into "A"),
   .create ⟨4⟩ "B" settings none, .join ⟨2⟩ (into "B"), .join ⟨2⟩ (into "A"),
   .kick ⟨1⟩ ⟨3⟩, .update ⟨1⟩ { name := some "Arena" }, .join ⟨3⟩ (into "A")]

theorem host_rebuilds_busy_room :
    empty.allRelayed busyHistory = true ∧
      (empty.serveAll busyHistory).1.hostedBy? ⟨1⟩ =
        some ⟨"A", ⟨1⟩, [⟨2⟩, ⟨3⟩], "Arena", "", true, 4, none, "", false, false, 0⟩ ∧
      rebuild? (framesFor ⟨1⟩ (framesOf (empty.serveAll busyHistory).2)) =
        some ("A", [⟨2⟩, ⟨3⟩]) :=
  ⟨by decide +kernel, by decide +kernel,
    host_rebuilds_room busyHistory (by decide +kernel) ⟨1⟩
      ⟨"A", ⟨1⟩, [⟨2⟩, ⟨3⟩], "Arena", "", true, 4, none, "", false, false, 0⟩ (by decide +kernel)⟩

end Lobby

end PeerRelay
