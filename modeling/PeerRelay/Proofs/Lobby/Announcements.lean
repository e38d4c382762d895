import PeerRelay.Proofs.Lobby.Listings
import PeerRelay.Proofs.Lobby.Seats

/-!
Who is told that somebody has left. Whenever a room is closed or loses a client, those concerned
are told exactly once, and nobody is told of a departure that did not happen. A request first takes
a connection out of its room (`Departure`) and may then give it a seat (`Arrival`).
-/
namespace PeerRelay

/-- Whether a connection asks for something that ends its own seat. -/
def LobbyRequest.Quits (c : ConnectionId) : LobbyRequest → Prop
  | .create host .. => host = c
  | .join caller _ => caller = c
  | .leave leaver _ => leaver = c
  | .kick caller target => caller = c ∧ target = c
  | .update .. => False

theorem LobbyRequest.Quits.actor {c : ConnectionId} {r : LobbyRequest} (quits : r.Quits c) :
    r.actor = c := by
  cases r with
  | create | join | leave => exact quits
  | kick => exact quits.1
  | update => exact quits.elim

theorem LobbyRequest.actor_mem_named (r : LobbyRequest) : r.actor ∈ r.named := by
  cases r <;> simp [actor, named]

namespace Lobby
open Map

def Together (l : Lobby) (c x : ConnectionId) : Prop :=
  ∃ (id : String) (room : Room), l.rooms[id]? = some room ∧ room.Seats c ∧ room.Seats x

def farewells (room : Room) : List Outbound := room.clients.map fun c => ⟨c, .roomLeft⟩

/-- The frames that were sent for a request tell every departure, once, and no other. -/
structure Announced (l : Lobby) (r : LobbyRequest) (after : Lobby) (sent : List Outbound) :
    Prop where
  /-- A room is gone: its host did it, and every client is told in the order of joining. -/
  closed : ∀ {id : String} {room : Room}, l.rooms[id]? = some room → after.rooms[id]? = none →
    r.Quits room.host ∧
      sent.filter (fun o => o.frame == .roomLeft && room.hasClient o.recipient) = farewells room ∧
      room.clients.Nodup ∧ ∀ x ∈ room.clients, ¬ after.Seated x
  /-- A client is gone from a room that stays: the host is told. -/
  dropped : ∀ {id : String} {room room' : Room} {x : ConnectionId}, l.rooms[id]? = some room →
    after.rooms[id]? = some room' → x ∈ room.clients → x ∉ room'.clients →
      room'.host = room.host ∧ sent.count ⟨room.host, .peerLeft x⟩ = 1
  peerLeft : ∀ {x y : ConnectionId}, ⟨y, .peerLeft x⟩ ∈ sent →
    ∃ (id : String) (room : Room), l.rooms[id]? = some room ∧ x ∈ room.clients ∧ y = room.host
  peerLeft_once : ∀ x : ConnectionId, sent.countP (fun o => o.frame == .peerLeft x) ≤ 1
  roomLeft : ∀ {x : ConnectionId}, ⟨x, .roomLeft⟩ ∈ sent →
    (∃ (id : String) (room : Room),
      l.rooms[id]? = some room ∧ after.rooms[id]? = none ∧ x ∈ room.clients) ∨
    (∃ request : JoinRequest, r = .join x request) ∧ ¬ after.Seated x
  recipients : ∀ o ∈ sent, o.recipient = r.actor ∨
    ∃ c ∈ r.named, l.Together c o.recipient ∨ after.Together c o.recipient

/-- What follows a departure: the one who asked may get a seat, in a room that stays as it was
    otherwise or in a new one, or is refused. -/
structure Arrival (l left : Lobby) (r : LobbyRequest) (after : Lobby) (news : List Outbound) :
    Prop where
  keeps : ∀ {id : String} {room : Room}, left.rooms[id]? = some room →
    ∃ room' : Room, after.rooms[id]? = some room' ∧ room'.host = room.host ∧
      ∀ x ∈ room.clients, x ∈ room'.clients
  reopens_none : ∀ {id : String} {room : Room}, l.rooms[id]? = some room →
    left.rooms[id]? = none → after.rooms[id]? = none
  seats : ∀ {x : ConnectionId}, after.Seated x → left.Seated x ∨ x = r.actor
  no_peerLeft : ∀ {x : ConnectionId}, ∀ o ∈ news, o.frame ≠ .peerLeft x
  roomLeft : ∀ o ∈ news, o.frame = .roomLeft →
    (∃ request : JoinRequest, r = .join o.recipient request) ∧ ¬ after.Seated o.recipient
  recipients : ∀ o ∈ news, o.recipient = r.actor ∨ after.Together r.actor o.recipient

variable {l : Lobby} {c : ConnectionId} {required : Option ConnectionId} {left : Lobby × Effects}

/-! Departures -/

theorem departure_closed (h : l.Consistent) (d : Departure l c required left) {id : String}
    {room : Room} (stored : l.rooms[id]? = some room) (gone : left.1.rooms[id]? = none) :
    room.host = c ∧ permits required c = true ∧ left.2.outbound = farewells room ∧
      ∀ x ∈ room.clients, ¬ left.1.Seated x := by
  cases d with
  | outside | denied =>
    rw [stored] at gone
    contradiction
  | @closed id' room' stored' host permission =>
    by_cases same : id = id'
    · subst same
      obtain rfl := found_unique stored stored'
      refine ⟨host, permission, rfl, ?_⟩
      rintro x client ⟨other, room', found, seat⟩
      obtain ⟨elsewhere, found⟩ := found_erase_iff.mp found
      exact elsewhere (h.seat_unique found stored seat (Or.inr client))
    · rw [found_erase_iff.mpr ⟨same, stored⟩] at gone
      contradiction
  | @dropped id' room' stored' client permission =>
    simp only [dropClient, Std.ExtTreeMap.getElem?_insert] at gone
    split at gone
    · contradiction
    · rw [stored] at gone
      contradiction

theorem departure_dropped (d : Departure l c required left) {id : String} {room room' : Room}
    (stored : l.rooms[id]? = some room) (kept : left.1.rooms[id]? = some room') :
    room'.host = room.host ∧ ∀ x ∈ room.clients, x ∉ room'.clients →
      x = c ∧ left.2.outbound = [⟨room.host, .peerLeft c⟩] := by
  cases d with
  | outside | denied =>
    obtain rfl := found_unique stored kept
    exact ⟨rfl, fun x client gone => (gone client).elim⟩
  | closed _ _ _ =>
    obtain rfl := found_unique stored (found_erase_iff.mp kept).2
    exact ⟨rfl, fun x client gone => (gone client).elim⟩
  | @dropped id' other stored' client permission =>
    rcases found_insert_iff.mp kept with ⟨rfl, rfl⟩ | ⟨_, kept⟩
    · obtain rfl := found_unique stored stored'
      refine ⟨rfl, fun x client gone => ⟨?_, rfl⟩⟩
      by_cases other : x = c
      · exact other
      · exact (gone (List.mem_filter.mpr ⟨client, by simpa using other⟩)).elim
    · obtain rfl := found_unique stored kept
      exact ⟨rfl, fun x client gone => (gone client).elim⟩

theorem departure_sent (d : Departure l c required left) :
    left.2.outbound = [] ∨
      (∃ (id : String) (room : Room), l.rooms[id]? = some room ∧ left.1.rooms[id]? = none ∧
        room.host = c ∧ left.2.outbound = farewells room) ∨
      ∃ (id : String) (room : Room), l.rooms[id]? = some room ∧ c ∈ room.clients ∧
        left.2.outbound = [⟨room.host, .peerLeft c⟩] := by
  cases d with
  | outside | denied => exact Or.inl rfl
  | @closed id room stored host permission =>
    exact Or.inr (Or.inl ⟨id, room, stored, Std.ExtTreeMap.getElem?_erase_self, host, rfl⟩)
  | @dropped id room stored client permission =>
    exact Or.inr (Or.inr ⟨id, room, stored, client, rfl⟩)

theorem mem_farewells {room : Room} {o : Outbound} (sent : o ∈ farewells room) :
    o.recipient ∈ room.clients ∧ o.frame = .roomLeft := by
  obtain ⟨x, client, rfl⟩ := List.mem_map.mp sent
  exact ⟨client, rfl⟩

theorem departure_peerLeft (d : Departure l c required left) {x y : ConnectionId}
    (sent : ⟨y, .peerLeft x⟩ ∈ left.2.outbound) :
    ∃ (id : String) (room : Room), l.rooms[id]? = some room ∧ x ∈ room.clients ∧ y = room.host := by
  rcases departure_sent d with none | ⟨_, _, _, _, _, told⟩ | ⟨id, room, stored, client, told⟩
  · simp [none] at sent
  · have farewell := (mem_farewells (told ▸ sent)).2
    contradiction
  · rw [told] at sent
    obtain ⟨rfl, frame⟩ := Outbound.mk.inj (List.mem_singleton.mp sent)
    obtain rfl := ServerFrame.peerLeft.inj frame
    exact ⟨id, room, stored, client, rfl⟩

theorem departure_peerLeft_once (d : Departure l c required left) (x : ConnectionId) :
    left.2.outbound.countP (fun o => o.frame == .peerLeft x) ≤ 1 := by
  rcases departure_sent d with none | ⟨_, room, _, _, _, told⟩ | ⟨_, room, _, _, told⟩
  · simp [none]
  · have none : (farewells room).countP (fun o => o.frame == .peerLeft x) = 0 :=
      List.countP_eq_zero.mpr fun o sent => by simp [(mem_farewells sent).2]
    rw [told, none]
    exact Nat.zero_le 1
  · rw [told]
    exact List.countP_le_length

theorem departure_roomLeft (d : Departure l c required left) {x : ConnectionId}
    (sent : ⟨x, .roomLeft⟩ ∈ left.2.outbound) :
    ∃ (id : String) (room : Room),
      l.rooms[id]? = some room ∧ left.1.rooms[id]? = none ∧ x ∈ room.clients := by
  rcases departure_sent d with none | ⟨id, room, stored, gone, _, told⟩ | ⟨_, _, _, _, told⟩
  · simp [none] at sent
  · exact ⟨id, room, stored, gone, (mem_farewells (told ▸ sent)).1⟩
  · rw [told] at sent
    simp at sent

theorem departure_together (d : Departure l c required left) {o : Outbound}
    (sent : o ∈ left.2.outbound) : l.Together c o.recipient := by
  rcases departure_sent d with none | ⟨id, room, stored, _, host, told⟩ |
    ⟨id, room, stored, client, told⟩
  · simp [none] at sent
  · exact ⟨id, room, stored, Or.inl host, Or.inr (mem_farewells (told ▸ sent)).1⟩
  · rw [told] at sent
    rw [List.mem_singleton.mp sent]
    exact ⟨id, room, stored, Or.inr client, Or.inl rfl⟩

/-! Arrivals -/

theorem Arrival.nothing (l left : Lobby) (r : LobbyRequest) : Arrival l left r left [] where
  keeps stored := ⟨_, stored, rfl, fun _ client => client⟩
  reopens_none _ gone := gone
  seats seated := Or.inl seated
  no_peerLeft := by simp
  roomLeft := by simp
  recipients := by simp

theorem introductions_quiet {room : Room} {req : JoinRequest} {o : Outbound}
    (sent : o ∈ introductions room c req) : o.frame ≠ .roomLeft ∧ ∀ x, o.frame ≠ .peerLeft x := by
  unfold introductions at sent
  split at sent
  · simp only [List.mem_cons, List.not_mem_nil, or_false] at sent
    rcases sent with rfl | rfl <;> simp
  · rcases List.mem_cons.mp sent with rfl | sent
    · simp
    · split at sent
      · rw [List.mem_singleton.mp sent]
        simp
      · simp at sent

theorem enter_arrival (l : Lobby) {left : Lobby} {req : JoinRequest} (outside : ¬ left.Seated c) :
    Arrival l left (.join c req) (left.enter c req).1 (left.enter c req).2.outbound := by
  have a := enter_admission left c req
  have seats : ∀ {x}, (left.enter c req).1.Seated x → left.Seated x ∨ x = c := enter_seated
  generalize left.enter c req = result at a seats
  cases a with
  | refused full =>
    refine { Arrival.nothing l left (.join c req) with
      no_peerLeft := ?_, roomLeft := ?_, recipients := ?_ }
    · rintro x o sent
      simp [List.mem_singleton.mp sent]
    · intro o sent _
      rw [List.mem_singleton.mp sent]
      exact ⟨⟨req, rfl⟩, outside⟩
    · intro o sent
      exact Or.inl (congrArg Outbound.recipient (List.mem_singleton.mp sent))
  | @admitted room stored free =>
    refine ⟨?_, ?_, seats, ?_, ?_, ?_⟩
    · intro id room' found
      by_cases same : id = req.room
      · subst same
        obtain rfl := found_unique stored found
        exact ⟨_, found_insert_iff.mpr (Or.inl ⟨rfl, rfl⟩), rfl,
          fun x client => List.mem_append_left _ client⟩
      · exact ⟨room', found_insert_iff.mpr (Or.inr ⟨same, found⟩), rfl, fun _ client => client⟩
    · intro id _ _ gone
      have elsewhere : req.room ≠ id := by
        rintro rfl
        rw [stored] at gone
        contradiction
      simp [Std.ExtTreeMap.getElem?_insert, elsewhere, gone]
    · exact fun o sent => (introductions_quiet sent).2 _
    · exact fun o sent farewell => ((introductions_quiet sent).1 farewell).elim
    · intro o sent
      rcases introductions_recipient sent with caller | host
      · exact Or.inl caller
      · refine Or.inr ⟨req.room, _, found_insert_iff.mpr (Or.inl ⟨rfl, rfl⟩), ?_, Or.inl host.symm⟩
        exact Or.inr (List.mem_append_right _ (by simp [LobbyRequest.actor]))

theorem open_arrival {left : Lobby} {id : String} {s : RoomSettings}
    {endpoint : Option Net.SocketAddress} (unknown : l.rooms[id]? = none)
    (free : left.rooms[id]? = none) :
    Arrival l left (.create c id s endpoint)
      { left with
        rooms := left.rooms.insert id (Room.opened id c s endpoint)
        hosts := left.hosts.insert c id }
      [⟨c, .roomCreated id⟩] := by
  have other : ∀ {lobby : Lobby} {id' : String} {room : Room}, lobby.rooms[id]? = none →
      lobby.rooms[id']? = some room → id' ≠ id := by
    rintro lobby id' room none found rfl
    rw [none] at found
    contradiction
  refine ⟨?_, ?_, open_seated, by simp, by simp, by simp [LobbyRequest.actor]⟩
  · intro id' room found
    refine ⟨room, found_insert_iff.mpr (Or.inr ⟨other free found, found⟩), rfl, ?_⟩
    exact fun _ client => client
  · intro id' room stored gone
    simp [Std.ExtTreeMap.getElem?_insert, (other unknown stored).symm, gone]

/-! Requests -/

theorem filter_farewells (room : Room) :
    (farewells room).filter (fun o => o.frame == .roomLeft && room.hasClient o.recipient) =
      farewells room := by
  refine List.filter_eq_self.mpr fun o sent => ?_
  obtain ⟨client, farewell⟩ := mem_farewells sent
  simp [farewell, Room.hasClient, client]

section
variable {r : LobbyRequest} {after : Lobby} {news : List Outbound}

theorem Arrival.gone_before (a : Arrival l left.1 r after news) {id : String}
    (gone : after.rooms[id]? = none) : left.1.rooms[id]? = none := by
  cases found : left.1.rooms[id]? with
  | none => rfl
  | some room =>
    obtain ⟨room', kept, _⟩ := a.keeps found
    rw [gone] at kept
    contradiction

theorem Arrival.closed (h : l.Consistent) (d : Departure l c required left)
    (a : Arrival l left.1 r after news) (quits : permits required c = true → r.Quits c)
    {id : String} {room : Room} (stored : l.rooms[id]? = some room)
    (gone : after.rooms[id]? = none) :
    r.Quits room.host ∧
      (left.2.outbound ++ news).filter
        (fun o => o.frame == .roomLeft && room.hasClient o.recipient) = farewells room ∧
      ∀ x ∈ room.clients, ¬ after.Seated x := by
  obtain ⟨host, permission, told, evicted⟩ := departure_closed h d stored (a.gone_before gone)
  subst host
  have quits := quits permission
  -- after the farewells nothing goes to a client: who is refused a seat was the host
  have rest : news.filter (fun o => o.frame == .roomLeft && room.hasClient o.recipient) = [] := by
    refine List.filter_eq_nil_iff.mpr fun o sent => ?_
    simp only [Bool.and_eq_true, beq_iff_eq, not_and]
    intro farewell client
    obtain ⟨⟨request, rfl⟩, _⟩ := a.roomLeft o sent farewell
    have caller : o.recipient = room.host := quits
    exact h.host_not_client stored (caller ▸ List.contains_iff_mem.mp client)
  refine ⟨quits, ?_, fun x client seated => ?_⟩
  · rw [List.filter_append, told, filter_farewells, rest, List.append_nil]
  · rcases a.seats seated with stayed | caller
    · exact evicted x client stayed
    · rw [caller, quits.actor] at client
      exact h.host_not_client stored client

theorem Arrival.dropped (d : Departure l c required left) (a : Arrival l left.1 r after news)
    {id : String} {room room' : Room} {x : ConnectionId} (stored : l.rooms[id]? = some room)
    (kept : after.rooms[id]? = some room') (client : x ∈ room.clients) (gone : x ∉ room'.clients) :
    room'.host = room.host ∧ (left.2.outbound ++ news).count ⟨room.host, .peerLeft x⟩ = 1 := by
  cases found : left.1.rooms[id]? with
  | none =>
    rw [a.reopens_none stored found] at kept
    contradiction
  | some between =>
    obtain ⟨later, found', same_host, keeps⟩ := a.keeps found
    obtain rfl := found_unique kept found'
    obtain ⟨host, told⟩ := departure_dropped d stored found
    obtain ⟨rfl, sent⟩ := told x client fun inside => gone (keeps x inside)
    have once : news.count ⟨room.host, .peerLeft x⟩ = 0 :=
      List.count_eq_zero.mpr fun mem => a.no_peerLeft _ mem rfl
    refine ⟨same_host.trans host, ?_⟩
    rw [List.count_append, sent, once, List.count_singleton_self]

theorem Arrival.announced (h : l.Consistent) (d : Departure l c required left)
    (a : Arrival l left.1 r after news) (named : c ∈ r.named)
    (quits : permits required c = true → r.Quits c) :
    Announced l r after (left.2.outbound ++ news) where
  closed stored gone := by
    obtain ⟨host, told, evicted⟩ := a.closed h d quits stored gone
    exact ⟨host, told, h.clients_nodup stored, evicted⟩
  dropped := a.dropped d
  peerLeft sent := by
    rcases List.mem_append.mp sent with farewell | arrival
    · exact departure_peerLeft d farewell
    · exact (a.no_peerLeft _ arrival rfl).elim
  peerLeft_once x := by
    have rest : news.countP (fun o => o.frame == .peerLeft x) = 0 :=
      List.countP_eq_zero.mpr fun o sent => by simpa using a.no_peerLeft o sent
    rw [List.countP_append, rest]
    exact departure_peerLeft_once d x
  roomLeft sent := by
    rcases List.mem_append.mp sent with farewell | arrival
    · obtain ⟨id, room, stored, gone, client⟩ := departure_roomLeft d farewell
      exact Or.inl ⟨id, room, stored, a.reopens_none stored gone, client⟩
    · exact Or.inr (a.roomLeft _ arrival rfl)
  recipients o sent := by
    rcases List.mem_append.mp sent with farewell | arrival
    · exact Or.inr ⟨c, named, Or.inl (departure_together d farewell)⟩
    · exact (a.recipients o arrival).imp_right fun together =>
        ⟨r.actor, r.actor_mem_named, Or.inr together⟩

end

theorem announced_nothing {r : LobbyRequest} {after : Lobby}
    (keeps : ∀ {id : String} {room : Room}, l.rooms[id]? = some room →
      ∃ room' : Room, after.rooms[id]? = some room' ∧ room'.clients = room.clients) :
    Announced l r after [] where
  closed stored gone := by
    obtain ⟨room', kept, _⟩ := keeps stored
    rw [gone] at kept
    contradiction
  dropped stored kept client gone := by
    obtain ⟨room', kept', same⟩ := keeps stored
    rw [found_unique kept kept', same] at gone
    exact (gone client).elim
  peerLeft := by simp
  peerLeft_once := by simp
  roomLeft := by simp
  recipients := by simp

theorem serve_announced (h : l.Consistent) (r : LobbyRequest) :
    Announced l r (l.serve r).1 (l.serve r).2.outbound := by
  have refused : Announced l r l [] := announced_nothing fun stored => ⟨_, stored, rfl⟩
  cases r with
  | create host id settings endpoint =>
    rcases l.serve_create_cases host id settings endpoint with same | created
    · rw [same]
      exact refused
    · obtain ⟨unknown, shape⟩ := create_ok_iff.mp created
      rw [shape]
      exact (open_arrival unknown (leave_free h unknown host none)).announced h
        (leave_departure h host none) (by simp [LobbyRequest.named]) fun _ => rfl
  | join caller request =>
    exact (enter_arrival l (leave_not_seated h caller)).announced h (leave_departure h caller none)
      (by simp [LobbyRequest.named]) fun _ => rfl
  | leave c required =>
    have announced := (Arrival.nothing l _ (.leave c required)).announced h
      (leave_departure h c required) (by simp [LobbyRequest.named]) fun _ => rfl
    rwa [List.append_nil] at announced
  | kick caller target =>
    have announced := (Arrival.nothing l _ (.kick caller target)).announced h
      (leave_departure h target (some caller)) (by simp [LobbyRequest.named]) ?_
    · rwa [List.append_nil] at announced
    · intro permission
      have same : caller = target := by simpa [permits] using permission
      exact ⟨same, rfl⟩
  | update caller change =>
    rcases l.serve_update_cases caller change with same | updated
    · rw [same]
      exact refused
    · obtain ⟨id, room, _, stored, shape⟩ := update_ok_iff.mp updated
      rw [shape]
      refine announced_nothing fun {id'} {room'} stored' => ?_
      by_cases same : id' = id
      · subst same
        obtain rfl := found_unique stored stored'
        exact ⟨_, found_insert_iff.mpr (Or.inl ⟨rfl, rfl⟩), rfl⟩
      · exact ⟨room', found_insert_iff.mpr (Or.inr ⟨same, stored'⟩), rfl⟩

/-- After every history, a request tells those concerned of every departure that it makes, and of
    no other, and whenever a room is closed or loses a client the public list is out of date. -/
theorem departures_announced (requests : List LobbyRequest) (r : LobbyRequest) :
    let l := (empty.serveAll requests).1
    let result := l.serve r
    Announced l r result.1 result.2.outbound ∧
      ∀ (id : String) (room : Room), l.rooms[id]? = some room →
        (result.1.rooms[id]? = none ∨ ∃ room' : Room, result.1.rooms[id]? = some room' ∧
          ∃ x ∈ room.clients, x ∉ room'.clients) →
        result.2.roomsChanged = true := by
  intro l result
  refine ⟨serve_announced (history_consistent requests) r, fun id room stored changed => ?_⟩
  rcases l.serve_rooms r with told | same
  · exact told
  · have kept : result.1.rooms[id]? = some room := same ▸ stored
    rcases changed with closed | ⟨room', found, x, client, gone⟩
    · rw [kept] at closed
      contradiction
    · rw [found_unique found kept] at gone
      exact (gone client).elim

end Lobby

end PeerRelay
