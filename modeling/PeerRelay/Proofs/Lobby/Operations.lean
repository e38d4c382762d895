import PeerRelay.Proofs.Lobby.Consistency
import PeerRelay.Proofs.Lobby.Request

/-!
Every request keeps a lobby consistent, so every history does. An operation is first reduced to
what it can have done (`Departure`, `Admission`); the proofs after that are about these cases.
-/
namespace PeerRelay
namespace Lobby
open Map

variable {l : Lobby}

theorem forgetMembers_lookup (clients : List ConnectionId) (members : ConnectionMap String)
    (c : ConnectionId) :
    (forgetMembers members clients)[c]? = if c ∈ clients then none else members[c]? := by
  induction clients generalizing members with
  | nil => simp [forgetMembers]
  | cons first rest ih =>
    have step : forgetMembers members (first :: rest) =
        forgetMembers (members.erase first) rest := rfl
    rw [step, ih, lookup_erase]
    by_cases same : c = first <;> simp [same]

/-- The four ways of a connection out of its room, with what decides between them. -/
inductive Departure (l : Lobby) (c : ConnectionId) (required : Option ConnectionId) :
    Lobby × Effects → Prop where
  | outside (no_host : l.hosts[c]? = none) (no_client : l.members[c]? = none) :
      Departure l c required (l, {})
  | denied {id : String} {room : Room} (stored : l.rooms[id]? = some room) (seat : room.Seats c)
      (refusal : permits required room.host = false) : Departure l c required (l, {})
  | closed {id : String} {room : Room} (stored : l.rooms[id]? = some room) (host : room.host = c)
      (permission : permits required c = true) :
      Departure l c required
        ({ rooms := l.rooms.erase id
           hosts := l.hosts.erase c
           members := forgetMembers l.members room.clients },
         { outbound := room.clients.map fun client => ⟨client, .roomLeft⟩, roomsChanged := true })
  | dropped {id : String} {room : Room} (stored : l.rooms[id]? = some room)
      (client : c ∈ room.clients) (permission : permits required room.host = true) :
      Departure l c required (l.dropClient room id c)

theorem leave_departure (h : l.Consistent) (c : ConnectionId) (required : Option ConnectionId) :
    Departure l c required (l.leave c required) := by
  unfold leave
  split
  · rename_i id host
    obtain ⟨room, stored, rfl⟩ := h.hosts_iff.mp host
    split
    · rename_i permission
      have found : l.get? id = some room := stored
      simp only [closeRoom, found]
      exact .closed stored rfl permission
    · rename_i refusal
      exact .denied stored (Or.inl rfl) (by simpa using refusal)
  · rename_i no_host
    split
    · rename_i no_client
      exact .outside no_host no_client
    · rename_i id member
      obtain ⟨room, stored, client⟩ := h.members_iff.mp member
      have found : l.get? id = some room := stored
      simp only [found]
      split
      · rename_i permission
        exact .dropped stored client permission
      · rename_i refusal
        exact .denied stored (Or.inr client) (by simpa using refusal)

inductive Admission (l : Lobby) (c : ConnectionId) (req : JoinRequest) :
    Lobby × Effects → Prop where
  | refused (full : ∀ room : Room, l.rooms[req.room]? = some room → room.hasFreeSlot = false) :
      Admission l c req (l, { outbound := [⟨c, .roomLeft⟩] })
  | admitted {room : Room} (stored : l.rooms[req.room]? = some room)
      (free : room.hasFreeSlot = true) :
      Admission l c req
        ({ l with
           rooms := l.rooms.insert req.room { room with clients := room.clients ++ [c] }
           members := l.members.insert c room.id },
         { outbound := introductions room c req, roomsChanged := true })

theorem enter_admission (l : Lobby) (c : ConnectionId) (req : JoinRequest) :
    Admission l c req (l.enter c req) := by
  unfold enter get?
  split
  · rename_i unknown
    exact .refused (by simp [unknown])
  · rename_i room stored
    split
    · rename_i free
      exact .admitted stored free
    · rename_i full
      refine .refused ?_
      intro other found
      rw [found_unique found stored]
      simpa using full

@[simp] theorem contains_eq_false {id : String} : l.contains id = false ↔ l.rooms[id]? = none := by
  rw [contains, Std.ExtTreeMap.contains_eq_isSome_getElem?, Option.isSome_eq_false_iff,
    Option.isNone_iff_eq_none]

@[simp] theorem contains_eq_true {id : String} : l.contains id = true ↔ l.rooms[id]? ≠ none := by
  rw [← Bool.not_eq_false, contains_eq_false]

theorem create_ok_iff {host : ConnectionId} {id : String} {s : RoomSettings}
    {endpoint : Option Net.SocketAddress} {result : Lobby × Effects} :
    l.create host id s endpoint = .ok result ↔
      l.rooms[id]? = none ∧
        result =
          ({ (l.leave host none).1 with
             rooms := (l.leave host none).1.rooms.insert id (Room.opened id host s endpoint)
             hosts := (l.leave host none).1.hosts.insert host id },
           { outbound := (l.leave host none).2.outbound ++ [⟨host, .roomCreated id⟩]
             roomsChanged := true }) := by
  unfold create
  rw [← contains_eq_false]
  cases l.contains id with
  | true => simp
  | false => simp [Effects.send, Effects.changed, eq_comm]

theorem update_ok_iff {caller : ConnectionId} {u : RoomUpdate} {result : Lobby × Effects} :
    l.update caller u = .ok result ↔
      ∃ (id : String) (room : Room), l.hosts[caller]? = some id ∧ l.rooms[id]? = some room ∧
        result =
          ({ l with rooms := l.rooms.insert id (room.updated u) },
           { roomsChanged := !u.isEmpty }) := by
  unfold update get?
  cases l.hosts[caller]? with
  | none => simp
  | some id =>
    cases found : l.rooms[id]? with
    | none => simp [found]
    | some room => simp [found, eq_comm]

theorem departure_consistent (h : l.Consistent) {c : ConnectionId}
    {required : Option ConnectionId} {result : Lobby × Effects}
    (d : Departure l c required result) : result.1.Consistent := by
  cases d with
  | outside | denied => exact h
  | closed stored host permission =>
    subst host
    exact h.dissolve stored (forgetMembers_lookup _ _)
  | @dropped id room stored client permission =>
    refine h.reseat stored rfl rfl rfl rfl ((h.clients_nodup stored).filter _) ?_ ?_
    · intro other mem
      exact Or.inl (List.mem_filter.mp mem).1
    · intro other
      rw [lookup_erase]
      by_cases same : other = c
      · simp [same, client]
      · by_cases inside : other ∈ room.clients
        · simp [same, inside, h.client_indexed stored inside]
        · simp [same, inside]

theorem leave_consistent (h : l.Consistent) (c : ConnectionId) (required : Option ConnectionId) :
    (l.leave c required).1.Consistent :=
  departure_consistent h (leave_departure h c required)

theorem leave_absent (h : l.Consistent) (c : ConnectionId) :
    (l.leave c none).1.hosts[c]? = none ∧ (l.leave c none).1.members[c]? = none := by
  have d := leave_departure h c none
  generalize l.leave c none = result at d
  cases d with
  | outside no_host no_client => exact ⟨no_host, no_client⟩
  | denied stored seat refusal => simp [permits] at refusal
  | closed stored host permission =>
    subst host
    refine ⟨Std.ExtTreeMap.getElem?_erase_self, ?_⟩
    rw [forgetMembers_lookup, if_neg (h.host_not_client stored)]
    exact h.one_role (h.host_indexed stored)
  | dropped stored client permission =>
    exact ⟨h.client_hosts_none stored client, Std.ExtTreeMap.getElem?_erase_self⟩

theorem leave_free (h : l.Consistent) {id : String} (free : l.rooms[id]? = none)
    (c : ConnectionId) (required : Option ConnectionId) :
    (l.leave c required).1.rooms[id]? = none := by
  have d := leave_departure h c required
  generalize l.leave c required = result at d
  cases d with
  | outside | denied => exact free
  | closed stored host permission =>
    rw [Std.ExtTreeMap.getElem?_erase]
    simp [free]
  | @dropped other room stored client permission =>
    show (l.rooms.insert other _)[id]? = none
    have elsewhere : other ≠ id := by
      rintro rfl
      rw [free] at stored
      contradiction
    simp [Std.ExtTreeMap.getElem?_insert, elsewhere, free]

theorem enter_consistent (h : l.Consistent) {c : ConnectionId} (no_host : l.hosts[c]? = none)
    (no_client : l.members[c]? = none) (req : JoinRequest) : (l.enter c req).1.Consistent := by
  have a := enter_admission l c req
  generalize l.enter c req = result at a
  cases a with
  | refused full => exact h
  | @admitted room stored free =>
    have outside : c ∉ room.clients := by
      intro inside
      rw [h.client_indexed stored inside] at no_client
      contradiction
    refine h.reseat stored rfl rfl rfl rfl ?_ ?_ ?_
    · rw [List.nodup_append]
      refine ⟨h.clients_nodup stored, by simp, ?_⟩
      intro other inside last mem same
      rw [List.mem_singleton.mp mem] at same
      exact outside (same ▸ inside)
    · intro other mem
      rcases List.mem_append.mp mem with inside | last
      · exact Or.inl inside
      · rw [List.mem_singleton.mp last]
        exact Or.inr ⟨no_host, no_client⟩
    · intro other
      rw [Std.ExtTreeMap.getElem?_insert, h.own_id stored]
      by_cases same : other = c
      · simp [same]
      · by_cases inside : other ∈ room.clients
        · simp [Ne.symm same, inside, h.client_indexed stored inside]
        · simp [same, Ne.symm same, inside]

theorem join_consistent (h : l.Consistent) (c : ConnectionId) (req : JoinRequest) :
    (l.join c req).1.Consistent :=
  enter_consistent (leave_consistent h c none) (leave_absent h c).1 (leave_absent h c).2 req

theorem create_consistent (h : l.Consistent) {host : ConnectionId} {id : String}
    {s : RoomSettings} {endpoint : Option Net.SocketAddress} {result : Lobby × Effects}
    (created : l.create host id s endpoint = .ok result) : result.1.Consistent := by
  obtain ⟨unknown, rfl⟩ := create_ok_iff.mp created
  refine (leave_consistent h host none).install (Room.opened id host s endpoint)
    (leave_free h unknown host none) (leave_absent h host).1 (leave_absent h host).2 rfl ?_
  intro direct
  exact (Bool.and_eq_true_iff.mp direct).1

theorem update_consistent (h : l.Consistent) {caller : ConnectionId} {u : RoomUpdate}
    {result : Lobby × Effects} (updated : l.update caller u = .ok result) :
    result.1.Consistent := by
  obtain ⟨id, room, _, stored, rfl⟩ := update_ok_iff.mp updated
  have nodup := h.clients_nodup stored
  refine h.reseat stored rfl rfl rfl rfl nodup (fun c mem => Or.inl mem) ?_
  intro c
  by_cases inside : c ∈ room.clients
  · simp [Room.updated, inside, h.client_indexed stored inside]
  · simp [Room.updated, inside]

theorem serve_consistent (l : Lobby) (r : LobbyRequest) (h : l.Consistent) :
    (l.serve r).1.Consistent := by
  cases r with
  | create host id settings endpoint =>
    rcases l.serve_create_cases host id settings endpoint with refused | created
    · rw [refused]
      exact h
    · exact create_consistent h created
  | join caller request => exact join_consistent h caller request
  | leave c required => exact leave_consistent h c required
  | kick caller target => exact leave_consistent h target (some caller)
  | update caller change =>
    rcases l.serve_update_cases caller change with refused | updated
    · rw [refused]
      exact h
    · exact update_consistent h updated

theorem history_consistent (requests : List LobbyRequest) :
    (empty.serveAll requests).1.Consistent :=
  serveAll_invariant serve_consistent requests empty_consistent

/-! What holds of every single room -/

section
variable {P : Room → Prop}

theorem leave_every_room (h : l.Consistent)
    (fewer : ∀ (room : Room) (c : ConnectionId), P room →
      P { room with clients := room.clients.filter (· != c) })
    (all : ∀ (id : String) (room : Room), l.rooms[id]? = some room → P room) (c : ConnectionId)
    (required : Option ConnectionId) :
    ∀ (id : String) (room : Room), (l.leave c required).1.rooms[id]? = some room → P room := by
  have d := leave_departure h c required
  generalize l.leave c required = result at d
  cases d with
  | outside | denied => exact all
  | closed _ _ _ => exact fun id room found => all id room (found_erase_iff.mp found).2
  | @dropped id room stored client permission =>
    intro id' room' found
    rcases found_insert_iff.mp found with ⟨rfl, rfl⟩ | ⟨_, found⟩
    · exact fewer room c (all _ room stored)
    · exact all id' room' found

theorem enter_every_room
    (more : ∀ (room : Room) (c : ConnectionId), room.hasFreeSlot = true → P room →
      P { room with clients := room.clients ++ [c] })
    (all : ∀ (id : String) (room : Room), l.rooms[id]? = some room → P room) (c : ConnectionId)
    (req : JoinRequest) :
    ∀ (id : String) (room : Room), (l.enter c req).1.rooms[id]? = some room → P room := by
  have a := enter_admission l c req
  generalize l.enter c req = result at a
  cases a with
  | refused full => exact all
  | @admitted room stored free =>
    intro id' room' found
    rcases found_insert_iff.mp found with ⟨rfl, rfl⟩ | ⟨_, found⟩
    · exact more room c free (all _ room stored)
    · exact all id' room' found

/-- What holds of new rooms, and is kept while clients come and go and by the updates at hand,
    holds of every room. -/
theorem serve_every_room (h : l.Consistent) {r : LobbyRequest}
    (opened : ∀ (id : String) (host : ConnectionId) (s : RoomSettings)
      (endpoint : Option Net.SocketAddress), P (Room.opened id host s endpoint))
    (fewer : ∀ (room : Room) (c : ConnectionId), P room →
      P { room with clients := room.clients.filter (· != c) })
    (more : ∀ (room : Room) (c : ConnectionId), room.hasFreeSlot = true → P room →
      P { room with clients := room.clients ++ [c] })
    (updated : ∀ (caller : ConnectionId) (u : RoomUpdate) (room : Room), r = .update caller u →
      l.hostedBy? caller = some room → P room → P (room.updated u))
    (all : ∀ (id : String) (room : Room), l.rooms[id]? = some room → P room) :
    ∀ (id : String) (room : Room), (l.serve r).1.rooms[id]? = some room → P room := by
  cases r with
  | create host id settings endpoint =>
    rcases l.serve_create_cases host id settings endpoint with refused | created
    · rw [refused]
      exact all
    · rw [(create_ok_iff.mp created).2]
      intro id' room' found
      rcases found_insert_iff.mp found with ⟨rfl, rfl⟩ | ⟨_, found⟩
      · exact opened id' host settings endpoint
      · exact leave_every_room h fewer all host none id' room' found
  | join caller request =>
    exact enter_every_room more (leave_every_room h fewer all caller none) caller request
  | leave c required => exact leave_every_room h fewer all c required
  | kick caller target => exact leave_every_room h fewer all target (some caller)
  | update caller change =>
    rcases l.serve_update_cases caller change with refused | granted
    · rw [refused]
      exact all
    · obtain ⟨id, room, hosted, stored, same⟩ := update_ok_iff.mp granted
      rw [same]
      intro id' room' found
      rcases found_insert_iff.mp found with ⟨rfl, rfl⟩ | ⟨_, found⟩
      · have own : l.hostedBy? caller = some room := by
          rw [hostedBy?, hosted]
          exact stored
        exact updated caller change room rfl own (all _ room stored)
      · exact all id' room' found

end

def OneSeat (l : Lobby) : Prop :=
  ∀ (c : ConnectionId) (id id' : String) (room room' : Room),
    l.rooms[id]? = some room → l.rooms[id']? = some room' → room.Seats c → room'.Seats c →
      id = id' ∧ room.clients.count c = if room.host = c then 0 else 1

theorem Consistent.one_seat (h : l.Consistent) : l.OneSeat := by
  intro c id id' room room' stored stored' seat seat'
  refine ⟨h.seat_unique stored stored' seat seat', ?_⟩
  split
  · rename_i host
    exact List.count_eq_zero.mpr (host ▸ h.host_not_client stored)
  · rename_i other
    rw [(h.clients_nodup stored).count, if_pos (seat.resolve_left other)]

/-- After every history of requests the indexes tell the rooms and the rooms the indexes, and
    nobody has two seats. -/
theorem indexes_agree_with_rooms (requests : List LobbyRequest) :
    (empty.serveAll requests).1.Consistent ∧ (empty.serveAll requests).1.OneSeat :=
  ⟨history_consistent requests, (history_consistent requests).one_seat⟩

end Lobby

end PeerRelay
