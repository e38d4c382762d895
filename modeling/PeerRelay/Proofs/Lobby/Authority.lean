import PeerRelay.Proofs.Lobby.Announcements

/-!
Who can take whom out of a room. A departure that a host is required for is the departure itself if
that host has the room, and nothing otherwise. So a host can evict its clients and close its room,
and nobody can do anything to a room of somebody else.
-/
namespace PeerRelay.Lobby
open Map

/-- The caller hosts a room that seats the target, who is one of the clients or the caller. -/
def MayEvict (l : Lobby) (caller target : ConnectionId) : Prop :=
  ∃ (id : String) (room : Room), l.rooms[id]? = some room ∧ room.host = caller ∧ room.Seats target

variable {l : Lobby} {c caller target : ConnectionId} {id : String} {room : Room}

theorem permits_iff : permits (some caller) c = true ↔ caller = c := by
  simp [permits]

/-- All that a departure asks of the required host is whether it has the room. -/
theorem leave_seat (h : l.Consistent) (stored : l.rooms[id]? = some room) (seat : room.Seats c)
    (required : Option ConnectionId) :
    l.leave c required = if permits required room.host then l.leave c none else (l, {}) := by
  have found : l.get? id = some room := stored
  have unlimited : permits none room.host = true := rfl
  rcases seat with rfl | client
  · simp only [leave, h.host_indexed stored, unlimited, if_true]
  · simp only [leave, h.client_hosts_none stored client, h.client_indexed stored client, found,
      unlimited, if_true]

theorem leave_same_host (h : l.Consistent) (required : Option ConnectionId)
    (kept : (l.leave c required).1.rooms[id]? = some room) :
    ∃ before : Room, l.rooms[id]? = some before ∧ before.host = room.host := by
  cases stored : l.rooms[id]? with
  | none =>
    rw [leave_free h stored c required] at kept
    contradiction
  | some before =>
    exact ⟨before, rfl, (departure_dropped (leave_departure h c required) stored kept).1.symm⟩

theorem kick_allowed (h : l.Consistent) (may : l.MayEvict caller target) :
    l.kick caller target = l.leave target none := by
  obtain ⟨id, room, stored, host, seat⟩ := may
  rw [kick, leave_seat h stored seat, if_pos (permits_iff.mpr host.symm)]

theorem kick_refused (h : l.Consistent) (not_own : ¬ l.MayEvict caller target) :
    l.kick caller target = (l, {}) := by
  by_cases seated : l.Seated target
  · obtain ⟨id, room, stored, seat⟩ := seated
    rw [kick, leave_seat h stored seat, if_neg]
    intro permission
    exact not_own ⟨id, room, stored, (permits_iff.mp permission).symm, seat⟩
  · exact leave_outsider h seated (some caller)

theorem kick_elsewhere (h : l.Consistent) (foreign : room.host ≠ caller) :
    (l.kick caller target).1.rooms[id]? = some room ↔ l.rooms[id]? = some room := by
  by_cases may : l.MayEvict caller target
  · obtain ⟨own, evicting, stored, host, seat⟩ := may
    by_cases same : id = own
    · -- the room of the caller is that of another host neither before nor after
      subst same
      constructor
      · intro kept
        obtain ⟨before, found, same_host⟩ := leave_same_host h (some caller) kept
        obtain rfl := found_unique stored found
        exact (foreign (same_host.symm.trans host)).elim
      · intro found
        obtain rfl := found_unique stored found
        exact (foreign host).elim
    · rw [kick, leave_elsewhere h (some caller)]
      exact fun other found seated => same (h.seat_unique found stored seated seat)
  · rw [kick_refused h may]

/-- After every history, a kick is the departure of its target if the caller hosts the room that
    the target is in, be it the caller itself. Any other kick changes nothing and tells nobody, and
    no kick touches a room of another host. -/
theorem kicks_confined_to_own_room (requests : List LobbyRequest) (caller target : ConnectionId) :
    let l := (empty.serveAll requests).1
    (l.MayEvict caller target → l.kick caller target = l.leave target none) ∧
      (¬ l.MayEvict caller target → l.kick caller target = (l, {})) ∧
      ∀ (id : String) (room : Room), room.host ≠ caller →
        ((l.kick caller target).1.rooms[id]? = some room ↔ l.rooms[id]? = some room) := by
  have h := history_consistent requests
  exact ⟨kick_allowed h, kick_refused h, fun id room foreign => kick_elsewhere h foreign⟩

end PeerRelay.Lobby
