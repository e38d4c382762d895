import PeerRelay.Proofs.Lobby.Operations

/-!
Who has a seat after a request, and who is told about it. Only the one who asks can gain a seat,
and frames go to nobody but to that one and to those who had a seat before.
-/
namespace PeerRelay

namespace Lobby
open Map

def Seated (l : Lobby) (c : ConnectionId) : Prop :=
  ∃ (id : String) (room : Room), l.rooms[id]? = some room ∧ room.Seats c

variable {l : Lobby} {c x : ConnectionId}

theorem empty_not_seated : ¬ empty.Seated c := by
  rintro ⟨id, room, stored, _⟩
  simp [empty] at stored

theorem Consistent.seated_iff (h : l.Consistent) :
    l.Seated c ↔ l.hosts[c]? ≠ none ∨ l.members[c]? ≠ none := by
  simp only [Option.ne_none_iff_exists', h.hosts_iff, h.members_iff]
  constructor
  · rintro ⟨id, room, stored, host | client⟩
    · exact Or.inl ⟨id, room, stored, host⟩
    · exact Or.inr ⟨id, room, stored, client⟩
  · rintro (⟨id, room, stored, host⟩ | ⟨id, room, stored, client⟩)
    · exact ⟨id, room, stored, Or.inl host⟩
    · exact ⟨id, room, stored, Or.inr client⟩

theorem leave_not_seated (h : l.Consistent) (c : ConnectionId) : ¬ (l.leave c none).1.Seated c := by
  rw [(leave_consistent h c none).seated_iff]
  simp [leave_absent h c]

theorem leave_outsider (h : l.Consistent) (outside : ¬ l.Seated c)
    (required : Option ConnectionId) : l.leave c required = (l, {}) := by
  rw [h.seated_iff] at outside
  simp only [not_or, ne_eq, Classical.not_not] at outside
  rw [leave, outside.1, outside.2]

theorem leave_elsewhere (h : l.Consistent) {id : String} (required : Option ConnectionId)
    (away : ∀ room : Room, l.rooms[id]? = some room → ¬ room.Seats c) :
    (l.leave c required).1.rooms[id]? = l.rooms[id]? := by
  have d := leave_departure h c required
  generalize l.leave c required = result at d
  cases d with
  | outside | denied => rfl
  | @closed other room stored host permission =>
    have apart : other ≠ id := by
      rintro rfl
      exact away room stored (Or.inl host)
    simp [Std.ExtTreeMap.getElem?_erase, apart]
  | @dropped other room stored client permission =>
    have apart : other ≠ id := by
      rintro rfl
      exact away room stored (Or.inr client)
    simp [dropClient, Std.ExtTreeMap.getElem?_insert, apart]

theorem leave_seated (h : l.Consistent) {required : Option ConnectionId}
    (seated : (l.leave c required).1.Seated x) : l.Seated x := by
  have d := leave_departure h c required
  generalize l.leave c required = result at d seated
  cases d with
  | outside | denied => exact seated
  | closed stored host permission =>
    obtain ⟨id', room', found, seat⟩ := seated
    exact ⟨id', room', (found_erase_iff.mp found).2, seat⟩
  | @dropped id room stored client permission =>
    obtain ⟨id', room', found, seat⟩ := seated
    rcases found_insert_iff.mp found with ⟨rfl, rfl⟩ | ⟨_, found⟩
    · exact ⟨id', room, stored, seat.imp_right fun mem => (List.mem_filter.mp mem).1⟩
    · exact ⟨id', room', found, seat⟩

theorem leave_recipient (h : l.Consistent) {required : Option ConnectionId} {o : Outbound}
    (sent : o ∈ (l.leave c required).2.outbound) : l.Seated o.recipient ∧ o.recipient ≠ c := by
  have d := leave_departure h c required
  generalize l.leave c required = result at d sent
  cases d with
  | outside | denied => simp at sent
  | @closed id room stored host permission =>
    obtain ⟨client, mem, rfl⟩ := List.mem_map.mp sent
    refine ⟨⟨id, room, stored, Or.inr mem⟩, ?_⟩
    rintro rfl
    exact h.host_not_client stored (host ▸ mem)
  | @dropped id room stored client permission =>
    obtain rfl := List.mem_singleton.mp sent
    refine ⟨⟨id, room, stored, Or.inl rfl⟩, ?_⟩
    intro (same : room.host = c)
    exact h.host_not_client stored (same ▸ client)

theorem enter_seated {req : JoinRequest} (seated : (l.enter c req).1.Seated x) :
    l.Seated x ∨ x = c := by
  have a := enter_admission l c req
  generalize l.enter c req = result at a seated
  cases a with
  | refused full => exact Or.inl seated
  | @admitted room stored free =>
    obtain ⟨id', room', found, seat⟩ := seated
    rcases found_insert_iff.mp found with ⟨rfl, rfl⟩ | ⟨_, found⟩
    · rcases seat with host | client
      · exact Or.inl ⟨_, room, stored, Or.inl host⟩
      · rcases List.mem_append.mp client with old | new
        · exact Or.inl ⟨_, room, stored, Or.inr old⟩
        · exact Or.inr (List.mem_singleton.mp new)
    · exact Or.inl ⟨id', room', found, seat⟩

theorem introductions_recipient {room : Room} {req : JoinRequest} {o : Outbound}
    (sent : o ∈ introductions room c req) : o.recipient = c ∨ o.recipient = room.host := by
  unfold introductions at sent
  split at sent
  · simp only [List.mem_cons, List.not_mem_nil, or_false] at sent
    rcases sent with rfl | rfl
    · exact Or.inl rfl
    · exact Or.inr rfl
  · rcases List.mem_cons.mp sent with rfl | sent
    · exact Or.inl rfl
    · split at sent
      · obtain rfl := List.mem_singleton.mp sent
        exact Or.inr rfl
      · simp at sent

theorem enter_recipient {req : JoinRequest} {o : Outbound}
    (sent : o ∈ (l.enter c req).2.outbound) : l.Seated o.recipient ∨ o.recipient = c := by
  have a := enter_admission l c req
  generalize l.enter c req = result at a sent
  cases a with
  | refused full =>
    obtain rfl := List.mem_singleton.mp sent
    exact Or.inr rfl
  | @admitted room stored free =>
    rcases introductions_recipient sent with caller | host
    · exact Or.inr caller
    · exact Or.inl ⟨req.room, room, stored, Or.inl host.symm⟩

theorem open_seated {host : ConnectionId} {id : String} {s : RoomSettings}
    {endpoint : Option Net.SocketAddress}
    (seated : Seated { l with
      rooms := l.rooms.insert id (Room.opened id host s endpoint)
      hosts := l.hosts.insert host id } x) : l.Seated x ∨ x = host := by
  obtain ⟨id', room', found, seat⟩ := seated
  rcases found_insert_iff.mp found with ⟨rfl, rfl⟩ | ⟨_, found⟩
  · rcases seat with same | client
    · exact Or.inr same.symm
    · simp [Room.opened] at client
  · exact Or.inl ⟨id', room', found, seat⟩

theorem serve_seated (h : l.Consistent) {r : LobbyRequest} (seated : (l.serve r).1.Seated x) :
    l.Seated x ∨ x = r.actor := by
  cases r with
  | create host id settings endpoint =>
    rcases l.serve_create_cases host id settings endpoint with refused | created
    · rw [refused] at seated
      exact Or.inl seated
    · rw [(create_ok_iff.mp created).2] at seated
      exact (open_seated seated).imp_left (leave_seated h)
  | join caller request =>
    rcases enter_seated seated with stayed | same
    · exact Or.inl (leave_seated h stayed)
    · exact Or.inr same
  | leave c required => exact Or.inl (leave_seated h seated)
  | kick caller target => exact Or.inl (leave_seated h seated)
  | update caller change =>
    rcases l.serve_update_cases caller change with refused | updated
    · rw [refused] at seated
      exact Or.inl seated
    · obtain ⟨id, room, _, stored, same⟩ := update_ok_iff.mp updated
      rw [same] at seated
      obtain ⟨id', room', found, seat⟩ := seated
      rcases found_insert_iff.mp found with ⟨rfl, rfl⟩ | ⟨_, found⟩
      · exact Or.inl ⟨_, room, stored, seat⟩
      · exact Or.inl ⟨id', room', found, seat⟩

theorem serve_recipient (h : l.Consistent) {r : LobbyRequest} {o : Outbound}
    (sent : o ∈ (l.serve r).2.outbound) : l.Seated o.recipient ∨ o.recipient = r.actor := by
  cases r with
  | create host id settings endpoint =>
    rcases l.serve_create_cases host id settings endpoint with refused | created
    · simp [refused] at sent
    · rw [(create_ok_iff.mp created).2] at sent
      rcases List.mem_append.mp sent with farewell | news
      · exact Or.inl (leave_recipient h farewell).1
      · obtain rfl := List.mem_singleton.mp news
        exact Or.inr rfl
  | join caller request =>
    rcases List.mem_append.mp sent with farewell | news
    · exact Or.inl (leave_recipient h farewell).1
    · rcases enter_recipient news with stayed | same
      · exact Or.inl (leave_seated h stayed)
      · exact Or.inr same
  | leave c required => exact Or.inl (leave_recipient h sent).1
  | kick caller target => exact Or.inl (leave_recipient h sent).1
  | update caller change =>
    rcases l.serve_update_cases caller change with refused | updated
    · simp [refused] at sent
    · obtain ⟨id, room, _, _, same⟩ := update_ok_iff.mp updated
      simp [same] at sent

theorem route_recipient {payload : Wire.Bytes} {target : ConnectionId} {o : Outbound}
    (routed : l.route c payload target = .ok o) : l.Seated o.recipient := by
  unfold route at routed
  split at routed
  · rename_i room hosted
    obtain ⟨id, _, stored⟩ := Option.bind_eq_some_iff.mp hosted
    split at routed
    · rename_i client
      obtain rfl := Except.ok.inj routed
      exact ⟨id, room, stored, Or.inr (List.contains_iff_mem.mp client)⟩
    · cases routed
  · split at routed
    · rename_i room joined
      obtain ⟨id, _, stored⟩ := Option.bind_eq_some_iff.mp joined
      obtain rfl := Except.ok.inj routed
      exact ⟨id, room, stored, Or.inl rfl⟩
    · cases routed

end Lobby

end PeerRelay
