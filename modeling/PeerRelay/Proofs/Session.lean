import PeerRelay.Proofs.Collections
import PeerRelay.Session

/-! Lookups in a table of sessions after each of its operations. -/
namespace PeerRelay.SessionTable
open Map

def Keyed (t : SessionTable) : Prop :=
  ∀ (id : ConnectionId) (s : Session), t.sessions[id]? = some s → s.id = id

def Has (t : SessionTable) (ok : Session → Prop) (c : ConnectionId) : Prop :=
  ∃ s, t.get? c = some s ∧ ok s

variable {t : SessionTable} {c id : ConnectionId} {ok : Session → Prop}

theorem isAuthenticated_iff : t.isAuthenticated c = true ↔ t.Has (·.isAuthenticated = true) c := by
  unfold isAuthenticated Has
  cases t.get? c with
  | none => simp
  | some s => simp

@[simp] theorem get?_connect (remote : Net.SocketAddress) :
    (t.connect id remote).get? c = if c = id then some ⟨id, .pending, remote⟩ else t.get? c :=
  lookup_insert ..

@[simp] theorem get?_disconnect : (t.disconnect id).get? c = if c = id then none else t.get? c :=
  lookup_erase ..

@[simp] theorem connect_disconnect (remote : Net.SocketAddress) :
    (t.disconnect id).connect id remote = t.connect id remote := by
  unfold connect disconnect
  rw [insert_erase]

theorem authenticate_ok_iff {key : String} {check : Authenticator} {result : SessionTable} :
    t.authenticate id key check = .ok result ↔
      ∃ s, t.get? id = some s ∧ s.isAuthenticated = false ∧ check key = none ∧
        result = ⟨t.sessions.insert id { s with state := .authenticated }⟩ := by
  unfold authenticate
  constructor
  · intro accepted
    split at accepted
    · cases accepted
    · rename_i s found
      split at accepted
      · cases accepted
      · rename_i pending
        split at accepted
        · cases accepted
        · rename_i right
          exact ⟨s, found, by simpa using pending, right, (Except.ok.inj accepted).symm⟩
  · rintro ⟨s, found, pending, right, rfl⟩
    simp [found, pending, right]

theorem empty_keyed : Keyed empty := by
  intro id s found
  simp [empty] at found

theorem Keyed.connect (h : t.Keyed) (id : ConnectionId) (remote : Net.SocketAddress) :
    (t.connect id remote).Keyed := by
  intro c s found
  rcases found_insert_iff.mp found with ⟨rfl, rfl⟩ | ⟨_, found⟩
  · rfl
  · exact h c s found

theorem Keyed.disconnect (h : t.Keyed) (id : ConnectionId) : (t.disconnect id).Keyed := by
  intro c s found
  exact h c s (found_erase_iff.mp found).2

theorem Keyed.authenticate (h : t.Keyed) {key : String} {check : Authenticator}
    {result : SessionTable} (accepted : t.authenticate id key check = .ok result) :
    result.Keyed := by
  obtain ⟨s, before, _, _, rfl⟩ := authenticate_ok_iff.mp accepted
  intro c other found
  rcases found_insert_iff.mp found with ⟨rfl, rfl⟩ | ⟨_, found⟩
  · exact h c s before
  · exact h c other found

theorem mem_authenticatedIds_iff (h : t.Keyed) :
    c ∈ t.authenticatedIds ↔ t.isAuthenticated c = true := by
  rw [isAuthenticated_iff]
  simp only [authenticatedIds, List.mem_mergeSort, List.mem_map, List.mem_filter, mem_values_iff]
  constructor
  · rintro ⟨s, ⟨⟨id, found⟩, known⟩, rfl⟩
    rw [h id s found]
    exact ⟨s, found, known⟩
  · rintro ⟨s, found, known⟩
    exact ⟨s, ⟨⟨c, found⟩, known⟩, h c s found⟩

theorem Has.disconnect (h : t.Has ok c) (other : c ≠ id) : (t.disconnect id).Has ok c := by
  obtain ⟨s, found, good⟩ := h
  exact ⟨s, by rw [get?_disconnect, if_neg other, found], good⟩

theorem Has.connect (h : t.Has ok c) (other : c ≠ id) (remote : Net.SocketAddress) :
    (t.connect id remote).Has ok c := by
  obtain ⟨s, found, good⟩ := h
  exact ⟨s, by rw [get?_connect, if_neg other, found], good⟩

theorem get?_authenticate {key : String} {check : Authenticator} {result : SessionTable}
    (accepted : t.authenticate id key check = .ok result) (other : c ≠ id) :
    result.get? c = t.get? c := by
  obtain ⟨s, _, _, _, rfl⟩ := authenticate_ok_iff.mp accepted
  simp [get?, Std.ExtTreeMap.getElem?_insert, other.symm]

theorem authenticate_has {key : String} {check : Authenticator} {result : SessionTable}
    (accepted : t.authenticate id key check = .ok result) :
    result.Has (·.isAuthenticated = true) id := by
  obtain ⟨s, _, _, _, rfl⟩ := authenticate_ok_iff.mp accepted
  exact ⟨_, Std.ExtTreeMap.getElem?_insert_self, rfl⟩

/-! Tables that differ in one session -/

theorem disconnect_absent (absent : t.get? id = none) : t.disconnect id = t := by
  unfold disconnect
  rw [erase_absent absent]

theorem eq_of_disconnect {u : SessionTable} (others : t.disconnect id = u.disconnect id)
    (own : t.get? id = u.get? id) : t = u := by
  have found : t.sessions = u.sessions := by
    apply Std.ExtTreeMap.ext_getElem?
    intro c
    by_cases same : c = id
    · rw [same]
      exact own
    · have rest := congrArg (fun v : SessionTable => v.get? c) others
      simp only [get?_disconnect, if_neg same] at rest
      exact rest
  cases t
  cases u
  exact congrArg SessionTable.mk found

theorem disconnect_disconnect : (t.disconnect id).disconnect id = t.disconnect id :=
  disconnect_absent Std.ExtTreeMap.getElem?_erase_self

@[simp] theorem disconnect_connect_self (remote : Net.SocketAddress) :
    (t.connect id remote).disconnect id = t.disconnect id := by
  unfold disconnect connect
  rw [erase_insert]

theorem disconnect_connect (other : id ≠ c) (remote : Net.SocketAddress) :
    (t.connect id remote).disconnect c = (t.disconnect c).connect id remote := by
  unfold disconnect connect
  rw [erase_insert_of_ne other]

theorem disconnect_comm (t : SessionTable) (c id : ConnectionId) :
    (t.disconnect id).disconnect c = (t.disconnect c).disconnect id := by
  unfold disconnect
  rw [erase_comm]

theorem isAuthenticated_disconnect (other : id ≠ c) :
    (t.disconnect c).isAuthenticated id = t.isAuthenticated id := by
  rw [isAuthenticated, isAuthenticated, get?_disconnect, if_neg other]

theorem authenticate_disconnect (other : id ≠ c) (key : String) (check : Authenticator) :
    (t.disconnect c).authenticate id key check =
      (t.authenticate id key check).map (·.disconnect c) := by
  unfold authenticate
  rw [get?_disconnect, if_neg other]
  cases t.get? id with
  | none => rfl
  | some s =>
    dsimp only
    split
    · rfl
    · cases check key with
      | some reason => rfl
      | none =>
        show Except.ok _ = Except.ok (disconnect _ c)
        rw [disconnect, disconnect, erase_insert_of_ne other]

theorem Keyed.ids_eq (h : t.Keyed) : t.sessions.values.map Session.id = t.sessions.keys := by
  rw [values_eq_map_toList, ← Std.ExtTreeMap.map_fst_toList_eq_keys, List.map_map]
  apply List.map_congr_left
  intro entry member
  exact h entry.1 entry.2 (Std.ExtTreeMap.mem_toList_iff_getElem?_eq_some.mp member)

theorem authenticatedIds_sorted (t : SessionTable) :
    t.authenticatedIds.Pairwise fun a b => (compare a b).isLE = true := by
  apply List.pairwise_mergeSort
  · exact fun a b c first second => Std.TransOrd.isLE_trans first second
  · intro a b
    have swapped : compare b a = (compare a b).swap := Std.OrientedOrd.eq_swap
    rw [swapped]
    cases compare a b <;> rfl

theorem authenticatedIds_nodup (h : t.Keyed) : t.authenticatedIds.Nodup := by
  have keys : (t.sessions.values.map Session.id).Nodup := h.ids_eq ▸ Std.ExtTreeMap.nodup_keys
  rw [authenticatedIds, (List.mergeSort_perm _ _).nodup_iff]
  exact keys.sublist (List.filter_sublist.map Session.id)

theorem authenticatedIds_disconnect (h : t.Keyed) (pending : t.isAuthenticated c = false) :
    (t.disconnect c).authenticatedIds = t.authenticatedIds := by
  have perm : (t.disconnect c).authenticatedIds.Perm t.authenticatedIds := by
    rw [List.perm_ext_iff_of_nodup (authenticatedIds_nodup (h.disconnect c))
      (authenticatedIds_nodup h)]
    intro id
    rw [mem_authenticatedIds_iff h, mem_authenticatedIds_iff (h.disconnect c)]
    by_cases same : id = c
    · subst same
      rw [pending]
      simp [isAuthenticated]
    · rw [isAuthenticated_disconnect same]
  refine List.Perm.eq_of_pairwise ?_ (authenticatedIds_sorted _) (authenticatedIds_sorted t) perm
  intro a b _ _ less greater
  exact Std.LawfulEqOrd.eq_of_compare (Std.OrientedCmp.isLE_antisymm less greater)

end PeerRelay.SessionTable
