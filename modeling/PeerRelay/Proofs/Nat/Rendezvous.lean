import PeerRelay.Nat.Rendezvous
import PeerRelay.Proofs.Nat.Pairing

/-!
Whom a rendezvous knows: those that hold a token and those that were seen. Only an issue makes
somebody known, and a connection that is forgotten is not known.
-/
namespace PeerRelay.Rendezvous
open Map Pairing

def Knows (r : Rendezvous) (c : ConnectionId) : Prop :=
  (∃ token, r.pending.right? c = some token) ∨ ∃ endpoint, r.endpoint? c = some endpoint

variable {r : Rendezvous} {c x : ConnectionId}

theorem new_not_knows {port : UInt16} : ¬ (new port).Knows c := by
  rintro (⟨token, pending⟩ | ⟨endpoint, seen⟩)
  · simp [new, Pairing.empty, Pairing.right?] at pending
  · simp [new, endpoint?] at seen

@[simp] theorem resolve_fst (token : String) (source : Net.SocketAddress) :
    (r.resolve token source).1 = r.pending.left? token := by
  rw [← removeRight_fst]
  unfold resolve
  split <;> rename_i outcome <;> rw [outcome]

theorem issue_matched (h : r.pending.Matched) (c : ConnectionId) (tries : Nat) (dice : Dice) :
    (r.issue c tries dice).2.1.pending.Matched := by
  unfold issue
  split
  · exact h.insert c _
  · exact h

theorem issue_knows (h : r.pending.Matched) {tries : Nat} {dice : Dice}
    (known : (r.issue c tries dice).2.1.Knows x) : x = c ∨ r.Knows x := by
  unfold issue at known
  split at known
  · rcases known with ⟨held, pending⟩ | seen
    · rcases h.right?_insert.mp pending with ⟨same, _⟩ | ⟨_, _, before⟩
      · exact Or.inl same
      · exact Or.inr (Or.inl ⟨held, before⟩)
    · exact Or.inr (Or.inr seen)
  · exact Or.inr known

theorem resolve_matched (h : r.pending.Matched) (token : String) (source : Net.SocketAddress) :
    (r.resolve token source).2.pending.Matched := by
  have removed := h.removeRight token
  unfold resolve
  split <;> rename_i outcome
  · exact h
  · rw [outcome] at removed
    exact removed

theorem resolve_knows (h : r.pending.Matched) {token : String} {source : Net.SocketAddress}
    (known : (r.resolve token source).2.Knows x) : r.Knows x := by
  have holder : (r.pending.removeRight token).1 = r.pending.left? token := removeRight_fst
  have kept : ∀ {held : String}, (r.pending.removeRight token).2.right? x = some held →
      r.pending.right? x = some held := fun found => (h.right?_removeRight.mp found).2
  unfold resolve at known
  split at known <;> rename_i outcome
  · exact known
  · rw [outcome] at holder kept
    rcases known with ⟨held, pending⟩ | ⟨endpoint, seen⟩
    · exact Or.inl ⟨held, kept pending⟩
    · rcases found_insert_iff.mp seen with ⟨rfl, _⟩ | ⟨_, before⟩
      · exact Or.inl ⟨token, (h x token).mpr holder.symm⟩
      · exact Or.inr ⟨endpoint, before⟩

theorem receive_matched (h : r.pending.Matched) (datagram : Wire.Bytes)
    (source : Net.SocketAddress) : (r.receive datagram source).2.pending.Matched := by
  unfold receive
  split
  · exact h
  · exact h
  · exact resolve_matched h _ source

theorem receive_knows (h : r.pending.Matched) {datagram : Wire.Bytes}
    {source : Net.SocketAddress} (known : (r.receive datagram source).2.Knows x) :
    r.Knows x := by
  unfold receive at known
  split at known
  · exact known
  · exact known
  · exact resolve_knows h known

theorem forget_knows : (r.forget c).Knows x ↔ x ≠ c ∧ r.Knows x := by
  constructor
  · rintro (⟨token, pending⟩ | ⟨endpoint, seen⟩)
    · obtain ⟨other, before⟩ := right?_removeLeft.mp pending
      exact ⟨other, Or.inl ⟨token, before⟩⟩
    · obtain ⟨other, before⟩ := found_erase_iff.mp seen
      exact ⟨other, Or.inr ⟨endpoint, before⟩⟩
  · rintro ⟨other, ⟨token, pending⟩ | ⟨endpoint, seen⟩⟩
    · exact Or.inl ⟨token, right?_removeLeft.mpr ⟨other, pending⟩⟩
    · exact Or.inr ⟨endpoint, found_erase_iff.mpr ⟨other, seen⟩⟩

theorem forget_resolve (h : r.pending.Matched) {token : String} {source : Net.SocketAddress} :
    ((r.forget c).resolve token source).1 = some x ↔
      x ≠ c ∧ (r.resolve token source).1 = some x := by
  rw [resolve_fst, resolve_fst]
  exact h.left?_removeLeft

theorem forget_endpoint? : (r.forget c).endpoint? x = if x = c then none else r.endpoint? x :=
  Map.lookup_erase ..

theorem forget_eq_iff : r.forget c = r ↔ ¬ r.Knows c := by
  constructor
  · intro same known
    rw [← same] at known
    exact (forget_knows.mp known).1 rfl
  · intro unknown
    have nothing_pending : r.pending.right? c = none :=
      Option.eq_none_iff_forall_ne_some.mpr fun token pending => unknown (Or.inl ⟨token, pending⟩)
    have nothing_seen : r.endpoints[c]? = none :=
      Option.eq_none_iff_forall_ne_some.mpr fun endpoint seen => unknown (Or.inr ⟨endpoint, seen⟩)
    rw [forget, removeLeft, nothing_pending, erase_absent nothing_seen]

end PeerRelay.Rendezvous
