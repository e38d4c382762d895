import PeerRelay.Nat.Pairing
import PeerRelay.Proofs.Collections

/-!
The two sides of a pairing tell the same pairs, and every operation keeps it so. What is paired
after an operation is then told by the left side alone.
-/
namespace PeerRelay

inductive PairingCall (α β : Type) where
  | insert (a : α) (b : β)
  | removeLeft (a : α)
  | removeRight (b : β)

namespace Pairing
open Map

variable {α β : Type} [Ord α] [Std.TransOrd α] [Ord β] [Std.TransOrd β]

def Matched (p : Pairing α β) : Prop :=
  ∀ (a : α) (b : β), p.right? a = some b ↔ p.left? b = some a

variable {p : Pairing α β} {a x : α} {b y : β}

theorem empty_matched : (empty : Pairing α β).Matched := by
  intro a b
  simp [empty, right?, left?]

theorem removeLeft_fst : (p.removeLeft a).1 = p.right? a := by
  unfold removeLeft
  split <;> rename_i outcome <;> exact outcome.symm

theorem removeRight_fst : (p.removeRight b).1 = p.left? b := by
  unfold removeRight
  split <;> rename_i outcome <;> exact outcome.symm

variable [Std.LawfulEqOrd α]

theorem right?_removeLeft :
    (p.removeLeft a).2.right? x = some y ↔ x ≠ a ∧ p.right? x = some y := by
  unfold removeLeft
  split
  · rename_i unpaired
    constructor
    · intro found
      refine ⟨?_, found⟩
      rintro rfl
      rw [unpaired] at found
      contradiction
    · exact And.right
  · exact found_erase_iff

theorem Matched.right?_removeRight (h : p.Matched) :
    (p.removeRight b).2.right? x = some y ↔ y ≠ b ∧ p.right? x = some y := by
  unfold Pairing.removeRight
  split
  · rename_i unpaired
    constructor
    · intro found
      refine ⟨?_, found⟩
      rintro rfl
      rw [(h x y).mp found] at unpaired
      contradiction
    · exact And.right
  · rename_i a pair
    refine found_erase_iff.trans (and_congr_left fun found => not_congr ?_)
    constructor
    · rintro rfl
      exact found_unique found ((h x b).mpr pair)
    · rintro rfl
      exact found_unique ((h x y).mp found) pair

variable [Std.LawfulEqOrd β]

theorem Matched.erase (h : p.Matched) (pair : p.right? a = some b) :
    (⟨p.byLeft.erase a, p.byRight.erase b⟩ : Pairing α β).Matched := by
  intro x y
  refine found_erase_iff.trans (Iff.trans ?_ found_erase_iff.symm)
  constructor
  · rintro ⟨other, found⟩
    refine ⟨?_, (h x y).mp found⟩
    rintro rfl
    exact other (found_unique ((h x y).mp found) ((h a y).mp pair))
  · rintro ⟨other, found⟩
    refine ⟨?_, (h x y).mpr found⟩
    rintro rfl
    exact other (found_unique ((h x y).mpr found) pair)

theorem Matched.removeLeft (h : p.Matched) (a : α) : (p.removeLeft a).2.Matched := by
  unfold Pairing.removeLeft
  split
  · exact h
  · rename_i b pair
    exact h.erase pair

theorem Matched.removeRight (h : p.Matched) (b : β) : (p.removeRight b).2.Matched := by
  unfold Pairing.removeRight
  split
  · exact h
  · rename_i a pair
    exact h.erase ((h a b).mpr pair)

theorem Matched.left?_removeLeft (h : p.Matched) :
    (p.removeLeft a).2.left? y = some x ↔ x ≠ a ∧ p.left? y = some x := by
  rw [← h.removeLeft a, right?_removeLeft, h]

/-- A new pair takes the place of every earlier pair of its two values. -/
theorem Matched.right?_insert (h : p.Matched) :
    (p.insert a b).right? x = some y ↔
      (x = a ∧ y = b) ∨ (x ≠ a ∧ y ≠ b ∧ p.right? x = some y) := by
  refine found_insert_iff.trans (or_congr Iff.rfl (and_congr_right fun other => ?_))
  refine (h.removeLeft a).right?_removeRight.trans (and_congr_right fun _ => ?_)
  exact right?_removeLeft.trans (and_iff_right other)

theorem Matched.insert (h : p.Matched) (a : α) (b : β) : (p.insert a b).Matched := by
  have cleared := (h.removeLeft a).removeRight b
  have apart : ∀ x y, ((p.removeLeft a).2.removeRight b).2.right? x = some y → x ≠ a ∧ y ≠ b := by
    intro x y found
    obtain ⟨right, found⟩ := (h.removeLeft a).right?_removeRight.mp found
    exact ⟨(right?_removeLeft.mp found).1, right⟩
  intro x y
  refine found_insert_iff.trans (Iff.trans ?_ found_insert_iff.symm)
  constructor
  · rintro (⟨rfl, rfl⟩ | ⟨_, found⟩)
    · exact Or.inl ⟨rfl, rfl⟩
    · exact Or.inr ⟨(apart x y found).2, (cleared x y).mp found⟩
  · rintro (⟨rfl, rfl⟩ | ⟨_, found⟩)
    · exact Or.inl ⟨rfl, rfl⟩
    · have paired := (cleared x y).mpr found
      exact Or.inr ⟨(apart x y paired).1, paired⟩

/-- Turned around, the pairs of one side are the pairs of the other one. -/
theorem Matched.swapped_perm (h : p.Matched) :
    (p.byLeft.toList.map Prod.swap).Perm p.byRight.toList := by
  have swapped : (p.byLeft.toList.map Prod.swap).Nodup :=
    List.Pairwise.map _ (fun _ _ other same => other (Prod.swap_inj.mp same))
      (toList_nodup p.byLeft)
  refine (List.perm_ext_iff_of_nodup swapped (toList_nodup p.byRight)).mpr ?_
  rintro ⟨b, a⟩
  rw [List.mem_map, Std.ExtTreeMap.mem_toList_iff_getElem?_eq_some]
  constructor
  · rintro ⟨⟨x, y⟩, member, same⟩
    cases same
    exact (h _ _).mp (Std.ExtTreeMap.mem_toList_iff_getElem?_eq_some.mp member)
  · intro found
    exact ⟨(a, b), Std.ExtTreeMap.mem_toList_iff_getElem?_eq_some.mpr ((h a b).mpr found), rfl⟩

theorem Matched.size_byRight (h : p.Matched) : p.byRight.size = p.size := by
  rw [size, ← Std.ExtTreeMap.length_toList, ← Std.ExtTreeMap.length_toList,
    ← h.swapped_perm.length_eq, List.length_map]

/-! Courses of calls -/

def call (p : Pairing α β) : PairingCall α β → Pairing α β
  | .insert a b => p.insert a b
  | .removeLeft a => (p.removeLeft a).2
  | .removeRight b => (p.removeRight b).2

def after (p : Pairing α β) (calls : List (PairingCall α β)) : Pairing α β := calls.foldl call p

theorem Matched.call (h : p.Matched) (one : PairingCall α β) : (p.call one).Matched := by
  cases one with
  | insert a b => exact h.insert a b
  | removeLeft a => exact h.removeLeft a
  | removeRight b => exact h.removeRight b

theorem Matched.after (h : p.Matched) (calls : List (PairingCall α β)) :
    (p.after calls).Matched := by
  induction calls generalizing p with
  | nil => exact h
  | cons one rest ih => exact ih (h.call one)

/-- After any course of calls, two values are paired on one side exactly if they are on the other
    one, and each side has as many entries as there are pairs. A new pair takes the place of all
    earlier pairs of its two values and of no others. Removing a value gives its partner, if it has
    one, and takes that pair alone away. -/
theorem pairs_one_to_one (calls : List (PairingCall α β)) :
    let p := (empty : Pairing α β).after calls
    (∀ a b, p.right? a = some b ↔ p.left? b = some a) ∧
      p.byLeft.size = p.size ∧ p.byRight.size = p.size ∧
      (∀ a b x y, (p.insert a b).right? x = some y ↔
        (x = a ∧ y = b) ∨ (x ≠ a ∧ y ≠ b ∧ p.right? x = some y)) ∧
      (∀ a, (p.removeLeft a).1 = p.right? a ∧
        ∀ x y, (p.removeLeft a).2.right? x = some y ↔ x ≠ a ∧ p.right? x = some y) ∧
      ∀ b, (p.removeRight b).1 = p.left? b ∧
        ∀ x y, (p.removeRight b).2.right? x = some y ↔ y ≠ b ∧ p.right? x = some y := by
  intro p
  have h : p.Matched := empty_matched.after calls
  refine ⟨h, rfl, h.size_byRight, ?_, ?_, ?_⟩
  · exact fun a b x y => h.right?_insert
  · exact fun a => ⟨removeLeft_fst, fun x y => right?_removeLeft⟩
  · exact fun b => ⟨removeRight_fst, fun x y => h.right?_removeRight⟩

/-- A pair that crosses two others replaces both, and the other two values are free again. -/
theorem crossing_pair_one_to_one :
    let p := (empty : Pairing Nat Nat).after [.insert 1 10, .insert 2 20, .insert 1 20]
    p.right? 1 = some 20 ∧ p.left? 20 = some 1 ∧ p.right? 2 = none ∧ p.left? 10 = none ∧
      p.byRight.size = 1 := by
  intro p
  obtain ⟨sides, _, size, _⟩ :=
    pairs_one_to_one ([.insert 1 10, .insert 2 20, .insert 1 20] : List (PairingCall Nat Nat))
  have paired : p.right? 1 = some 20 := by decide +kernel
  refine ⟨paired, (sides 1 20).mp paired, by decide +kernel, by decide +kernel, ?_⟩
  exact size.trans (by decide +kernel)

end Pairing

end PeerRelay
