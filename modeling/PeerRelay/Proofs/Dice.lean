import PeerRelay.Dice

/-!
Words drawn at random. What is drawn is free, and dice that come to a free word draw one, however
often they may be rolled beyond that.
-/
namespace PeerRelay.Dice

variable {word : Roll → String} {taken : String → Bool}

theorem drawFree_some {d later : Dice} {tries : Nat} {id : String}
    (drawn : d.drawFree word taken tries = (some id, later)) :
    taken id = false ∧ ∃ roll, word roll = id := by
  unfold drawFree at drawn
  split at drawn
  · rename_i k found
    obtain rfl := Option.some.inj (Prod.mk.inj drawn).1
    exact ⟨by simpa using List.find?_some found, _, rfl⟩
  · simp at drawn

theorem drawFree_loaded {roll : Roll} {tries : Nat} {found : Option String} {later : Dice}
    (drawn : (⟨fun _ => roll, 0⟩ : Dice).drawFree word taken (tries + 1) = (found, later))
    (free : taken (word roll) = false) : found = some (word roll) := by
  have first : (⟨fun _ => roll, 0⟩ : Dice).firstFree? word taken (tries + 1) = some 0 := by
    rw [firstFree?, List.range_succ_eq_map, List.find?_cons_of_pos]
    simp [Dice.roll, free]
  rw [drawFree, first] at drawn
  exact (Prod.mk.inj drawn).1.symm

/-- A free word among the rolls is enough: the first one is drawn, with any greater number of tries
    as well. -/
theorem drawFree_settled (d : Dice) {k : Nat} (free : taken (word (d.roll k)) = false) :
    ∃ id, taken id = false ∧ ∀ tries, k < tries → (d.drawFree word taken tries).1 = some id := by
  obtain ⟨first, earliest⟩ : ∃ first, d.firstFree? word taken (k + 1) = some first := by
    refine Option.isSome_iff_exists.mp (List.find?_isSome.mpr ⟨k, ?_, ?_⟩)
    · exact List.mem_range.mpr k.lt_succ_self
    · simp [free]
  obtain ⟨holds, early, before⟩ := List.find?_range_eq_some.mp earliest
  refine ⟨word (d.roll first), by simpa using holds, fun tries enough => ?_⟩
  have again : d.firstFree? word taken tries = some first := by
    refine List.find?_range_eq_some.mpr ⟨holds, List.mem_range.mpr ?_, before⟩
    have bound := List.mem_range.mp early
    omega
  rw [drawFree, again]

theorem drawFree_iff (d : Dice) {tries : Nat} {id : String} :
    (d.drawFree word taken tries).1 = some id ↔
      ∃ k < tries, word (d.roll k) = id ∧ taken id = false ∧
        ∀ j < k, taken (word (d.roll j)) = true := by
  have first (k : Nat) : d.firstFree? word taken tries = some k ↔
      k < tries ∧ taken (word (d.roll k)) = false ∧ ∀ j < k, taken (word (d.roll j)) = true := by
    rw [firstFree?, List.find?_range_eq_some]
    simp [and_left_comm]
  constructor
  · intro drawn
    unfold drawFree at drawn
    split at drawn
    · rename_i k found
      obtain rfl := Option.some.inj drawn
      obtain ⟨early, free, before⟩ := (first k).mp found
      exact ⟨k, early, rfl, free, before⟩
    · exact nomatch drawn
  · rintro ⟨k, early, rfl, free, before⟩
    rw [drawFree, (first k).mpr ⟨early, free, before⟩]

theorem drawFree_none (d : Dice) {tries : Nat} :
    (d.drawFree word taken tries).1 = none ↔ ∀ k < tries, taken (word (d.roll k)) = true := by
  have none_free : d.firstFree? word taken tries = none ↔
      ∀ k < tries, taken (word (d.roll k)) = true := by
    simp [firstFree?]
  rw [← none_free]
  unfold drawFree
  split
  · rename_i k found
    simp [found]
  · rename_i absent
    simp [absent]

end PeerRelay.Dice
