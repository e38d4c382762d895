import Std.Data.ExtTreeMap

/-! What is found in a finite map after a change, as cases, and what its list of values holds; and
    histories that have grown by one item at their end, split at one of their items. -/
namespace PeerRelay.Map

variable {α β : Type} [Ord α] [Std.TransOrd α]

theorem found_unique {m : Std.ExtTreeMap α β} {a : α} {b c : β} (first : m[a]? = some b)
    (second : m[a]? = some c) : b = c :=
  Option.some.inj (first.symm.trans second)

theorem values_eq_map_toList (m : Std.ExtTreeMap α β) : m.values = m.toList.map Prod.snd := by
  have folded : m.values = m.foldr (fun _ v rest => v :: rest) [] := by
    cases m with
    | _ inner =>
      induction inner
      rfl
  rw [folded, Std.ExtTreeMap.foldr_eq_foldr_toList]
  induction m.toList with
  | nil => rfl
  | cons p rest ih => simp only [List.foldr_cons, List.map_cons, ih]

theorem toList_nodup (m : Std.ExtTreeMap α β) : m.toList.Nodup := by
  have keys : (m.toList.map Prod.fst).Nodup := by
    rw [Std.ExtTreeMap.map_fst_toList_eq_keys]
    exact Std.ExtTreeMap.nodup_keys
  exact List.Pairwise.of_map Prod.fst (fun _ _ other same => other (congrArg Prod.fst same)) keys

variable [Std.LawfulEqOrd α]

theorem lookup_insert [DecidableEq α] (m : Std.ExtTreeMap α β) (k a : α) (v : β) :
    (m.insert k v)[a]? = if a = k then some v else m[a]? := by
  rw [Std.ExtTreeMap.getElem?_insert]
  simp only [Std.LawfulEqCmp.compare_eq_iff_eq, eq_comm (a := k)]

theorem lookup_erase [DecidableEq α] (m : Std.ExtTreeMap α β) (k a : α) :
    (m.erase k)[a]? = if a = k then none else m[a]? := by
  rw [Std.ExtTreeMap.getElem?_erase]
  simp only [Std.LawfulEqCmp.compare_eq_iff_eq, eq_comm (a := k)]

theorem found_insert_iff {m : Std.ExtTreeMap α β} {k a : α} {v b : β} :
    (m.insert k v)[a]? = some b ↔ (a = k ∧ b = v) ∨ (a ≠ k ∧ m[a]? = some b) := by
  rw [Std.ExtTreeMap.getElem?_insert]
  by_cases same : a = k
  · subst same
    simp [eq_comm]
  · simp [same, Ne.symm same]

theorem found_erase_iff {m : Std.ExtTreeMap α β} {k a : α} {b : β} :
    (m.erase k)[a]? = some b ↔ a ≠ k ∧ m[a]? = some b := by
  rw [Std.ExtTreeMap.getElem?_erase]
  by_cases same : a = k
  · subst same
    simp
  · simp [same, Ne.symm same]

theorem found_filter_iff {m : Std.ExtTreeMap α β} {keep : α → β → Bool} {a : α} {b : β} :
    (m.filter keep)[a]? = some b ↔ m[a]? = some b ∧ keep a b = true := by
  rw [Std.ExtTreeMap.getElem?_filter', Option.filter_eq_some_iff]

theorem erase_absent {m : Std.ExtTreeMap α β} {k : α} (absent : m[k]? = none) : m.erase k = m := by
  apply Std.ExtTreeMap.ext_getElem?
  intro a
  rw [Std.ExtTreeMap.getElem?_erase]
  by_cases same : k = a
  · subst same
    simp [absent]
  · simp [same]

@[simp] theorem insert_insert {m : Std.ExtTreeMap α β} {k : α} {v w : β} :
    (m.insert k v).insert k w = m.insert k w := by
  apply Std.ExtTreeMap.ext_getElem?
  intro a
  simp only [Std.ExtTreeMap.getElem?_insert]
  by_cases same : k = a
  · simp [same]
  · simp [same]

@[simp] theorem insert_erase {m : Std.ExtTreeMap α β} {k : α} {v : β} :
    (m.erase k).insert k v = m.insert k v := by
  apply Std.ExtTreeMap.ext_getElem?
  intro a
  simp only [Std.ExtTreeMap.getElem?_insert, Std.ExtTreeMap.getElem?_erase]
  by_cases same : k = a
  · simp [same]
  · simp [same]

@[simp] theorem erase_insert {m : Std.ExtTreeMap α β} {k : α} {v : β} :
    (m.insert k v).erase k = m.erase k := by
  apply Std.ExtTreeMap.ext_getElem?
  intro a
  simp only [Std.ExtTreeMap.getElem?_insert, Std.ExtTreeMap.getElem?_erase]
  by_cases same : k = a
  · simp [same]
  · simp [same]

theorem erase_insert_of_ne {m : Std.ExtTreeMap α β} {k a : α} {v : β} (other : k ≠ a) :
    (m.insert k v).erase a = (m.erase a).insert k v := by
  apply Std.ExtTreeMap.ext_getElem?
  intro b
  simp only [Std.ExtTreeMap.getElem?_insert, Std.ExtTreeMap.getElem?_erase]
  by_cases same : k = b
  · simp [same, same ▸ other.symm]
  · simp [same]

theorem erase_comm (m : Std.ExtTreeMap α β) (k a : α) :
    (m.erase k).erase a = (m.erase a).erase k := by
  apply Std.ExtTreeMap.ext_getElem?
  intro b
  simp only [Std.ExtTreeMap.getElem?_erase]
  by_cases same : a = b
  · simp [same]
  · simp [same]

theorem insert_found {m : Std.ExtTreeMap α β} {k : α} {v : β} (found : m[k]? = some v) :
    m.insert k v = m := by
  apply Std.ExtTreeMap.ext_getElem?
  intro a
  rw [Std.ExtTreeMap.getElem?_insert]
  by_cases same : k = a
  · subst same
    simp [found]
  · simp [same]

@[simp] theorem alter_some {m : Std.ExtTreeMap α β} {k : α} {v : β} :
    m.alter k (fun _ => some v) = m.insert k v := by
  apply Std.ExtTreeMap.ext_getElem?
  intro a
  rw [Std.ExtTreeMap.getElem?_alter, Std.ExtTreeMap.getElem?_insert]

@[simp] theorem alter_none {m : Std.ExtTreeMap α β} {k : α} :
    m.alter k (fun _ => none) = m.erase k := by
  apply Std.ExtTreeMap.ext_getElem?
  intro a
  rw [Std.ExtTreeMap.getElem?_alter, Std.ExtTreeMap.getElem?_erase]

theorem alter_of_ne {m : Std.ExtTreeMap α β} {k a : α} (other : k ≠ a)
    (f : Option β → Option β) : (m.alter k f)[a]? = m[a]? := by
  simp [Std.ExtTreeMap.getElem?_alter, other]

theorem alter_comm {m : Std.ExtTreeMap α β} {k a : α} (other : k ≠ a) (f g : Option β → Option β) :
    (m.alter k f).alter a g = (m.alter a g).alter k f := by
  apply Std.ExtTreeMap.ext_getElem?
  intro b
  simp only [Std.ExtTreeMap.getElem?_alter]
  by_cases first : k = b
  · subst first
    simp [other.symm]
  · by_cases second : a = b <;> simp [first, second]

theorem mem_values_iff {m : Std.ExtTreeMap α β} {v : β} :
    v ∈ m.values ↔ ∃ k : α, m[k]? = some v := by
  rw [values_eq_map_toList, List.mem_map]
  constructor
  · rintro ⟨⟨k, w⟩, member, rfl⟩
    exact ⟨k, Std.ExtTreeMap.mem_toList_iff_getElem?_eq_some.mp member⟩
  · rintro ⟨k, found⟩
    exact ⟨(k, v), Std.ExtTreeMap.mem_toList_iff_getElem?_eq_some.mpr found, rfl⟩

end PeerRelay.Map

namespace PeerRelay

theorem concat_eq_split {α : Type} {past before later : List α} {last item : α} :
    past ++ [last] = before ++ item :: later ↔
      (past = before ∧ last = item ∧ later = []) ∨
        ∃ more, later = more ++ [last] ∧ past = before ++ item :: more := by
  constructor
  · intro same
    rcases List.eq_nil_or_concat later with rfl | ⟨more, final, rfl⟩
    · obtain ⟨earlier, ends⟩ := List.append_inj' same rfl
      exact Or.inl ⟨earlier, (List.cons.inj ends).1, rfl⟩
    · rw [List.concat_eq_append, ← List.cons_append, ← List.append_assoc] at same
      obtain ⟨earlier, ends⟩ := List.append_inj' same rfl
      obtain rfl := (List.cons.inj ends).1
      exact Or.inr ⟨more, List.concat_eq_append, earlier⟩
  · rintro (⟨rfl, rfl, rfl⟩ | ⟨more, rfl, rfl⟩)
    · rfl
    · rw [List.append_assoc, List.cons_append]

end PeerRelay
