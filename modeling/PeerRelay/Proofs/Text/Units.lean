import PeerRelay.Text

/-!
A text is found again from its code units: the units of a character are read as that character and
nothing of what follows them. Units that can be read are in turn found again from their text.
-/
namespace PeerRelay.Text

theorem toNat_unit (n : Nat) (small : n < 0x10000) : (UInt16.ofNat n).toNat = n := by
  simp only [UInt16.toNat_ofNat']
  omega

theorem high_iff (u : UInt16) :
    isHighSurrogate u = true ↔ 0xD800 ≤ u.toNat ∧ u.toNat ≤ 0xDBFF := by
  simp [isHighSurrogate, UInt16.le_iff_toNat_le]

theorem low_iff (u : UInt16) : isLowSurrogate u = true ↔ 0xDC00 ≤ u.toNat ∧ u.toNat ≤ 0xDFFF := by
  simp [isLowSurrogate, UInt16.le_iff_toNat_le]

theorem charsOfUnits?_single (u : UInt16) (rest : List UInt16)
    (no_high : ¬ isHighSurrogate u = true) (no_low : ¬ isLowSurrogate u = true) :
    charsOfUnits? (u :: rest) = (charsOfUnits? rest).map (Char.ofNat u.toNat :: ·) := by
  cases rest <;> simp [charsOfUnits?, no_high, no_low]

theorem charsOfUnits?_pair (u v : UInt16) (rest : List UInt16) (high : isHighSurrogate u = true)
    (low : isLowSurrogate v = true) :
    charsOfUnits? (u :: v :: rest) = (charsOfUnits? rest).map (pairChar u v :: ·) := by
  simp [charsOfUnits?, high, low]

theorem charsOfUnits?_append (c : Char) (rest : List UInt16) :
    charsOfUnits? (charUnits c ++ rest) = (charsOfUnits? rest).map (c :: ·) := by
  have range : c.toNat < 0xD800 ∨ 0xDFFF < c.toNat ∧ c.toNat < 0x110000 := c.valid
  unfold charUnits
  by_cases plane : c.toNat < 0x10000
  · have unit := toNat_unit c.toNat plane
    rw [if_pos plane, List.singleton_append, charsOfUnits?_single, unit, Char.ofNat_toNat]
    · rw [high_iff, unit]
      omega
    · rw [low_iff, unit]
      omega
  · have high := toNat_unit (0xD800 + (c.toNat - 0x10000) / 0x400) (by omega)
    have low := toNat_unit (0xDC00 + (c.toNat - 0x10000) % 0x400) (by omega)
    have whole : 0x10000 + 0x400 * (0xD800 + (c.toNat - 0x10000) / 0x400 - 0xD800) +
        (0xDC00 + (c.toNat - 0x10000) % 0x400 - 0xDC00) = c.toNat := by omega
    rw [if_neg plane, List.cons_append, List.singleton_append, charsOfUnits?_pair, pairChar, high,
      low, whole, Char.ofNat_toNat]
    · rw [high_iff, high]
      omega
    · rw [low_iff, low]
      omega

@[simp] theorem charsOfUnits?_flatMap (cs : List Char) :
    charsOfUnits? (cs.flatMap charUnits) = some cs := by
  induction cs with
  | nil => rfl
  | cons c rest ih => rw [List.flatMap_cons, charsOfUnits?_append, ih, Option.map_some]

@[simp] theorem ofUnits?_units (s : String) : ofUnits? (units s) = some s := by
  rw [ofUnits?, units, charsOfUnits?_flatMap, Option.map_some, String.ofList_toList]

/-! Back to the units -/

theorem toNat_char {n : Nat} (valid : n.isValidChar) : (Char.ofNat n).toNat = n := by
  unfold Char.ofNat
  rw [dif_pos valid]
  rfl

theorem charUnits_single {u : UInt16} (no_high : ¬ isHighSurrogate u = true)
    (no_low : ¬ isLowSurrogate u = true) : charUnits (Char.ofNat u.toNat) = [u] := by
  rw [high_iff] at no_high
  rw [low_iff] at no_low
  have bound := u.toNat_lt
  have valid : u.toNat.isValidChar := by
    unfold Nat.isValidChar
    omega
  rw [charUnits, toNat_char valid, if_pos (by omega), UInt16.ofNat_toNat]

theorem charUnits_pair {u v : UInt16} (high : isHighSurrogate u = true)
    (low : isLowSurrogate v = true) : charUnits (pairChar u v) = [u, v] := by
  rw [high_iff] at high
  rw [low_iff] at low
  have valid : (0x10000 + 0x400 * (u.toNat - 0xD800) + (v.toNat - 0xDC00)).isValidChar := by
    unfold Nat.isValidChar
    omega
  have first : 0xD800 + (0x10000 + 0x400 * (u.toNat - 0xD800) + (v.toNat - 0xDC00) - 0x10000) /
      0x400 = u.toNat := by omega
  have second : 0xDC00 + (0x10000 + 0x400 * (u.toNat - 0xD800) + (v.toNat - 0xDC00) - 0x10000) %
      0x400 = v.toNat := by omega
  rw [charUnits, pairChar, toNat_char valid, if_neg (by omega), first, second,
    UInt16.ofNat_toNat, UInt16.ofNat_toNat]

theorem flatMap_charsOfUnits? {us : List UInt16} {cs : List Char}
    (read : charsOfUnits? us = some cs) : cs.flatMap charUnits = us := by
  fun_induction charsOfUnits? us generalizing cs with
  | case1 =>
    cases read
    rfl
  | case2 u high => contradiction
  | case3 u high v rest low ih =>
    obtain ⟨others, later, shape⟩ := Option.map_eq_some_iff.mp read
    rw [← shape, List.flatMap_cons, charUnits_pair high low, ih later]
    rfl
  | case4 u high v rest no_low => contradiction
  | case5 u rest no_high low => contradiction
  | case6 u rest no_high no_low ih =>
    obtain ⟨others, later, shape⟩ := Option.map_eq_some_iff.mp read
    rw [← shape, List.flatMap_cons, charUnits_single no_high no_low, ih later]
    rfl

theorem units_ofUnits? {us : List UInt16} {s : String} (read : ofUnits? us = some s) :
    units s = us := by
  obtain ⟨cs, chars, shape⟩ := Option.map_eq_some_iff.mp read
  rw [← shape, units, String.toList_ofList, flatMap_charsOfUnits? chars]

end PeerRelay.Text
