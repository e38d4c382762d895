import PeerRelay.Pack

/-!
Texts in the order of their characters are in the order of their bytes. The codes of two different
characters differ in some byte, and the larger character has the larger byte at the first such
place.
-/
namespace PeerRelay.Text

theorem toList_loop (bytes : ByteArray) (i : Nat) (seen : List UInt8) :
    ByteArray.toList.loop bytes i seen = seen.reverse ++ bytes.data.toList.drop i := by
  induction rest : bytes.size - i generalizing i seen with
  | zero =>
    rw [ByteArray.toList.loop, if_neg (by omega), List.drop_eq_nil_of_le, List.append_nil]
    have size : bytes.data.toList.length = bytes.size := rfl
    omega
  | succ n ih =>
    have inside : i < bytes.size := by omega
    rw [ByteArray.toList.loop, if_pos inside, ih _ _ (by omega), List.reverse_cons,
      List.append_assoc, List.singleton_append]
    congr 1
    rw [List.drop_eq_getElem_cons inside]
    congr 1
    simp [ByteArray.get!, getElem!_pos, inside]

theorem utf8_eq_flatMap (s : String) : Pack.utf8 s = s.toList.flatMap String.utf8EncodeChar := by
  have bytes : s.toByteArray = s.toList.utf8Encode := by
    rw [← String.toByteArray_ofList, String.ofList_toList]
  rw [Pack.utf8, String.toUTF8_eq_toByteArray, ByteArray.toList, toList_loop, bytes]
  simp [List.utf8Encode]

/-- The code of a number has its digits to base 64, the first of them marked with the length of the
    code. A number that has a shorter code does not have a longer one. -/
inductive Coded : Nat → List UInt8 → Prop where
  | one {d : Nat} (short : d < 128) : Coded d [UInt8.ofNat d]
  | two {c d : Nat} (long : 2 ≤ c) (high : c < 32) (last : d < 64) :
      Coded (64 * c + d) [UInt8.ofNat (c + 192), UInt8.ofNat (d + 128)]
  | three {b c d : Nat} (long : 32 ≤ 64 * b + c) (high : b < 16) (mid : c < 64) (last : d < 64) :
      Coded (4096 * b + 64 * c + d)
        [UInt8.ofNat (b + 224), UInt8.ofNat (c + 128), UInt8.ofNat (d + 128)]
  | four {a b c d : Nat} (long : 16 ≤ 64 * a + b) (high : a < 8) (next : b < 64) (mid : c < 64)
      (last : d < 64) :
      Coded (262144 * a + 4096 * b + 64 * c + d)
        [UInt8.ofNat (a + 240), UInt8.ofNat (b + 128), UInt8.ofNat (c + 128), UInt8.ofNat (d + 128)]

theorem encodeChar_coded (c : Char) : Coded c.val.toNat (String.utf8EncodeChar c) := by
  have bound : c.val.toNat < 1114112 := by
    have valid := c.valid
    simp only [UInt32.isValidChar, Nat.isValidChar] at valid
    omega
  unfold String.utf8EncodeChar
  generalize c.val.toNat = n at bound
  dsimp only
  split
  · exact .one (by omega)
  · split
    · have code := Coded.two (c := n / 64) (d := n % 64) (by omega) (by omega) (by omega)
      have digits : 64 * (n / 64) + n % 64 = n := by omega
      rwa [digits, ← Nat.mod_eq_of_lt (a := n / 64) (b := 32) (by omega)] at code
    · split
      · have code := Coded.three (b := n / 4096) (c := n / 64 % 64) (d := n % 64)
          (by omega) (by omega) (by omega) (by omega)
        have digits : 4096 * (n / 4096) + 64 * (n / 64 % 64) + n % 64 = n := by omega
        rwa [digits, ← Nat.mod_eq_of_lt (a := n / 4096) (b := 16) (by omega)] at code
      · have code := Coded.four (a := n / 262144) (b := n / 4096 % 64) (c := n / 64 % 64)
          (d := n % 64) (by omega) (by omega) (by omega) (by omega) (by omega)
        have digits : 262144 * (n / 262144) + 4096 * (n / 4096 % 64) + 64 * (n / 64 % 64) + n % 64 =
            n := by omega
        rwa [digits, ← Nat.mod_eq_of_lt (a := n / 262144) (b := 8) (by omega)] at code

theorem Coded.lt {m n : Nat} {first second : List UInt8} (h : Coded m first) (k : Coded n second)
    (less : m < n) (u v : List UInt8) : first ++ u < second ++ v := by
  -- the mark of a longer code is larger; codes of one length are compared digit by digit
  cases h <;> cases k <;>
    simp only [List.cons_append, List.nil_append, List.cons_lt_cons_iff,
      UInt8.lt_iff_toNat_lt, ← UInt8.toNat_inj, UInt8.toNat_ofNat'] <;>
    omega

theorem encodeChar_lt {a b : Char} (less : a < b) (u v : List UInt8) :
    String.utf8EncodeChar a ++ u < String.utf8EncodeChar b ++ v :=
  (encodeChar_coded a).lt (encodeChar_coded b) less u v

theorem flatMap_encode_lt {s t : List Char} (less : s < t) :
    s.flatMap String.utf8EncodeChar < t.flatMap String.utf8EncodeChar := by
  induction less with
  | @nil c rest =>
    obtain ⟨first, others, code⟩ :=
      List.exists_cons_of_ne_nil (String.utf8EncodeChar_ne_nil (c := c))
    rw [List.flatMap_cons, code]
    exact .nil
  | rel first => exact encodeChar_lt first _ _
  | cons rest ih => exact List.append_left_lt ih

/-- The order of the characters is the order of the bytes. -/
theorem utf8_lt_iff {s t : String} : Pack.utf8 s < Pack.utf8 t ↔ s < t := by
  have forward : ∀ {s t : String}, s < t → Pack.utf8 s < Pack.utf8 t := by
    intro s t less
    rw [utf8_eq_flatMap, utf8_eq_flatMap]
    exact flatMap_encode_lt less
  refine ⟨fun less => ?_, forward⟩
  apply Decidable.of_not_not
  intro other
  by_cases reversed : t < s
  · exact List.lt_asymm less (forward reversed)
  · obtain rfl := String.le_antisymm (String.not_lt.mp reversed) (String.not_lt.mp other)
    exact List.lt_irrefl _ less

end PeerRelay.Text
