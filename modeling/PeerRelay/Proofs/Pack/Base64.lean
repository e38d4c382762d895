import PeerRelay.Pack.Base64
import PeerRelay.Text

/-!
Base 64 is read back as the bytes that were written, whether their number leaves two, one or no
places of the last group to the padding. What is written holds no white space.
-/
namespace PeerRelay.Base64

@[simp] theorem value?_digit {n : Nat} (small : n < 64) : value? (digit n) = some n := by
  have all : ∀ n < 64, value? (digit n) = some n := by decide
  exact all n small

@[simp] theorem digit_ne_padding {n : Nat} (small : n < 64) : digit n ≠ '=' := by
  have all : ∀ n < 64, digit n ≠ '=' := by decide
  exact all n small

@[simp] theorem digit_solid {n : Nat} (small : n < 64) : Text.isBlank (digit n) = false := by
  have all : ∀ n < 64, Text.isBlank (digit n) = false := by decide
  exact all n small

theorem ofNat_eq_byte {n : Nat} {a : UInt8} (same : n % 0x100 = a.toNat) : UInt8.ofNat n = a := by
  rw [← UInt8.toNat_inj, UInt8.toNat_ofNat']
  exact same

/-! Groups of digits -/

theorem oneByte?_digits (a : UInt8) :
    oneByte? (0x10 * a.toNat / 0x40) (0x10 * a.toNat % 0x40) = some [a] := by
  have bound := a.toNat_lt
  rw [oneByte?, if_pos (by omega), ofNat_eq_byte (a := a) (by omega)]

theorem twoBytes?_digits {a b : UInt8} {n : Nat} (value : n = 4 * (0x100 * a.toNat + b.toNat)) :
    twoBytes? (n / 0x1000) (n / 0x40 % 0x40) (n % 0x40) = some [a, b] := by
  have first := a.toNat_lt
  have second := b.toNat_lt
  rw [twoBytes?, if_pos (by omega), ofNat_eq_byte (a := a) (by omega),
    ofNat_eq_byte (a := b) (by omega)]

theorem threeBytes_digits {a b c : UInt8} {n : Nat}
    (value : n = 0x10000 * a.toNat + 0x100 * b.toNat + c.toNat) :
    threeBytes (n / 0x40000) (n / 0x1000 % 0x40) (n / 0x40 % 0x40) (n % 0x40) = [a, b, c] := by
  have first := a.toNat_lt
  have second := b.toNat_lt
  have third := c.toNat_lt
  rw [threeBytes, ofNat_eq_byte (a := a) (by omega), ofNat_eq_byte (a := b) (by omega),
    ofNat_eq_byte (a := c) (by omega)]

/-! Groups as they are read -/

theorem decode?_one {p q : Nat} (p_small : p < 64) (q_small : q < 64) :
    decode? [digit p, digit q, '=', '='] = oneByte? p q := by
  simp [decode?, p_small, q_small]

theorem decode?_two {p q r : Nat} (p_small : p < 64) (q_small : q < 64) (r_small : r < 64) :
    decode? [digit p, digit q, digit r, '='] = twoBytes? p q r := by
  simp [decode?.eq_3 _ _ _ (digit_ne_padding r_small), p_small, q_small, r_small]

theorem decode?_three {p q r s : Nat} (p_small : p < 64) (q_small : q < 64) (r_small : r < 64)
    (s_small : s < 64) (rest : List Char) :
    decode? (digit p :: digit q :: digit r :: digit s :: rest) =
      (decode? rest).map (threeBytes p q r s ++ ·) := by
  have plain := digit_ne_padding s_small
  rw [decode?.eq_4 _ _ _ _ _ (fun _ last _ => plain last) fun last _ => plain last,
    value?_digit p_small, value?_digit q_small, value?_digit r_small, value?_digit s_small]
  cases decode? rest <;> rfl

theorem decode?_encode (bytes : List UInt8) : decode? (encode bytes) = some bytes := by
  fun_induction encode bytes with
  | case1 => rfl
  | case2 a n =>
    have first := a.toNat_lt
    rw [decode?_one (by omega) (by omega), oneByte?_digits]
  | case3 a b n =>
    have first := a.toNat_lt
    have second := b.toNat_lt
    rw [decode?_two (by omega) (by omega) (by omega), twoBytes?_digits rfl]
  | case4 a b c rest n ih =>
    have first := a.toNat_lt
    have second := b.toNat_lt
    have third := c.toNat_lt
    rw [decode?_three (by omega) (by omega) (by omega) (by omega), ih, threeBytes_digits rfl]
    rfl

theorem encode_solid (bytes : List UInt8) : ∀ c ∈ encode bytes, Text.isBlank c = false := by
  have padding : Text.isBlank '=' = false := by decide
  fun_induction encode bytes with
  | case1 => simp
  | case2 a n =>
    have first := a.toNat_lt
    simp (disch := omega) [padding]
  | case3 a b n =>
    have first := a.toNat_lt
    have second := b.toNat_lt
    simp (disch := omega) [padding]
  | case4 a b c rest n ih =>
    have first := a.toNat_lt
    have second := b.toNat_lt
    have third := c.toNat_lt
    simpa (disch := omega) using ih

end PeerRelay.Base64
