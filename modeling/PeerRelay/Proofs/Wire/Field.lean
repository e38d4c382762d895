import PeerRelay.Wire.Field

/-!
The bytes of a field are as many as its width, and numbers and code units are found again from
their bytes, and bytes from the numbers and code units that they are read as.
-/
namespace PeerRelay.Wire

/-- A count field can hold the number of units or bytes that the field announces. -/
def Field.Countable (f : Field) : Prop := f.count ≤ maxCount

theorem numberOf_numberBytes (n : Int32) :
    numberOf (UInt8.ofNat n.toUInt32.toNat) (UInt8.ofNat (n.toUInt32.toNat / 0x100))
      (UInt8.ofNat (n.toUInt32.toNat / 0x10000)) (UInt8.ofNat (n.toUInt32.toNat / 0x1000000)) =
        n := by
  have bound := n.toUInt32.toNat_lt
  unfold numberOf
  simp only [UInt8.toNat_ofNat']
  have whole : n.toUInt32.toNat % 2 ^ 8 + 0x100 * (n.toUInt32.toNat / 0x100 % 2 ^ 8) +
      0x10000 * (n.toUInt32.toNat / 0x10000 % 2 ^ 8) +
      0x1000000 * (n.toUInt32.toNat / 0x1000000 % 2 ^ 8) = n.toUInt32.toNat := by omega
  rw [whole, UInt32.ofNat_toNat]
  rfl

@[simp] theorem numberBytes_length (n : Int32) : (numberBytes n).length = 4 := rfl

@[simp] theorem unitsOfBytes_append (u : UInt16) (rest : Bytes) :
    unitsOfBytes (unitBytes u ++ rest) = u :: unitsOfBytes rest := by
  have bound := u.toNat_lt
  have whole : u.toNat % 2 ^ 8 + 0x100 * (u.toNat / 0x100 % 2 ^ 8) = u.toNat := by omega
  simp only [unitBytes, List.cons_append, List.nil_append, unitsOfBytes, UInt8.toNat_ofNat', whole,
    UInt16.ofNat_toNat]

@[simp] theorem unitsOfBytes_flatMap (us : List UInt16) :
    unitsOfBytes (us.flatMap unitBytes) = us := by
  induction us with
  | nil => rfl
  | cons u rest ih => rw [List.flatMap_cons, unitsOfBytes_append, ih]

theorem unitBytes_length (us : List UInt16) : (us.flatMap unitBytes).length = 2 * us.length := by
  induction us with
  | nil => rfl
  | cons u rest ih =>
    have pair : (unitBytes u).length = 2 := rfl
    simp only [List.flatMap_cons, List.length_append, pair, ih, List.length_cons]
    omega

@[simp] theorem Field.bytes_length (f : Field) : f.bytes.length = f.width := by
  cases f with
  | byte v => rfl
  | flag v => rfl
  | number v => rfl
  | text s =>
    simp only [Field.bytes, List.length_append, numberBytes_length, unitBytes_length, Field.width]
  | blob b => simp only [Field.bytes, List.length_append, numberBytes_length, Field.width]

theorem bytes_length (fields : List Field) :
    (fields.flatMap Field.bytes).length = fieldsWidth fields := by
  induction fields with
  | nil => rfl
  | cons f rest ih =>
    simp only [List.flatMap_cons, List.length_append, f.bytes_length, ih, fieldsWidth]

theorem toNat_count {n : Nat} (small : n ≤ maxCount) :
    ¬ Int32.ofNat n < 0 ∧ (Int32.ofNat n).toNatClampNeg = n := by
  unfold maxCount at small
  have value : (Int32.ofNat n).toInt = n := Int32.toInt_ofNat_of_lt (by omega)
  constructor
  · rw [Int32.lt_iff_toInt_lt, value]
    simp
  · rw [Int32.toNatClampNeg, value]
    rfl

/-! Back to the bytes -/

theorem byte_ofNat {n : Nat} {b : UInt8} (same : n % 0x100 = b.toNat) : UInt8.ofNat n = b := by
  rw [← UInt8.toNat_inj, UInt8.toNat_ofNat']
  exact same

@[simp] theorem numberBytes_numberOf (a b c d : UInt8) :
    numberBytes (numberOf a b c d) = [a, b, c, d] := by
  have ha := a.toNat_lt
  have hb := b.toNat_lt
  have hc := c.toNat_lt
  have hd := d.toNat_lt
  have whole : (numberOf a b c d).toUInt32.toNat =
      a.toNat + 0x100 * b.toNat + 0x10000 * c.toNat + 0x1000000 * d.toNat := by
    show (UInt32.ofNat _).toNat = _
    rw [UInt32.toNat_ofNat']
    omega
  unfold numberBytes
  simp only [whole]
  rw [byte_ofNat (b := a) (by omega), byte_ofNat (b := b) (by omega),
    byte_ofNat (b := c) (by omega), byte_ofNat (b := d) (by omega)]

theorem unitBytes_pair (a b : UInt8) :
    unitBytes (UInt16.ofNat (a.toNat + 0x100 * b.toNat)) = [a, b] := by
  have ha := a.toNat_lt
  have hb := b.toNat_lt
  have whole : (UInt16.ofNat (a.toNat + 0x100 * b.toNat)).toNat = a.toNat + 0x100 * b.toNat := by
    rw [UInt16.toNat_ofNat']
    omega
  unfold unitBytes
  rw [whole, byte_ofNat (b := a) (by omega), byte_ofNat (b := b) (by omega)]

theorem flatMap_unitsOfBytes {raw : Bytes} (even : raw.length % 2 = 0) :
    (unitsOfBytes raw).flatMap unitBytes = raw := by
  fun_induction unitsOfBytes raw with
  | case1 a b rest ih =>
    have later : rest.length % 2 = 0 := by
      simp only [List.length_cons] at even
      omega
    rw [List.flatMap_cons, unitBytes_pair, ih later]
    rfl
  | case2 raw few =>
    match raw, few, even with
    | [], _, _ => rfl
    | a :: b :: rest, few, _ => exact (few a b rest rfl).elim

theorem count_toNat {n : Int32} (positive : ¬ n < 0) :
    Int32.ofNat n.toNatClampNeg = n ∧ n.toNatClampNeg ≤ maxCount := by
  have above : 0 ≤ n.toInt := by
    rw [Int32.lt_iff_toInt_lt] at positive
    simpa using positive
  have below := n.toInt_lt
  constructor
  · rw [← Int32.toInt_inj, Int32.toNatClampNeg, Int32.toInt_ofNat_of_lt (by omega)]
    omega
  · unfold maxCount
    rw [Int32.toNatClampNeg]
    omega

end PeerRelay.Wire
