import PeerRelay.Pack.Block

/-!
A block is read back from its bytes, with runs of literals and copies of any length: what does not
fit a half of the token comes back from the bytes that carry it on. The one limit is that of the
format, two bytes for an offset and no copy shorter than four.
-/
namespace PeerRelay.Pack

/-! Lengths -/

theorem readMore?_full (k : Nat) {n : Nat} (small : n < 255) (rest : Bytes) :
    readMore? (List.replicate k 255 ++ UInt8.ofNat n :: rest) = some (n + 255 * k, rest) := by
  have value : (UInt8.ofNat n).toNat = n := by
    rw [UInt8.toNat_ofNat']
    omega
  induction k with
  | zero =>
    have last : UInt8.ofNat n ≠ 255 := by
      intro same
      rw [same] at value
      have full : (255 : UInt8).toNat = 255 := rfl
      omega
    rw [List.replicate_zero, List.nil_append, readMore?, if_neg last, value, Nat.mul_zero,
      Nat.add_zero]
  | succ k ih =>
    have more : n + 255 * k + 255 = n + 255 * (k + 1) := by omega
    rw [List.replicate_succ, List.cons_append, readMore?, if_pos rfl, ih, Option.map_some]
    dsimp only
    rw [more]

@[simp] theorem readMore?_moreLength (n : Nat) (rest : Bytes) :
    readMore? (moreLength n ++ rest) = some (n, rest) := by
  have whole : n % 255 + 255 * (n / 255) = n := Nat.mod_add_div n 255
  rw [moreLength, List.append_assoc, List.singleton_append,
    readMore?_full _ (Nat.mod_lt n (by decide)), whole]

/-- What the token says of a length and the bytes that carry it on make up the length. -/
@[simp] theorem readLength?_extension (n : Nat) (rest : Bytes) :
    readLength? (min n 15) (lengthExtension n ++ rest) = some (n, rest) := by
  unfold readLength? lengthExtension
  by_cases short : n < 15
  · rw [if_pos short, Nat.min_eq_left (by omega), if_pos short]
    rfl
  · have long : n - 15 + 15 = n := by omega
    rw [if_neg short, Nat.min_eq_right (by omega), if_neg (by decide), readMore?_moreLength,
      Option.map_some]
    dsimp only
    rw [long]

@[simp] theorem token_literals (literals copy : Nat) :
    (token literals copy).toNat / 16 = min literals 15 := by
  rw [token, UInt8.toNat_ofNat']
  omega

@[simp] theorem token_copy (literals copy : Nat) :
    (token literals copy).toNat % 16 = min copy 15 := by
  rw [token, UInt8.toNat_ofNat']
  omega

@[simp] theorem readLiterals?_written (literals rest : Bytes) :
    readLiterals? (min literals.length 15)
      (lengthExtension literals.length ++ (literals ++ rest)) = some (literals, rest) := by
  rw [readLiterals?, readLength?_extension]
  simp

/-! Sequences and blocks -/

structure Sequence.Encodable (s : Sequence) : Prop where
  offset_le : s.offset ≤ 0xFFFF
  minCopy_le : minCopy ≤ s.length

theorem Sequence.offset_bytes {s : Sequence} (fits : s.Encodable) :
    (UInt8.ofNat s.offset).toNat + 0x100 * (UInt8.ofNat (s.offset / 0x100)).toNat = s.offset := by
  have limit := fits.offset_le
  simp only [UInt8.toNat_ofNat']
  omega

theorem readBlock?_sequence {s : Sequence} (fits : s.Encodable) (fuel : Nat) (rest : Bytes) :
    readBlock? (fuel + 1) (s.bytes ++ rest) =
      (readBlock? fuel rest).map fun b => { b with sequences := s :: b.sequences } := by
  have layout : s.bytes ++ rest = token s.literals.length (s.length - minCopy) ::
      (lengthExtension s.literals.length ++ (s.literals ++ (UInt8.ofNat s.offset ::
        UInt8.ofNat (s.offset / 0x100) :: (lengthExtension (s.length - minCopy) ++ rest)))) := by
    simp [Sequence.bytes]
  have copy : s.length - minCopy + minCopy = s.length := Nat.sub_add_cancel fits.minCopy_le
  rw [layout, readBlock?, token_literals, readLiterals?_written]
  dsimp only [bind, Option.bind]
  rw [token_copy, readLength?_extension]
  dsimp only
  rw [Sequence.offset_bytes fits, copy]
  cases readBlock? fuel rest <;> rfl

theorem readBlock?_last (fuel : Nat) (last : Bytes) :
    readBlock? (fuel + 1) (token last.length 0 :: lengthExtension last.length ++ last) =
      some ⟨[], last⟩ := by
  have written := readLiterals?_written last []
  rw [List.append_nil] at written
  rw [List.cons_append, readBlock?, token_literals, written]
  rfl

theorem readBlock?_bytes (b : Block) (fits : ∀ s ∈ b.sequences, s.Encodable) {fuel : Nat}
    (enough : b.sequences.length < fuel) : readBlock? fuel b.bytes = some b := by
  obtain ⟨sequences, last⟩ := b
  induction sequences generalizing fuel with
  | nil =>
    obtain ⟨fuel, rfl⟩ : ∃ n, fuel = n + 1 := ⟨fuel - 1, by omega⟩
    exact readBlock?_last fuel last
  | cons s rest ih =>
    obtain ⟨fuel, rfl⟩ : ∃ n, fuel = n + 1 := ⟨fuel - 1, by omega⟩
    have first := fits s List.mem_cons_self
    have others : ∀ s ∈ rest, s.Encodable := fun s mem => fits s (List.mem_cons_of_mem _ mem)
    have layout : Block.bytes ⟨s :: rest, last⟩ = s.bytes ++ Block.bytes ⟨rest, last⟩ := by
      simp [Block.bytes]
    rw [layout, readBlock?_sequence first, ih others (Nat.lt_of_succ_lt_succ enough)]
    rfl

/-- Every sequence takes a byte at least, so the fuel is enough. -/
theorem sequences_lt_bytes (b : Block) : b.sequences.length < b.bytes.length := by
  have each : b.sequences.length ≤ (b.sequences.flatMap Sequence.bytes).length := by
    induction b.sequences with
    | nil => exact Nat.le_refl _
    | cons s rest ih =>
      simp only [List.flatMap_cons, List.length_append, List.length_cons, Sequence.bytes]
      omega
  simp only [Block.bytes, List.length_append, List.length_cons]
  omega

theorem Block.ofBytes?_bytes {b : Block} (fits : ∀ s ∈ b.sequences, s.Encodable) :
    ofBytes? b.bytes = some b :=
  readBlock?_bytes b fits (sequences_lt_bytes b)

end PeerRelay.Pack
