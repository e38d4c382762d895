import PeerRelay.Proofs.Frame.Spelling

/-!
What was received is encoded again as it came. The bytes that were read have room for the message
that was read from them, and are what is written for it, but that a flag which was set by some other
byte is set by one. So two byte strings are read as the same message only if they differ in how
flags are set, or behind the message.
-/
namespace PeerRelay
open Wire

theorem getElem?_withPlainFlags (fields : List Field) (bytes : Bytes) (i : Nat) :
    (withPlainFlags fields bytes)[i]? =
      bytes[i]?.map fun b => if flagAt fields i then flagByte (b != 0) else b := by
  simp [withPlainFlags]

theorem flagByte_inj {v w : Bool} (same : flagByte v = flagByte w) : v = w := by
  cases v <;> cases w <;> simp_all [flagByte]

theorem flag_bytes_differ {a b : UInt8} (same : (a != 0) = (b != 0)) (differ : a ≠ b) :
    a ≠ 0 ∧ b ≠ 0 := by
  have zeros : a = 0 ↔ b = 0 := by
    rw [Bool.eq_iff_iff, bne_iff_ne, bne_iff_ne] at same
    exact Decidable.not_iff_not.mp same
  constructor
  · intro zero
    exact differ (zero.trans (zeros.mp zero).symm)
  · intro zero
    exact differ ((zeros.mpr zero).trans zero.symm)

/-- Spellings of the same fields differ in flags that are set. -/
theorem spells_differ {fields : List Field} {used used' : Bytes} (first : Spells fields used)
    (second : Spells fields used') {i : Nat} (differ : used[i]? ≠ used'[i]?) :
    flagAt fields i = true ∧ used[i]? ≠ some 0 ∧ used'[i]? ≠ some 0 := by
  have same : (withPlainFlags fields used)[i]? = (withPlainFlags fields used')[i]? := by
    rw [← first.plain, ← second.plain]
  have length : used.length = used'.length := first.length_eq.trans second.length_eq.symm
  rw [getElem?_withPlainFlags, getElem?_withPlainFlags] at same
  by_cases inside : i < used.length
  · have inside' : i < used'.length := length ▸ inside
    rw [List.getElem?_eq_getElem inside, List.getElem?_eq_getElem inside'] at same differ ⊢
    cases flag : flagAt fields i with
    | false =>
      rw [flag] at same
      exact (differ same).elim
    | true =>
      rw [flag] at same
      have both : (used[i] != 0) = (used'[i] != 0) := flagByte_inj (Option.some.inj same)
      obtain ⟨set, set'⟩ := flag_bytes_differ both fun equal => differ (congrArg some equal)
      exact ⟨rfl, fun zero => set (Option.some.inj zero), fun zero => set' (Option.some.inj zero)⟩
  · have outside' : used'.length ≤ i := by omega
    rw [List.getElem?_eq_none (by omega), List.getElem?_eq_none outside'] at differ
    exact (differ rfl).elim

/-- Encoding a message that was read, into a buffer of the length of the bytes it was read from. -/
structure Reencoding {α : Type} (decode : Bytes → Except Error α) (read : Read α)
    (fields : α → List Field) (encode : α → Bytes → Encoded) : Prop where
  consumed : ∀ {bytes : Bytes} {message : α}, decode bytes = .ok message →
    let rest := bytes.drop (fieldsWidth (fields message))
    fieldsWidth (fields message) ≤ bytes.length ∧ read.run bytes = .ok message rest ∧
      ((fields message).mapM fun f => readField f.kind).run bytes = .ok (fields message) rest
  written : ∀ {bytes : Bytes} {message : α}, decode bytes = .ok message →
    ∀ buffer : Bytes, buffer.length = bytes.length →
      ∃ written, (encode message buffer).result = .ok written ∧
        written.length = fieldsWidth (fields message) ∧
        written = withPlainFlags (fields message) (bytes.take written.length)
  /-- Bytes that are read as the same message differ in flags alone, and only in flags both set. -/
  flags_only : ∀ {first second : Bytes} {message : α}, decode first = .ok message →
    decode second = .ok message → ∀ i < fieldsWidth (fields message), first[i]? ≠ second[i]? →
      flagAt (fields message) i = true ∧ first[i]? ≠ some 0 ∧ second[i]? ≠ some 0

theorem reencoding {α : Type} {read : Read α} {fields : α → List Field}
    (h : Spelling [] read fields) :
    Reencoding (decodeWith read) read fields fun message => encodeInto (fields message) := by
  constructor
  case consumed =>
    intro bytes message done
    obtain ⟨enough, read_on, spelled⟩ := decode_spells h done
    have kinds := spelled.reads (bytes.drop (fieldsWidth (fields message)))
    rw [List.take_append_drop] at kinds
    exact ⟨enough, read_on, kinds⟩
  case written =>
    intro bytes message done buffer size
    obtain ⟨enough, -, spelled⟩ := decode_spells h done
    have fits : Fits (fields message) buffer.length := ⟨size ▸ enough, spelled.countable⟩
    refine ⟨_, encodeInto_ok_iff.mpr ⟨fits, rfl⟩, bytes_length _, ?_⟩
    rw [bytes_length, spelled.plain]
  case flags_only =>
    intro first second message done done' i inside differ
    obtain ⟨-, -, spelled⟩ := decode_spells h done
    obtain ⟨-, -, spelled'⟩ := decode_spells h done'
    rw [← List.getElem?_take_of_lt inside, ← List.getElem?_take_of_lt (l := second) inside]
      at differ ⊢
    exact spells_differ spelled spelled' differ

/-- Frames of both directions and datagrams are encoded again as they came. -/
theorem received_bytes_written_again :
    Reencoding ClientFrame.decode ClientFrame.read ClientFrame.fields ClientFrame.encode ∧
    Reencoding ServerFrame.decode ServerFrame.read ServerFrame.fields ServerFrame.encode ∧
    Reencoding PunchDatagram.decode PunchDatagram.read PunchDatagram.fields PunchDatagram.encode :=
  ⟨reencoding ClientFrame.read_completes.spelling, reencoding ServerFrame.read_spelling,
    reencoding PunchDatagram.read_completes.spelling⟩

/-- A join whose flag is set by seven, with a byte behind it. -/
theorem loose_flag_written_again :
    ClientFrame.decode [2, 0, 0, 0, 0, 7, 0, 0, 0, 0, 9] = .ok (.joinRoom "" true "") ∧
      (ClientFrame.encode (.joinRoom "" true "") (List.replicate 11 255)).result =
        .ok [2, 0, 0, 0, 0, 1, 0, 0, 0, 0] := by
  have received : ClientFrame.decode [2, 0, 0, 0, 0, 7, 0, 0, 0, 0, 9] =
      .ok (.joinRoom "" true "") := by rfl
  obtain ⟨written, encoded, size, plain⟩ :=
    received_bytes_written_again.1.written received (List.replicate 11 255) rfl
  rw [encoded, plain, size]
  exact ⟨received, rfl⟩

end PeerRelay
