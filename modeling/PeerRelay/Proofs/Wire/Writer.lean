import PeerRelay.Wire.Writer
import PeerRelay.Proofs.Wire.Field

/-!
A field that can be counted is written as its bytes in one piece or not at all, and a list of
fields fits exactly if all of them can be counted and their widths together are no more than the
buffer has.
-/
namespace PeerRelay.Wire

def Cursor.advance (c : Cursor) (bytes : Bytes) : Cursor :=
  ⟨c.written ++ bytes, c.rest.drop bytes.length⟩

variable {c : Cursor}

@[simp] theorem advance_advance (c : Cursor) (first second : Bytes) :
    (c.advance first).advance second = c.advance (first ++ second) := by
  simp [Cursor.advance]

@[simp] theorem advance_remaining (c : Cursor) (bytes : Bytes) :
    (c.advance bytes).remaining = c.remaining - bytes.length := by
  simp [Cursor.advance, Cursor.remaining]

theorem then_ok {first : Write Unit} {rest : Unit → Write Unit} {later : Cursor}
    (passed : first.run c = .ok () later) : (first >>= rest).run c = (rest ()).run later := by
  rw [EStateM.run_bind, passed]

theorem then_error {first : Write Unit} {rest : Unit → Write Unit} {e : Error} {later : Cursor}
    (failed : first.run c = .error e later) : (first >>= rest).run c = .error e later := by
  rw [EStateM.run_bind, failed]

theorem ensure_passes {needed : Nat} (room : needed ≤ c.remaining) :
    (ensure needed).run c = .ok () c :=
  if_pos room

theorem ensure_fails {needed : Nat} (short : ¬ needed ≤ c.remaining) :
    (ensure needed).run c = .error (.overflow needed c.remaining) c :=
  if_neg short

theorem putRaw_fits {bytes : Bytes} (room : bytes.length ≤ c.remaining) :
    (putRaw bytes).run c = .ok () (c.advance bytes) := by
  unfold putRaw
  rw [then_ok (ensure_passes room)]
  rfl

theorem putRaw_overflows {bytes : Bytes} (short : ¬ bytes.length ≤ c.remaining) :
    (putRaw bytes).run c = .error (.overflow bytes.length c.remaining) c := by
  unfold putRaw
  rw [then_error (ensure_fails short)]

theorem putUnits_fits (us : List UInt16) (room : 2 * us.length ≤ c.remaining) :
    (us.forM fun u => putRaw (unitBytes u)).run c = .ok () (c.advance (us.flatMap unitBytes)) := by
  rw [List.forM_eq_forM]
  induction us generalizing c with
  | nil => simp [Cursor.advance]
  | cons u rest ih =>
    have pair : (unitBytes u).length = 2 := rfl
    rw [List.length_cons] at room
    rw [List.forM_cons, then_ok (putRaw_fits (by omega)), ih, advance_advance, List.flatMap_cons]
    rw [advance_remaining]
    omega

theorem putCount_fits {count needed : Nat} (small : count ≤ maxCount) (width : 4 ≤ needed)
    (room : needed ≤ c.remaining) :
    (putCount count needed).run c = .ok () (c.advance (numberBytes (Int32.ofNat count))) := by
  have four := numberBytes_length (Int32.ofNat count)
  unfold putCount
  rw [then_ok (ensure_passes room), if_pos small]
  exact putRaw_fits (by omega)

theorem putCount_overflows {count needed : Nat}
    (refused : ¬ (needed ≤ c.remaining ∧ count ≤ maxCount)) :
    (putCount count needed).run c = .error (.overflow needed c.remaining) c := by
  unfold putCount
  by_cases room : needed ≤ c.remaining
  · have large : ¬ count ≤ maxCount := fun small => refused ⟨room, small⟩
    rw [then_ok (ensure_passes room), if_neg large]
    rfl
  · rw [then_error (ensure_fails room)]

theorem put_fits {f : Field} (room : f.width ≤ c.remaining) (countable : f.Countable) :
    (put f).run c = .ok () (c.advance f.bytes) := by
  cases f with
  | byte v => exact putRaw_fits room
  | flag v => exact putRaw_fits room
  | number v => exact putRaw_fits room
  | text s =>
    have width : (Field.text s).width = 4 + 2 * (Text.units s).length := rfl
    have small : (Text.units s).length ≤ maxCount := countable
    have four := numberBytes_length (Int32.ofNat (Text.units s).length)
    simp only [put, Field.bytes]
    rw [then_ok (putCount_fits small (by omega) room), putUnits_fits, advance_advance]
    rw [advance_remaining]
    omega
  | blob b =>
    have width : (Field.blob b).width = 4 + b.length := rfl
    have small : b.length ≤ maxCount := countable
    have four := numberBytes_length (Int32.ofNat b.length)
    simp only [put, Field.bytes]
    rw [then_ok (putCount_fits small (by omega) room), putRaw_fits, advance_advance]
    rw [advance_remaining]
    omega

theorem put_overflows {f : Field} (refused : ¬ (f.width ≤ c.remaining ∧ f.Countable)) :
    (put f).run c = .error (.overflow f.width c.remaining) c := by
  have short : f.Countable → ¬ f.width ≤ c.remaining := fun small room => refused ⟨room, small⟩
  cases f with
  | byte v => exact putRaw_overflows (short (Nat.zero_le _))
  | flag v => exact putRaw_overflows (short (Nat.zero_le _))
  | number v => exact putRaw_overflows (short (Nat.zero_le _))
  | text s => exact then_error (putCount_overflows refused)
  | blob b => exact then_error (putCount_overflows refused)

/-- What it takes to write a list of fields into a buffer with so many bytes left. -/
def Fits (fields : List Field) (room : Nat) : Prop :=
  fieldsWidth fields ≤ room ∧ ∀ f ∈ fields, f.Countable

theorem fits_cons {f : Field} {rest : List Field} {room : Nat} :
    Fits (f :: rest) room ↔ (f.width ≤ room ∧ f.Countable) ∧ Fits rest (room - f.width) := by
  simp only [Fits, fieldsWidth, List.forall_mem_cons]
  constructor
  · rintro ⟨width, countable, others⟩
    exact ⟨⟨by omega, countable⟩, by omega, others⟩
  · rintro ⟨⟨first, countable⟩, width, others⟩
    exact ⟨by omega, countable, others⟩

theorem putAll_fits {fields : List Field} (fits : Fits fields c.remaining) :
    (putAll fields).run c = .ok () (c.advance (fields.flatMap Field.bytes)) := by
  rw [putAll, List.forM_eq_forM]
  induction fields generalizing c with
  | nil => simp [Cursor.advance]
  | cons f rest ih =>
    obtain ⟨first, others⟩ := fits_cons.mp fits
    rw [List.forM_cons, then_ok (put_fits first.1 first.2), ih, advance_advance,
      List.flatMap_cons]
    rwa [advance_remaining, f.bytes_length]

theorem putAll_overflows {fields : List Field} (refused : ¬ Fits fields c.remaining) :
    ∃ needed remaining later,
      (putAll fields).run c = .error (.overflow needed remaining) later := by
  rw [putAll, List.forM_eq_forM]
  induction fields generalizing c with
  | nil => exact (refused ⟨Nat.zero_le _, by simp⟩).elim
  | cons f rest ih =>
    rw [List.forM_cons]
    -- the first field that does not fit stops the writing, wherever it stands
    by_cases first : f.width ≤ c.remaining ∧ f.Countable
    · rw [then_ok (put_fits first.1 first.2)]
      apply ih
      rw [advance_remaining, f.bytes_length]
      exact fun fits => refused (fits_cons.mpr ⟨first, fits⟩)
    · exact ⟨_, _, _, then_error (put_overflows first)⟩

/-- What fits is written at the front of the buffer, and the bytes behind it stay. -/
theorem encodeInto_fits {fields : List Field} {buffer : Bytes} (fits : Fits fields buffer.length) :
    encodeInto fields buffer =
      ⟨.ok (fields.flatMap Field.bytes),
        fields.flatMap Field.bytes ++ buffer.drop (fieldsWidth fields)⟩ := by
  have written : putAll fields (Cursor.ofBuffer buffer) = _ := putAll_fits fits
  unfold encodeInto
  rw [written, ← bytes_length]
  rfl

theorem encodeInto_overflows {fields : List Field} {buffer : Bytes}
    (refused : ¬ Fits fields buffer.length) :
    ∃ needed remaining,
      (encodeInto fields buffer).result = .error (.overflow needed remaining) := by
  have failed : ∃ needed remaining later,
      putAll fields (Cursor.ofBuffer buffer) = .error (.overflow needed remaining) later :=
    putAll_overflows refused
  obtain ⟨needed, remaining, later, failed⟩ := failed
  refine ⟨needed, remaining, ?_⟩
  unfold encodeInto
  rw [failed]

theorem encodeInto_ok_iff {fields : List Field} {buffer bytes : Bytes} :
    (encodeInto fields buffer).result = .ok bytes ↔
      Fits fields buffer.length ∧ bytes = fields.flatMap Field.bytes := by
  by_cases fits : Fits fields buffer.length
  · simp [encodeInto_fits fits, fits, eq_comm]
  · obtain ⟨needed, remaining, failed⟩ := encodeInto_overflows fits
    simp [failed, fits]

/-! What a buffer held -/

/-- What writing comes to, whatever stands behind the cursor. -/
def outcome (w : Write Unit) (c : Cursor) : Except Error Bytes :=
  match w.run c with
  | .ok _ later => .ok later.written
  | .error e _ => .error e

theorem putAll_outcome (fields : List Field) {c d : Cursor} (written : c.written = d.written)
    (room : c.remaining = d.remaining) : outcome (putAll fields) c = outcome (putAll fields) d := by
  rw [putAll, List.forM_eq_forM]
  induction fields generalizing c d with
  | nil => exact congrArg Except.ok written
  | cons f rest ih =>
    rw [List.forM_cons]
    by_cases first : f.width ≤ c.remaining ∧ f.Countable
    · have second : f.width ≤ d.remaining ∧ f.Countable := room ▸ first
      rw [outcome, outcome, then_ok (put_fits first.1 first.2),
        then_ok (put_fits second.1 second.2)]
      apply ih
      · rw [Cursor.advance, Cursor.advance, written]
      · rw [advance_remaining, advance_remaining, room]
    · have second : ¬ (f.width ≤ d.remaining ∧ f.Countable) := room ▸ first
      rw [outcome, outcome, then_error (put_overflows first),
        then_error (put_overflows second), room]

/-- The result depends on the length of the buffer, and not on what it held. -/
theorem encodeInto_congr (fields : List Field) {buffer buffer' : Bytes}
    (size : buffer.length = buffer'.length) :
    (encodeInto fields buffer).result = (encodeInto fields buffer').result := by
  have result : ∀ buffer, (encodeInto fields buffer).result =
      outcome (putAll fields) (Cursor.ofBuffer buffer) := by
    intro buffer
    unfold encodeInto outcome EStateM.run
    cases putAll fields (Cursor.ofBuffer buffer) <;> rfl
  rw [result, result]
  exact putAll_outcome fields rfl size

/-! A buffer keeps its size -/

def leftBy (w : Write Unit) (c : Cursor) : Cursor :=
  match w.run c with
  | .ok _ later | .error _ later => later

theorem advance_buffer_length {bytes : Bytes} (room : bytes.length ≤ c.remaining) :
    (c.advance bytes).buffer.length = c.buffer.length := by
  simp only [Cursor.remaining] at room
  simp only [Cursor.advance, Cursor.buffer, List.length_append, List.length_drop]
  omega

@[simp] theorem putAll_buffer_length (fields : List Field) :
    (leftBy (putAll fields) c).buffer.length = c.buffer.length := by
  rw [putAll, List.forM_eq_forM]
  induction fields generalizing c with
  | nil => rfl
  | cons f rest ih =>
    rw [List.forM_cons]
    by_cases first : f.width ≤ c.remaining ∧ f.Countable
    · have room : f.bytes.length ≤ c.remaining := f.bytes_length ▸ first.1
      have later : (leftBy (rest.forM put) (c.advance f.bytes)).buffer.length = _ := ih
      rw [leftBy, then_ok (put_fits first.1 first.2)]
      exact later.trans (advance_buffer_length room)
    · rw [leftBy, then_error (put_overflows first)]

@[simp] theorem encodeInto_length (fields : List Field) (buffer : Bytes) :
    (encodeInto fields buffer).buffer.length = buffer.length := by
  have kept : (leftBy (putAll fields) (Cursor.ofBuffer buffer)).buffer.length = buffer.length :=
    putAll_buffer_length fields
  rw [← kept]
  unfold encodeInto leftBy EStateM.run
  cases putAll fields (Cursor.ofBuffer buffer) <;> rfl

end PeerRelay.Wire
