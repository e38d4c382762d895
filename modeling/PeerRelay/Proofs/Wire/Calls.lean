import PeerRelay.Proofs.Wire.Reader
import PeerRelay.Proofs.Wire.Writer

/-!
Writing that goes on after failures. A call that is refused leaves the cursor and the buffer alone,
so in the end the buffer holds the fields of the calls that succeeded, one after the other, and
reading fields of these kinds gives them back.
-/
namespace PeerRelay.Wire

def accepted (c : Cursor) : List Field → List Field
  | [] => []
  | f :: rest =>
    match (put f).run c with
    | .ok _ later => f :: accepted later rest
    | .error _ later => accepted later rest

def writeEach (c : Cursor) (calls : List Field) : Cursor :=
  calls.foldl (fun c f => leftBy (put f) c) c

def readEach : List FieldKind → Read (List Field)
  | [] => return []
  | kind :: rest => do
    let first ← readField kind
    let others ← readEach rest
    return first :: others

variable {c : Cursor} {f : Field} {calls : List Field}

/-! One call -/

theorem put_cases (c : Cursor) (f : Field) :
    ((f.width ≤ c.remaining ∧ f.Countable) ∧ (put f).run c = .ok () (c.advance f.bytes)) ∨
      (¬ (f.width ≤ c.remaining ∧ f.Countable) ∧
        (put f).run c = .error (.overflow f.width c.remaining) c) := by
  by_cases fits : f.width ≤ c.remaining ∧ f.Countable
  · exact Or.inl ⟨fits, put_fits fits.1 fits.2⟩
  · exact Or.inr ⟨fits, put_overflows fits⟩

structure Advanced (c : Cursor) (width : Nat) (later : Cursor) : Prop where
  moved : later.position = c.position + width
  size : later.buffer.length = c.buffer.length
  elsewhere : ∀ {i : Nat}, i < c.position ∨ c.position + width ≤ i →
    later.buffer[i]? = c.buffer[i]?

theorem advance_elsewhere (c : Cursor) (bytes : Bytes) {i : Nat}
    (outside : i < c.position ∨ c.position + bytes.length ≤ i) :
    (c.advance bytes).buffer[i]? = c.buffer[i]? := by
  simp only [Cursor.advance, Cursor.buffer, Cursor.position] at outside ⊢
  rcases outside with before | behind
  · rw [List.append_assoc, List.getElem?_append_left before, List.getElem?_append_left before]
  · have past : c.written.length ≤ i := by omega
    rw [List.getElem?_append_right (by simpa using behind), List.getElem?_append_right past,
      List.getElem?_drop, List.length_append]
    congr 1
    omega

theorem advance_advanced {bytes : Bytes} (room : bytes.length ≤ c.remaining) :
    Advanced c bytes.length (c.advance bytes) where
  moved := by simp [Cursor.advance, Cursor.position]
  size := advance_buffer_length room
  elsewhere := advance_elsewhere c bytes

/-- What a call does at a cursor. -/
structure Writes (c : Cursor) (f : Field) : Prop where
  fails_iff : (∃ e later, (put f).run c = .error e later) ↔
    c.remaining < f.width ∨ maxCount < f.count
  failed : ∀ {e later}, (put f).run c = .error e later →
    later.position = c.position ∧ later.buffer = c.buffer
  done : ∀ {later}, (put f).run c = .ok () later → Advanced c f.width later

theorem put_writes (c : Cursor) (f : Field) : Writes c f := by
  rcases put_cases c f with ⟨⟨room, countable⟩, written⟩ | ⟨refused, failed⟩
  · constructor
    case fails_iff =>
      simp only [written, reduceCtorEq, exists_false, false_iff, not_or, Nat.not_lt]
      exact ⟨room, countable⟩
    case failed =>
      intro e later failed
      rw [written] at failed
      contradiction
    case done =>
      intro later done
      rw [written] at done
      cases done
      rw [← f.bytes_length] at room ⊢
      exact advance_advanced room
  · constructor
    case fails_iff =>
      refine iff_of_true ⟨_, _, failed⟩ ?_
      by_cases room : f.width ≤ c.remaining
      · exact Or.inr (Nat.not_le.mp fun countable => refused ⟨room, countable⟩)
      · exact Or.inl (Nat.not_le.mp room)
    case failed =>
      intro e later again
      rw [failed] at again
      cases again
      exact ⟨rfl, rfl⟩
    case done =>
      intro later done
      rw [failed] at done
      contradiction

/-! Courses of calls -/

theorem accepted_fits (c : Cursor) (calls : List Field) :
    Fits (accepted c calls) c.remaining := by
  induction calls generalizing c with
  | nil => exact ⟨Nat.zero_le _, by simp [accepted]⟩
  | cons f rest ih =>
    rcases put_cases c f with ⟨fits, written⟩ | ⟨_, failed⟩
    · simp only [accepted, written]
      refine fits_cons.mpr ⟨fits, ?_⟩
      have others := ih (c.advance f.bytes)
      rwa [advance_remaining, f.bytes_length] at others
    · simp only [accepted, failed]
      exact ih c

/-- All that is written are the bytes of the calls that succeed. -/
theorem writeEach_eq (c : Cursor) (calls : List Field) :
    writeEach c calls = c.advance ((accepted c calls).flatMap Field.bytes) := by
  induction calls generalizing c with
  | nil => simp [writeEach, accepted, Cursor.advance]
  | cons f rest ih =>
    have step : writeEach c (f :: rest) = writeEach (leftBy (put f) c) rest := rfl
    rcases put_cases c f with ⟨_, written⟩ | ⟨_, failed⟩
    · simp only [step, leftBy, accepted, written, ih, advance_advance, List.flatMap_cons]
    · simp only [step, leftBy, accepted, failed, ih]

theorem writeEach_advanced (c : Cursor) (calls : List Field) :
    Advanced c (fieldsWidth (accepted c calls)) (writeEach c calls) := by
  have fits := (accepted_fits c calls).1
  rw [← bytes_length] at fits ⊢
  rw [writeEach_eq]
  exact advance_advanced fits

/-! Reading back -/

theorem Reads.map {α β : Type} {read : Read α} {bytes : Bytes} {a : α} (h : Reads read bytes a)
    (g : α → β) : Reads (g <$> read) bytes (g a) := by
  rw [map_eq_pure_bind]
  exact h.last

theorem readField_reads (countable : f.Countable) : Reads (readField f.kind) f.bytes f := by
  cases f with
  | byte v => exact (readByte_reads v).map Field.byte
  | flag v => exact (readFlag_reads v).map Field.flag
  | number v => exact (readNumber_reads v).map Field.number
  | text s => exact (readText_reads countable).map Field.text
  | blob b => exact (readBlob_reads countable).map Field.blob

theorem readEach_reads {fields : List Field} (countable : ∀ f ∈ fields, f.Countable) :
    Reads (readEach (fields.map Field.kind)) (fields.flatMap Field.bytes) fields := by
  induction fields with
  | nil => exact Reads.pure []
  | cons f rest ih =>
    obtain ⟨first, others⟩ := List.forall_mem_cons.mp countable
    exact (readField_reads first).bind (ih others).last

/-- After any course of calls on a buffer, also with failures in it, the cursor stands behind the
    widths of the calls that succeeded and the bytes after it are as they were. The next call fails
    exactly if its width exceeds the bytes that are left, or its count is more than a count field
    can hold, and then the cursor and all bytes stay; otherwise it moves the cursor by its width and
    changes no byte elsewhere. Reading fields of the kinds of the calls that succeeded from the
    bytes written gives their values in order and leaves nothing. -/
theorem calls_atomic_and_read_back (buffer : Bytes) (calls : List Field) :
    let start := Cursor.ofBuffer buffer
    let c := writeEach start calls
    let done := accepted start calls
    c.position + c.remaining = buffer.length ∧
      Advanced start (fieldsWidth done) c ∧
      (∀ f, Writes c f) ∧
      (readEach (done.map Field.kind)).run c.written = .ok done [] := by
  intro start c done
  have advanced : Advanced start (fieldsWidth done) c := writeEach_advanced start calls
  have written : c.written = done.flatMap Field.bytes :=
    congrArg Cursor.written (writeEach_eq start calls)
  refine ⟨?_, advanced, put_writes c, ?_⟩
  · have size : c.buffer.length = buffer.length := advanced.size
    rwa [Cursor.buffer, List.length_append] at size
  · rw [written]
    exact (readEach_reads (accepted_fits start calls).2).whole

end PeerRelay.Wire
