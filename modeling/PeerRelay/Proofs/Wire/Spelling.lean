import PeerRelay.Proofs.Wire.Reader

/-!
From a value that was read back to the bytes. They are the very bytes that would be written for it,
but that a flag may be set by any byte other than zero. And reading is steady: unless there were
too few bytes, more of them would have changed nothing.
-/
namespace PeerRelay.Wire

/-- Bytes that are read as fields, all of which can be counted. Any byte but zero sets a flag. -/
inductive Spells : List Field → Bytes → Prop where
  | nothing : Spells [] []
  | field {f : Field} {rest : List Field} {bytes : Bytes} :
      f.Countable → Spells rest bytes → Spells (f :: rest) (f.bytes ++ bytes)
  | flag {rest : List Field} {bytes : Bytes} (b : UInt8) :
      Spells rest bytes → Spells (.flag (b != 0) :: rest) (b :: bytes)

namespace Spells
variable {fields more : List Field} {bytes others : Bytes}

protected theorem append (first : Spells fields bytes) (second : Spells more others) :
    Spells (fields ++ more) (bytes ++ others) := by
  induction first with
  | nothing => exact second
  | field countable _ ih =>
    rw [List.append_assoc]
    exact .field countable ih
  | flag b _ ih => exact .flag b ih

theorem single {f : Field} (countable : f.Countable) : Spells [f] f.bytes := by
  have whole := Spells.nothing.field countable
  rwa [List.append_nil] at whole

theorem countable (spelled : Spells fields bytes) : ∀ f ∈ fields, f.Countable := by
  induction spelled with
  | nothing => simp
  | field countable _ ih => exact List.forall_mem_cons.mpr ⟨countable, ih⟩
  | flag b _ ih => exact List.forall_mem_cons.mpr ⟨Nat.zero_le _, ih⟩

theorem length_eq (spelled : Spells fields bytes) : bytes.length = fieldsWidth fields := by
  induction spelled with
  | nothing => rfl
  | field _ _ ih => rw [List.length_append, Field.bytes_length, fieldsWidth, ih]
  | flag b _ ih => rw [List.length_cons, fieldsWidth, Field.width, ih, Nat.add_comm]

theorem reads (spelled : Spells fields bytes) :
    Reads (fields.mapM fun f => readField f.kind) bytes fields := by
  induction spelled with
  | nothing => exact Reads.pure []
  | @field f rest bytes countable _ ih =>
    have first : Reads (readField f.kind) f.bytes f := by
      cases f with
      | byte v => exact (readByte_reads v).last
      | flag v => exact (readFlag_reads v).last
      | number v => exact (readNumber_reads v).last
      | text s => exact (readText_reads countable).last
      | blob b => exact (readBlob_reads countable).last
    rw [List.mapM_cons]
    exact first.bind ih.last
  | @flag rest bytes b _ ih =>
    have set : Reads readFlag [b] (b != 0) := (readByte_reads b).last
    have first : Reads (readField .flag) [b] (.flag (b != 0)) := set.last
    rw [List.mapM_cons]
    exact first.bind ih.last

end Spells

def flagAt : List Field → Nat → Bool
  | [], _ => false
  | f :: rest, i => if i < f.width then f.kind == .flag else flagAt rest (i - f.width)

/-- The bytes with every flag that is set written as one. -/
def withPlainFlags (fields : List Field) (bytes : Bytes) : Bytes :=
  bytes.mapIdx fun i b => if flagAt fields i then flagByte (b != 0) else b

theorem withPlainFlags_cons (f : Field) (rest : List Field) {first : Bytes} (others : Bytes)
    (width : first.length = f.width) :
    withPlainFlags (f :: rest) (first ++ others) =
      first.map (fun b => if f.kind == .flag then flagByte (b != 0) else b) ++
        withPlainFlags rest others := by
  unfold withPlainFlags
  rw [List.mapIdx_append]
  congr 1
  · apply List.ext_getElem
    · simp
    · intro i inside _
      have near : i < f.width := by
        rw [List.length_mapIdx] at inside
        omega
      simp [flagAt, near]
  · have later : ∀ i, flagAt (f :: rest) (i + first.length) = flagAt rest i := by
      intro i
      have past : ¬ i + f.width < f.width := by omega
      simp [flagAt, width, past]
    simp only [later]

/-- What is written for fields is any spelling of them with plain flags. -/
theorem Spells.plain {fields : List Field} {bytes : Bytes} (spelled : Spells fields bytes) :
    fields.flatMap Field.bytes = withPlainFlags fields bytes := by
  induction spelled with
  | nothing => rfl
  | @field f rest bytes _ _ ih =>
    rw [List.flatMap_cons, withPlainFlags_cons f rest bytes f.bytes_length, ← ih]
    congr 1
    cases f with
    | flag v => cases v <;> rfl
    | _ => simp [Field.kind]
  | @flag rest bytes b _ ih =>
    have one : [b].length = (Field.flag (b != 0)).width := rfl
    rw [List.flatMap_cons, ih]
    exact (withPlainFlags_cons _ rest bytes one).symm

/-! Steady reading -/

def Short {α : Type} (outcome : EStateM.Result Error Bytes α) : Prop :=
  ∃ needed remaining left, outcome = .error (.unexpectedEnd needed remaining) left

def extend {α : Type} (more : Bytes) : EStateM.Result Error Bytes α → EStateM.Result Error Bytes α
  | .ok a rest => .ok a (rest ++ more)
  | .error e rest => .error e (rest ++ more)

def Steady {α : Type} (read : Read α) : Prop :=
  ∀ bytes more, Short (read.run bytes) ∨ read.run (bytes ++ more) = extend more (read.run bytes)

namespace Steady
variable {α β : Type} {read first : Read α} {bytes : Bytes}

protected theorem pure (a : α) : Steady (pure a) := fun _ _ => Or.inr rfl

protected theorem throw (e : Error) : Steady (throw e : Read α) := fun _ _ => Or.inr rfl

protected theorem bind {next : α → Read β} (h : Steady first) (later : ∀ a, Steady (next a)) :
    Steady (first >>= next) := by
  intro bytes more
  have before := h bytes more
  rw [EStateM.run_bind, EStateM.run_bind]
  cases outcome : first.run bytes with
  | ok a rest =>
    rw [outcome] at before
    rcases before with short | same
    · obtain ⟨needed, remaining, left, failed⟩ := short
      cases failed
    · rw [same]
      exact later a rest more
  | error e left =>
    rw [outcome] at before
    rcases before with short | same
    · obtain ⟨needed, remaining, left, failed⟩ := short
      cases failed
      exact Or.inl ⟨needed, remaining, left, rfl⟩
    · rw [same]
      exact Or.inr rfl

protected theorem ite {second : Read α} {p : Prop} [Decidable p] (h : Steady first)
    (other : Steady second) : Steady (if p then first else second) := by
  split
  · exact h
  · exact other

theorem short {a : α} (h : Steady read) (whole : read.run bytes = .ok a []) {p : Bytes}
    (cut : p <+: bytes) (proper : p ≠ bytes) : Short (read.run p) := by
  obtain ⟨missing, shape⟩ := cut
  rcases h p missing with short | same
  · exact short
  · rw [shape, whole] at same
    cases outcome : read.run p with
    | ok b rest =>
      rw [outcome] at same
      obtain ⟨-, nothing⟩ := EStateM.Result.ok.inj same
      have none : missing = [] := (List.append_eq_nil_iff.mp nothing.symm).2
      rw [none, List.append_nil] at shape
      exact (proper shape).elim
    | error e rest =>
      rw [outcome] at same
      cases same

/-- A cut falls into what is read first, or into what is read after it. -/
theorem cut_bind {a : α} {p more : Bytes} (h : Steady first) (reads : Reads first bytes a)
    (next : α → Read β) (cut : p <+: bytes ++ more) :
    (p.length < bytes.length ∧ Short ((first >>= next).run p)) ∨
      ∃ q, p = bytes ++ q ∧ q <+: more ∧ (first >>= next).run p = (next a).run q := by
  by_cases early : p.length < bytes.length
  · have front : p <+: bytes :=
      List.prefix_of_prefix_length_le cut (List.prefix_append _ _) (Nat.le_of_lt early)
    have proper : p ≠ bytes := fun same => Nat.ne_of_lt early (congrArg List.length same)
    obtain ⟨needed, remaining, left, failed⟩ := h.short reads.whole front proper
    refine Or.inl ⟨early, needed, remaining, left, ?_⟩
    rw [EStateM.run_bind, failed]
  · have behind : bytes <+: p :=
      List.prefix_of_prefix_length_le (List.prefix_append _ _) cut (Nat.le_of_not_lt early)
    obtain ⟨q, rfl⟩ := behind
    exact Or.inr ⟨q, rfl, (List.prefix_append_right_inj bytes).mp cut, reads.run_bind next q⟩

end Steady

theorem take_steady (needed : Nat) : Steady (take needed) := by
  intro bytes more
  show Short (if _ then _ else _) ∨ (if _ then _ else _) = extend more (if _ then _ else _)
  by_cases enough : needed ≤ bytes.length
  · have still : needed ≤ (bytes ++ more).length := by
      rw [List.length_append]
      omega
    rw [if_pos enough, if_pos still, List.take_append_of_le_length enough,
      List.drop_append_of_le_length enough]
    exact Or.inr rfl
  · rw [if_neg enough]
    exact Or.inl ⟨needed, bytes.length, bytes, rfl⟩

theorem readByte_steady : Steady readByte := (take_steady 1).bind fun _ => .pure _

theorem readFlag_steady : Steady readFlag := readByte_steady.bind fun _ => .pure _

theorem readNumber_steady : Steady readNumber := by
  refine (take_steady 4).bind fun bytes => ?_
  split <;> exact .pure _

theorem readCount_steady : Steady readCount :=
  readNumber_steady.bind fun n => (Steady.throw (.negativeLength n)).ite (.pure _)

theorem readText_steady : Steady readText := by
  refine readCount_steady.bind fun count => (take_steady _).bind fun raw => ?_
  split
  · exact .pure _
  · exact .throw _

theorem readBlob_steady : Steady readBlob := readCount_steady.bind fun count => take_steady count

/-! Back from values to bytes -/

theorem bind_ok {α β : Type} {first : Read α} {next : α → Read β} {bytes rest : Bytes} {b : β}
    (done : (first >>= next).run bytes = .ok b rest) :
    ∃ a mid, first.run bytes = .ok a mid ∧ (next a).run mid = .ok b rest := by
  rw [EStateM.run_bind] at done
  cases outcome : first.run bytes with
  | ok a mid =>
    rw [outcome] at done
    exact ⟨a, mid, rfl, done⟩
  | error e left =>
    rw [outcome] at done
    cases done

variable {bytes rest : Bytes}

theorem take_ok {needed : Nat} {taken : Bytes} (done : (take needed).run bytes = .ok taken rest) :
    taken ++ rest = bytes ∧ taken.length = needed := by
  change (if _ then _ else _) = _ at done
  split at done
  · rename_i enough
    cases done
    exact ⟨List.take_append_drop needed bytes, List.length_take_of_le enough⟩
  · cases done

theorem readByte_ok {b : UInt8} (done : readByte.run bytes = .ok b rest) : b :: rest = bytes := by
  obtain ⟨taken, mid, took, same⟩ := bind_ok done
  obtain ⟨shape, length⟩ := take_ok took
  match taken, length with
  | [first], _ =>
    cases same
    exact shape

theorem readFlag_ok {v : Bool} (done : readFlag.run bytes = .ok v rest) :
    ∃ b : UInt8, b :: rest = bytes ∧ (b != 0) = v := by
  obtain ⟨b, mid, read, same⟩ := bind_ok done
  cases same
  exact ⟨b, readByte_ok read, rfl⟩

theorem readNumber_ok {n : Int32} (done : readNumber.run bytes = .ok n rest) :
    numberBytes n ++ rest = bytes := by
  obtain ⟨taken, mid, took, same⟩ := bind_ok done
  obtain ⟨shape, length⟩ := take_ok took
  match taken, length with
  | [a, b, c, d], _ =>
    cases same
    rw [numberBytes_numberOf]
    exact shape

theorem readCount_ok {n : Nat} (done : readCount.run bytes = .ok n rest) :
    numberBytes (Int32.ofNat n) ++ rest = bytes ∧ n ≤ maxCount := by
  obtain ⟨number, mid, read, same⟩ := bind_ok done
  split at same
  · cases same
  · rename_i positive
    obtain ⟨value, small⟩ := count_toNat positive
    cases same
    rw [value]
    exact ⟨readNumber_ok read, small⟩

theorem readBlob_ok {b : Bytes} (done : readBlob.run bytes = .ok b rest) :
    (Field.blob b).bytes ++ rest = bytes ∧ (Field.blob b).Countable := by
  obtain ⟨count, mid, read, took⟩ := bind_ok done
  obtain ⟨shape, small⟩ := readCount_ok read
  obtain ⟨content, rfl⟩ := take_ok took
  rw [Field.bytes, List.append_assoc, content]
  exact ⟨shape, small⟩

theorem readText_ok {s : String} (done : readText.run bytes = .ok s rest) :
    (Field.text s).bytes ++ rest = bytes ∧ (Field.text s).Countable := by
  obtain ⟨count, mid, read, later⟩ := bind_ok done
  obtain ⟨raw, mid', took, same⟩ := bind_ok later
  obtain ⟨shape, small⟩ := readCount_ok read
  obtain ⟨content, length⟩ := take_ok took
  split at same
  · rename_i text units
    cases same
    have spelled : (Text.units s).flatMap unitBytes = raw := by
      rw [Text.units_ofUnits? units, flatMap_unitsOfBytes (by omega)]
    have many : (Text.units s).length = count := by
      have both := unitBytes_length (Text.units s)
      rw [spelled] at both
      omega
    have countable : (Text.units s).length ≤ maxCount := many.symm ▸ small
    rw [Field.bytes, many, spelled, List.append_assoc, content]
    exact ⟨shape, countable⟩
  · cases same

/-! Spelling -/

/-- Reading that comes after some fields and completes a value with the fields that it reads. -/
def Spelling {α : Type} (prior : List Field) (read : Read α) (fields : α → List Field) : Prop :=
  ∀ bytes rest a, read.run bytes = .ok a rest →
    ∃ more used, fields a = prior ++ more ∧ used ++ rest = bytes ∧ Spells more used

namespace Spelling
variable {α β : Type} {first : Read α} {prior : List Field} {fields : β → List Field}
  {part : α → List Field}

protected theorem pure {b : β} (complete : fields b = prior) :
    Spelling prior (pure b) fields := by
  intro bytes rest a done
  cases done
  exact ⟨[], [], by simp [complete], rfl, .nothing⟩

protected theorem throw (e : Error) : Spelling prior (throw e) fields := by
  intro bytes rest a done
  cases done

protected theorem bind {next : α → Read β} (h : Spelling [] first part)
    (later : ∀ a, Spelling (prior ++ part a) (next a) fields) :
    Spelling prior (first >>= next) fields := by
  intro bytes rest b done
  obtain ⟨a, mid, read, then_read⟩ := bind_ok done
  obtain ⟨early, used, same, shape, spelled⟩ := h bytes mid a read
  obtain ⟨more, used', complete, shape', spelled'⟩ := later a mid rest b then_read
  obtain rfl : part a = early := same
  refine ⟨part a ++ more, used ++ used', ?_, ?_, spelled.append spelled'⟩
  · rw [complete, List.append_assoc]
  · rw [List.append_assoc, shape', shape]

theorem ofField {read : Read α} {field : α → Field}
    (h : ∀ {bytes rest a}, read.run bytes = .ok a rest →
      (field a).bytes ++ rest = bytes ∧ (field a).Countable) :
    Spelling [] read fun a => [field a] := by
  intro bytes rest a done
  obtain ⟨shape, countable⟩ := h done
  exact ⟨_, _, rfl, shape, .single countable⟩

end Spelling

theorem decodeWith_ok {α : Type} {read : Read α} {bytes : Bytes} {a : α}
    (done : decodeWith read bytes = .ok a) : ∃ rest, read.run bytes = .ok a rest := by
  rw [decodeWith_run] at done
  cases outcome : read.run bytes with
  | ok b rest =>
    rw [outcome] at done
    cases done
    exact ⟨rest, rfl⟩
  | error e rest =>
    rw [outcome] at done
    cases done

/-- The front of bytes that are read as a message spells its fields. -/
theorem decode_spells {α : Type} {read : Read α} {fields : α → List Field}
    (h : Spelling [] read fields) {bytes : Bytes} {message : α}
    (done : decodeWith read bytes = .ok message) :
    fieldsWidth (fields message) ≤ bytes.length ∧
      read.run bytes = .ok message (bytes.drop (fieldsWidth (fields message))) ∧
      Spells (fields message) (bytes.take (fieldsWidth (fields message))) := by
  obtain ⟨rest, read_on⟩ := decodeWith_ok done
  obtain ⟨more, used, same, shape, spelled⟩ := h bytes rest message read_on
  have whole : fields message = more := same
  have length : bytes.length = used.length + rest.length := by rw [← shape, List.length_append]
  rw [whole, ← spelled.length_eq, ← shape, List.drop_left, List.take_left, shape]
  exact ⟨by omega, read_on, spelled⟩

structure Completes {α : Type} (prior : List Field) (read : Read α) (fields : α → List Field) :
    Prop where
  steady : Steady read
  spelling : Spelling prior read fields

namespace Completes
variable {α β : Type} {first : Read α} {prior : List Field} {fields : β → List Field}
  {part : α → List Field}

protected theorem pure {b : β} (complete : fields b = prior) : Completes prior (pure b) fields :=
  ⟨.pure b, .pure complete⟩

protected theorem throw (e : Error) : Completes prior (throw e) fields := ⟨.throw e, .throw e⟩

protected theorem bind {next : α → Read β} (h : Completes [] first part)
    (later : ∀ a, Completes (prior ++ part a) (next a) fields) :
    Completes prior (first >>= next) fields :=
  ⟨h.steady.bind fun a => (later a).steady, h.spelling.bind fun a => (later a).spelling⟩

end Completes

theorem readByte_completes : Completes [] readByte fun b => [.byte b] :=
  ⟨readByte_steady, .ofField fun done => ⟨readByte_ok done, Nat.zero_le _⟩⟩

theorem readFlag_completes : Completes [] readFlag fun v => [.flag v] := by
  refine ⟨readFlag_steady, ?_⟩
  intro bytes rest v done
  obtain ⟨b, shape, rfl⟩ := readFlag_ok done
  exact ⟨_, [b], rfl, shape, .flag b .nothing⟩

theorem readNumber_completes : Completes [] readNumber fun n => [.number n] :=
  ⟨readNumber_steady, .ofField fun done => ⟨readNumber_ok done, Nat.zero_le _⟩⟩

theorem readText_completes : Completes [] readText fun s => [.text s] :=
  ⟨readText_steady, .ofField readText_ok⟩

theorem readBlob_completes : Completes [] readBlob fun b => [.blob b] :=
  ⟨readBlob_steady, .ofField readBlob_ok⟩

theorem readOptional_completes {α : Type} {read : Read α} {field : α → Field}
    (h : Completes [] read fun a => [field a]) :
    Completes [] (readOptional read) (Field.optional field) := by
  refine readFlag_completes.bind fun present => ?_
  cases present with
  | true => exact h.bind fun a => .pure rfl
  | false => exact .pure rfl

end PeerRelay.Wire
