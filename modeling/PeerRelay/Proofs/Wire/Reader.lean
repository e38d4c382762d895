import PeerRelay.Wire.Reader
import PeerRelay.Proofs.Text.Units
import PeerRelay.Proofs.Wire.Field

/-!
Reading takes off the front of a byte string exactly the bytes that were written for a value. What
follows them stays unread and has no part in what is read.
-/
namespace PeerRelay.Wire

theorem decodeWith_run {α : Type} (read : Read α) (bytes : Bytes) :
    decodeWith read bytes = match read.run bytes with
      | .ok a _ => .ok a
      | .error e _ => .error e := rfl

def Reads {α : Type} (read : Read α) (bytes : Bytes) (a : α) : Prop :=
  ∀ rest, read.run (bytes ++ rest) = .ok a rest

namespace Reads
variable {α β : Type} {a : α} {b : β} {bytes more : Bytes} {first : Read α}

theorem run_bind (h : Reads first bytes a) (next : α → Read β) (rest : Bytes) :
    (first >>= next).run (bytes ++ rest) = (next a).run rest := by
  rw [EStateM.run_bind, h rest]

protected theorem bind {next : α → Read β} (h : Reads first bytes a)
    (later : Reads (next a) more b) : Reads (first >>= next) (bytes ++ more) b := by
  intro rest
  rw [List.append_assoc, h.run_bind, later rest]

protected theorem pure (a : α) : Reads (pure a) [] a := fun _ => rfl

theorem last {f : α → β} (h : Reads first bytes a) :
    Reads (first >>= fun a => pure (f a)) bytes (f a) := by
  have whole : Reads (first >>= fun a => pure (f a)) (bytes ++ []) (f a) := h.bind (Reads.pure _)
  rwa [List.append_nil] at whole

theorem whole (h : Reads first bytes a) : first.run bytes = .ok a [] := by
  have run := h []
  rwa [List.append_nil] at run

theorem decode (h : Reads first bytes a) (rest : Bytes) :
    decodeWith first (bytes ++ rest) = .ok a := by
  rw [decodeWith_run, h rest]

end Reads

theorem take_reads (bytes : Bytes) : Reads (take bytes.length) bytes bytes := by
  intro rest
  show (if _ then _ else _) = _
  rw [if_pos (by simp)]
  simp

theorem readByte_reads (v : UInt8) : Reads readByte (Field.byte v).bytes v :=
  (take_reads [v]).last

theorem readFlag_reads (v : Bool) : Reads readFlag (Field.flag v).bytes v := by
  have byte := (readByte_reads (flagByte v)).last (f := fun b => b != 0)
  cases v <;> exact byte

theorem readNumber_four (a b c d : UInt8) : Reads readNumber [a, b, c, d] (numberOf a b c d) :=
  fun rest => (take_reads [a, b, c, d]).run_bind _ rest

theorem readNumber_reads (n : Int32) : Reads readNumber (Field.number n).bytes n := by
  have four : Reads readNumber (numberBytes n) _ := readNumber_four _ _ _ _
  rwa [numberOf_numberBytes] at four

theorem readCount_reads {n : Nat} (small : n ≤ maxCount) :
    Reads readCount (numberBytes (Int32.ofNat n)) n := by
  intro rest
  obtain ⟨positive, value⟩ := toNat_count small
  have number := (readNumber_reads (Int32.ofNat n)).run_bind
    (fun n => if n < 0 then throw (.negativeLength n) else pure n.toNatClampNeg) rest
  rw [if_neg positive, value] at number
  exact number

theorem readBlob_reads {b : Bytes} (countable : (Field.blob b).Countable) :
    Reads readBlob (Field.blob b).bytes b :=
  (readCount_reads countable).bind (take_reads b)

theorem readText_reads {s : String} (countable : (Field.text s).Countable) :
    Reads readText (Field.text s).bytes s := by
  have small : (Text.units s).length ≤ maxCount := countable
  refine (readCount_reads small).bind ?_
  have units := take_reads ((Text.units s).flatMap unitBytes)
  rw [unitBytes_length] at units
  intro rest
  rw [units.run_bind, unitsOfBytes_flatMap, Text.ofUnits?_units]
  rfl

theorem readOptional_reads {α : Type} {read : Read α} {field : α → Field} (value : Option α)
    (present : ∀ a, value = some a → Reads read (field a).bytes a) :
    Reads (readOptional read) ((Field.optional field value).flatMap Field.bytes) value := by
  cases value with
  | none => exact (readFlag_reads false).bind (Reads.pure none)
  | some a =>
    have flag := readFlag_reads true
    have content : Reads (read >>= fun a => pure (some a)) (field a).bytes (some a) :=
      (present a rfl).last
    simp only [Field.optional, List.flatMap_cons, List.flatMap_nil, List.append_nil]
    exact flag.bind content

end PeerRelay.Wire
