import PeerRelay.Wire.Field

/-! Reading fields off the front of a byte string. The state is what is left to read; a failed
    read keeps what it had consumed before it failed. -/
namespace PeerRelay.Wire

abbrev Read := EStateM Error Bytes

def take (needed : Nat) : Read Bytes := fun rest =>
  if needed ≤ rest.length then .ok (rest.take needed) (rest.drop needed)
  else .error (.unexpectedEnd needed rest.length) rest

def readByte : Read UInt8 := do
  let bytes ← take 1
  return bytes.headD 0

/-- Any byte but zero is true. -/
def readFlag : Read Bool := do
  let b ← readByte
  return b != 0

def readNumber : Read Int32 := do
  match ← take 4 with
  | [a, b, c, d] => return numberOf a b c d
  | _ => return 0

def readCount : Read Nat := do
  let n ← readNumber
  if n < 0 then throw (.negativeLength n) else return n.toNatClampNeg

def readText : Read String := do
  let count ← readCount
  let raw ← take (2 * count)
  match Text.ofUnits? (unitsOfBytes raw) with
  | some s => return s
  | none => throw .invalidText

def readBlob : Read Bytes := do
  let count ← readCount
  take count

def readField : FieldKind → Read Field
  | .byte => Field.byte <$> readByte
  | .flag => Field.flag <$> readFlag
  | .number => Field.number <$> readNumber
  | .text => Field.text <$> readText
  | .blob => Field.blob <$> readBlob

def readOptional {α : Type} (read : Read α) : Read (Option α) := do
  if ← readFlag then
    let a ← read
    return some a
  else
    return none

def unread : Read Nat := do
  let rest ← get
  return rest.length

/-- Reads from the front of a byte string and ignores what follows. -/
def decodeWith {α : Type} (read : Read α) (bytes : Bytes) : Except Error α :=
  match read bytes with
  | .ok a _ => .ok a
  | .error e _ => .error e

end PeerRelay.Wire
