import PeerRelay.Text

/-! The values a frame is made of and the bytes of each. All numbers are little-endian; a text is
    counted in 16-bit code units and a blob in bytes, both under a signed 32-bit count. -/
namespace PeerRelay.Wire

abbrev Bytes := List UInt8

inductive Error where
  | unexpectedEnd (needed remaining : Nat)
  | overflow (needed remaining : Nat)
  | unknownOpCode (code : UInt8)
  | misdirectedOpCode (code : UInt8)
  | negativeLength (length : Int32)
  | invalidText
  deriving DecidableEq, Repr

def Error.message : Error → String
  | .unexpectedEnd needed remaining =>
    s!"unexpected end of frame: needed {needed} bytes, {remaining} left"
  | .overflow needed remaining => s!"buffer overflow: needed {needed} bytes, {remaining} left"
  | .unknownOpCode code => s!"unknown opcode {code.toNat}"
  | .misdirectedOpCode code => s!"opcode {code.toNat} is not valid in this direction"
  | .negativeLength length => s!"negative length prefix {length.toInt}"
  | .invalidText => "invalid string data"

def maxCount : Nat := 2147483647

def numberBytes (n : Int32) : Bytes :=
  let u := n.toUInt32.toNat
  [UInt8.ofNat u, UInt8.ofNat (u / 0x100), UInt8.ofNat (u / 0x10000), UInt8.ofNat (u / 0x1000000)]

def numberOf (a b c d : UInt8) : Int32 :=
  (UInt32.ofNat
    (a.toNat + 0x100 * b.toNat + 0x10000 * c.toNat + 0x1000000 * d.toNat)).toInt32

def unitBytes (u : UInt16) : Bytes := [UInt8.ofNat u.toNat, UInt8.ofNat (u.toNat / 0x100)]

/-- Consecutive pairs of bytes as code units; an odd last byte is dropped. -/
def unitsOfBytes : Bytes → List UInt16
  | a :: b :: rest => UInt16.ofNat (a.toNat + 0x100 * b.toNat) :: unitsOfBytes rest
  | _ => []

inductive FieldKind where
  | byte
  | flag
  | number
  | text
  | blob
  deriving DecidableEq, Repr

inductive Field where
  | byte (value : UInt8)
  | flag (value : Bool)
  | number (value : Int32)
  | text (value : String)
  | blob (value : Bytes)
  deriving DecidableEq, Repr

def Field.kind : Field → FieldKind
  | .byte _ => .byte
  | .flag _ => .flag
  | .number _ => .number
  | .text _ => .text
  | .blob _ => .blob

def Field.count : Field → Nat
  | .text s => (Text.units s).length
  | .blob b => b.length
  | _ => 0

def Field.width : Field → Nat
  | .byte _ | .flag _ => 1
  | .number _ => 4
  | .text s => 4 + 2 * (Text.units s).length
  | .blob b => 4 + b.length

def flagByte (b : Bool) : UInt8 := if b then 1 else 0

def Field.bytes : Field → Bytes
  | .byte v => [v]
  | .flag v => [flagByte v]
  | .number v => numberBytes v
  | .text s => numberBytes (Int32.ofNat (Text.units s).length) ++ (Text.units s).flatMap unitBytes
  | .blob b => numberBytes (Int32.ofNat b.length) ++ b

def Field.optional {α : Type} (field : α → Field) : Option α → List Field
  | none => [.flag false]
  | some a => [.flag true, field a]

def fieldsWidth : List Field → Nat
  | [] => 0
  | f :: rest => f.width + fieldsWidth rest

end PeerRelay.Wire
