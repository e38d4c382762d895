import PeerRelay.Pack.Base64
import PeerRelay.Pack.Compressor
import PeerRelay.Text

/-! Packed texts: the number of bytes of the text, a compressed block of them, and base 64 around
    both. -/
namespace PeerRelay.Pack

inductive Error where
  | base64
  | block
  | invalidText
  deriving DecidableEq, Repr

def utf8 (s : String) : Bytes := s.toUTF8.toList

def ofUtf8? (bytes : Array UInt8) : Option String := String.fromUTF8? ⟨bytes⟩

def sizeBytes (n : Nat) : Bytes :=
  [UInt8.ofNat n, UInt8.ofNat (n / 0x100), UInt8.ofNat (n / 0x10000), UInt8.ofNat (n / 0x1000000)]

def packBytes (bytes : Bytes) : Bytes :=
  sizeBytes bytes.length ++ (compress bytes.toArray).bytes

/-- The block may expand to less than the size says, but not to more. -/
def unpackBytes? : Bytes → Option (Array UInt8)
  | a :: b :: c :: d :: rest => do
    let size := a.toNat + 0x100 * b.toNat + 0x10000 * c.toNat + 0x1000000 * d.toNat
    (← Block.ofBytes? rest).expand? size
  | _ => none

def packText (s : String) : String := String.ofList (Base64.encode (packBytes (utf8 s)))

/-- White space around the packed text is ignored. -/
def unpackText (s : String) : Except Error String :=
  match Base64.decode? (Text.trimChars s.toList) with
  | none => .error .base64
  | some raw =>
    match unpackBytes? raw with
    | none => .error .block
    | some bytes =>
      match ofUtf8? bytes with
      | some t => .ok t
      | none => .error .invalidText

end PeerRelay.Pack
