/-! LZ4 blocks: sequences of literal bytes, each followed by a copy of earlier output, and a last
    run of literals. A length that does not fit its half of the token goes on in bytes of 255 and a
    last smaller one. -/
namespace PeerRelay.Pack

abbrev Bytes := List UInt8

/-- Literals, and then `length` bytes copied from `offset` bytes back. A copy may run into the
    bytes it writes. -/
structure Sequence where
  literals : Bytes
  offset : Nat
  length : Nat
  deriving DecidableEq, Repr

structure Block where
  sequences : List Sequence
  last : Bytes
  deriving DecidableEq, Repr

def minCopy : Nat := 4

/-! Expanding -/

/-- Appends `length` bytes, each the one `offset` bytes back at that moment. -/
def copyBack (out : Array UInt8) (offset : Nat) : Nat → Array UInt8
  | 0 => out
  | length + 1 => copyBack (out.push (out.getD (out.size - offset) 0)) offset length

/-- Fails if the output would grow beyond `limit` or a copy starts outside of it. -/
def Sequence.expand? (limit : Nat) (out : Array UInt8) (s : Sequence) : Option (Array UInt8) :=
  let out := out ++ s.literals.toArray
  if out.size + s.length ≤ limit ∧ 0 < s.offset ∧ s.offset ≤ out.size then
    some (copyBack out s.offset s.length)
  else none

def Block.expand? (limit : Nat) (b : Block) : Option (Array UInt8) := do
  let out ← b.sequences.foldlM (Sequence.expand? limit) #[]
  if out.size + b.last.length ≤ limit then some (out ++ b.last.toArray) else none

/-! Bytes of a block -/

def moreLength (n : Nat) : Bytes := List.replicate (n / 255) 255 ++ [UInt8.ofNat (n % 255)]

def lengthExtension (n : Nat) : Bytes := if n < 15 then [] else moreLength (n - 15)

def token (literals copy : Nat) : UInt8 := UInt8.ofNat (min literals 15 * 16 + min copy 15)

def Sequence.bytes (s : Sequence) : Bytes :=
  token s.literals.length (s.length - minCopy) :: lengthExtension s.literals.length ++
    s.literals ++ [UInt8.ofNat s.offset, UInt8.ofNat (s.offset / 0x100)] ++
    lengthExtension (s.length - minCopy)

def Block.bytes (b : Block) : Bytes :=
  b.sequences.flatMap Sequence.bytes ++
    token b.last.length 0 :: lengthExtension b.last.length ++ b.last

def readMore? : Bytes → Option (Nat × Bytes)
  | [] => none
  | b :: rest =>
    if b = 255 then (readMore? rest).map fun (n, rest) => (n + 255, rest)
    else some (b.toNat, rest)

def readLength? (nibble : Nat) (rest : Bytes) : Option (Nat × Bytes) :=
  if nibble < 15 then some (nibble, rest)
  else (readMore? rest).map fun (n, rest) => (n + 15, rest)

def readLiterals? (nibble : Nat) (rest : Bytes) : Option (Bytes × Bytes) := do
  let (n, rest) ← readLength? nibble rest
  if n ≤ rest.length then some (rest.take n, rest.drop n) else none

def readBlock? : Nat → Bytes → Option Block
  | 0, _ => none
  | _, [] => none
  | fuel + 1, t :: rest => do
    let (literals, rest) ← readLiterals? (t.toNat / 16) rest
    match rest with
    | [] => some ⟨[], literals⟩
    | low :: high :: rest => do
      let (copy, rest) ← readLength? (t.toNat % 16) rest
      let b ← readBlock? fuel rest
      return { b with
        sequences := ⟨literals, low.toNat + 0x100 * high.toNat, copy + minCopy⟩ :: b.sequences }
    | _ => none

def Block.ofBytes? (bytes : Bytes) : Option Block := readBlock? bytes.length bytes

end PeerRelay.Pack
