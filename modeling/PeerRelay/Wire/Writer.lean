import PeerRelay.Wire.Field

/-! Writing fields into a buffer that never grows. The cursor splits the buffer into the bytes
    written and the bytes after them, which hold whatever the buffer held before. A counted field
    is written in several steps, so its whole width is checked first. -/
namespace PeerRelay.Wire

structure Cursor where
  written : Bytes
  rest : Bytes
  deriving DecidableEq, Repr

namespace Cursor

def ofBuffer (buffer : Bytes) : Cursor := ⟨[], buffer⟩

def buffer (c : Cursor) : Bytes := c.written ++ c.rest

def position (c : Cursor) : Nat := c.written.length

def remaining (c : Cursor) : Nat := c.rest.length

end Cursor

abbrev Write := EStateM Error Cursor

def ensure (needed : Nat) : Write Unit := fun c =>
  if needed ≤ c.remaining then .ok () c else .error (.overflow needed c.remaining) c

def putRaw (bytes : Bytes) : Write Unit := do
  ensure bytes.length
  modify fun c => ⟨c.written ++ bytes, c.rest.drop bytes.length⟩

/-- The count of a field whose width is `needed`; one that a count field cannot hold is refused
    as too large for the buffer. -/
def putCount (count needed : Nat) : Write Unit := do
  ensure needed
  if count ≤ maxCount then putRaw (numberBytes (Int32.ofNat count))
  else throw (.overflow needed (← get).remaining)

def put : Field → Write Unit
  | .byte v => putRaw [v]
  | .flag v => putRaw [flagByte v]
  | .number v => putRaw (numberBytes v)
  | .text s => do
    putCount (Text.units s).length (Field.text s).width
    (Text.units s).forM fun u => putRaw (unitBytes u)
  | .blob b => do
    putCount b.length (Field.blob b).width
    putRaw b

def putAll (fields : List Field) : Write Unit := fields.forM put

/-- What encoding into a buffer leaves: the bytes written, or why they do not fit, and the buffer,
    which a failed encoding may have overwritten in part. -/
structure Encoded where
  result : Except Error Bytes
  buffer : Bytes

def encodeInto (fields : List Field) (buffer : Bytes) : Encoded :=
  match putAll fields (Cursor.ofBuffer buffer) with
  | .ok _ c => ⟨.ok c.written, c.buffer⟩
  | .error e c => ⟨.error e, c.buffer⟩

end PeerRelay.Wire

namespace PeerRelay
open Wire (Bytes)

/-! Buffers of one size that are used again. The last one released is the first one taken, and it
    still holds what was written into it. -/

structure BufferPool where
  bufferSize : Nat
  maxIdle : Nat
  idle : List Bytes := []
  deriving DecidableEq, Repr

namespace BufferPool

def acquire (p : BufferPool) : Bytes × BufferPool :=
  match p.idle with
  | [] => (List.replicate p.bufferSize 0, p)
  | buffer :: rest => (buffer, { p with idle := rest })

def release (p : BufferPool) (buffer : Bytes) : BufferPool :=
  if p.idle.length < p.maxIdle then { p with idle := buffer :: p.idle } else p

end BufferPool

end PeerRelay
