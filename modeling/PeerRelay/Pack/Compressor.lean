import PeerRelay.Pack.Block

/-! Finding the copies of a block. A table remembers where a word of four bytes was seen last; the
    place it names is only used if the bytes there are the same, so what the table holds decides
    how short the block gets and not what it expands to. -/
namespace PeerRelay.Pack

/-- The last bytes of a block are literals, one more than readers ask for, -/
def endLiterals : Nat := 6

/-- and no copy starts in the last ones before its end. -/
def endMargin : Nat := 12

def maxOffset : Nat := 0xFFFF

def tableSize : Nat := 0x1000

def byteAt (text : Array UInt8) (i : Nat) : Nat := (text.getD i 0).toNat

def wordAt (text : Array UInt8) (i : Nat) : Nat :=
  byteAt text i + 0x100 * byteAt text (i + 1) + 0x10000 * byteAt text (i + 2) +
    0x1000000 * byteAt text (i + 3)

/-- The place of the table for the bytes at a position: four of them in a short text, five in a
    long one. -/
def slot (text : Array UInt8) (i : Nat) : Nat :=
  if text.size < maxOffset then wordAt text i * 2654435761 % 0x100000000 / 0x100000
  else
    let word := wordAt text i + 0x100000000 * byteAt text (i + 4)
    889523592379 * (0x1000000 * word) % 0x10000000000000000 / 0x10000000000000

def sameBytes (text : Array UInt8) (i j : Nat) : Nat → Nat
  | 0 => 0
  | limit + 1 =>
    if text.getD i 0 = text.getD j 0 then sameBytes text (i + 1) (j + 1) limit + 1 else 0

def sameBefore (text : Array UInt8) (i j : Nat) : Nat → Nat
  | 0 => 0
  | limit + 1 =>
    if 0 < i ∧ 0 < j ∧ text.getD (i - 1) 0 = text.getD (j - 1) 0 then
      sameBefore text (i - 1) (j - 1) limit + 1
    else 0

structure Copy where
  start : Nat
  source : Nat
  length : Nat

def slice (text : Array UInt8) (start stop : Nat) : Bytes := (text.extract start stop).toList

/-- Looks for the next copy from `pos` on. After each miss the position moves on by a step that
    grows by one every 32 misses. -/
def findCopy (text : Array UInt8) (literalStart : Nat) :
    Nat → Nat → Nat → Array Nat → Option Copy × Array Nat
  | 0, _, _, table => (none, table)
  | fuel + 1, pos, misses, table =>
    if text.size < pos + endMargin then (none, table)
    else
      let s := slot text pos
      let source := table.getD s 0
      let table := table.set! s pos
      if source < pos ∧ pos - source ≤ maxOffset ∧ wordAt text source = wordAt text pos then
        let back := sameBefore text pos source (pos - literalStart)
        let more := sameBytes text (pos + minCopy) (source + minCopy)
          (text.size - (pos + minCopy + endLiterals))
        (some ⟨pos - back, source - back, back + minCopy + more⟩, table)
      else findCopy text literalStart fuel (pos + misses / 32) (misses + 1) table

/-- The sequences for the text from `literalStart` on, whose first bytes up to `pos` are literals,
    and where the last literals start. -/
def findSequences (text : Array UInt8) :
    Nat → Nat → Nat → Array Nat → List Sequence × Nat
  | 0, literalStart, _, _ => ([], literalStart)
  | fuel + 1, literalStart, pos, table =>
    match findCopy text literalStart text.size pos 32 table with
    | (none, _) => ([], literalStart)
    | (some c, table) =>
      let stop := c.start + c.length
      let table := table.set! (slot text (stop - 2)) (stop - 2)
      let (rest, last) := findSequences text fuel stop stop table
      (⟨slice text literalStart c.start, c.start - c.source, c.length⟩ :: rest, last)

def compress (text : Array UInt8) : Block :=
  if text.size < endMargin + 1 then ⟨[], text.toList⟩
  else
    let table := (Array.replicate tableSize 0).set! (slot text 0) 0
    let (sequences, last) := findSequences text text.size 0 1 table
    ⟨sequences, slice text last text.size⟩

end PeerRelay.Pack
