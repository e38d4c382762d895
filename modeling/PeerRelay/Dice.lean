/-! Random numbers as data. A source is an endless row of rolls, each roll an endless row of
    numbers, and a position: what was rolled once is never rolled again. A search for a roll that
    will do gives up after a bounded number of tries. -/
namespace PeerRelay

abbrev Roll := Nat → Nat

structure Dice where
  rolls : Nat → Roll
  used : Nat

namespace Dice

/-- Scrambles a number by multiplications and shifts, so that neighbours have little in common. -/
def mix (n : Nat) : Nat :=
  let z : UInt64 := UInt64.ofNat n * 0x9E3779B97F4A7C15
  let z := (z ^^^ (z >>> 30)) * 0xBF58476D1CE4E5B9
  let z := (z ^^^ (z >>> 27)) * 0x94D049BB133111EB
  (z ^^^ (z >>> 31)).toNat

def seeded (seed : Nat) : Dice := ⟨fun k i => mix (mix (seed + k) + i), 0⟩

def roll (d : Dice) (k : Nat) : Roll := d.rolls (d.used + k)

def skip (d : Dice) (n : Nat) : Dice := { d with used := d.used + n }

def firstFree? (d : Dice) (word : Roll → String) (taken : String → Bool) (tries : Nat) :
    Option Nat :=
  (List.range tries).find? fun k => !taken (word (d.roll k))

/-- Draws words until one is not taken. Every word looked at counts as drawn. -/
def drawFree (d : Dice) (word : Roll → String) (taken : String → Bool) (tries : Nat) :
    Option String × Dice :=
  match d.firstFree? word taken tries with
  | some k => (some (word (d.roll k)), d.skip (k + 1))
  | none => (none, d.skip tries)

end Dice

end PeerRelay
