import Std.Data.ExtTreeMap

/-! A one-to-one relation that can be searched from either side. Pairing two values drops every
    earlier pair of either. -/
namespace PeerRelay

structure Pairing (α β : Type) [Ord α] [Ord β] where
  byLeft : Std.ExtTreeMap α β
  byRight : Std.ExtTreeMap β α

namespace Pairing

variable {α β : Type} [Ord α] [Std.TransOrd α] [Ord β] [Std.TransOrd β]

def empty : Pairing α β := ⟨∅, ∅⟩

def right? (p : Pairing α β) (a : α) : Option β := p.byLeft[a]?

def left? (p : Pairing α β) (b : β) : Option α := p.byRight[b]?

def removeLeft (p : Pairing α β) (a : α) : Option β × Pairing α β :=
  match p.right? a with
  | none => (none, p)
  | some b => (some b, ⟨p.byLeft.erase a, p.byRight.erase b⟩)

def removeRight (p : Pairing α β) (b : β) : Option α × Pairing α β :=
  match p.left? b with
  | none => (none, p)
  | some a => (some a, ⟨p.byLeft.erase a, p.byRight.erase b⟩)

def insert (p : Pairing α β) (a : α) (b : β) : Pairing α β :=
  let p := (p.removeLeft a).2
  let p := (p.removeRight b).2
  ⟨p.byLeft.insert a b, p.byRight.insert b a⟩

def size (p : Pairing α β) : Nat := p.byLeft.size

end Pairing

end PeerRelay
