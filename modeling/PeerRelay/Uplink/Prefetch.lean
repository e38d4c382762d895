import PeerRelay.Uplink.Basic

/-! The loop that keeps a stock of room ids filled, beside those who take ids, in the steps between
    which others may run. The loop wakes, throws old ids away, and then looks at the size of the
    stock before every fetch. Somebody who takes an id throws old ids away first, too, and does not
    hold the stock until the id is taken. -/
namespace PeerRelay

inductive PrefetchPhase where
  | asleep
  | looking
  | fetching
  deriving DecidableEq, Repr

inductive PrefetchEvent where
  | wake
  | look
  | answered (id : Option String)
  | begin
  | finish (take : Nat)
  deriving DecidableEq, Repr

structure Prefetch where
  stock : IdStock := {}
  phase : PrefetchPhase := .asleep
  /-- Every take begun so far, in the order of beginning, and whether it is still to finish. -/
  takes : List Bool := []
  deriving DecidableEq, Repr

namespace Prefetch

/-- One step at a time, with the answer to a take that finishes. Steps that are not possible change
    nothing. -/
def step (p : Prefetch) (now : Nat) : PrefetchEvent → Prefetch × Option (Option StockedId)
  | .wake =>
    if p.phase = .asleep then ({ p with stock := p.stock.prune now, phase := .looking }, none)
    else (p, none)
  | .look =>
    if p.phase = .looking then
      ({ p with phase := if p.stock.size < IdStock.capacity then .fetching else .asleep }, none)
    else (p, none)
  | .answered id =>
    if p.phase = .fetching then
      match id with
      | some id => ({ p with stock := p.stock.push id now, phase := .looking }, none)
      | none => ({ p with phase := .asleep }, none)
    else (p, none)
  | .begin => ({ p with stock := p.stock.prune now, takes := p.takes ++ [true] }, none)
  | .finish take =>
    if p.takes[take]? = some true then
      let (id, stock) := p.stock.pop
      ({ p with stock, takes := p.takes.set take false }, some id)
    else (p, none)

def run (p : Prefetch) : List (Nat × PrefetchEvent) → Prefetch × List StockedId
  | [] => (p, [])
  | (now, e) :: rest =>
    let (p, answer) := p.step now e
    let (p, ids) := p.run rest
    (p, answer.join.toList ++ ids)

end Prefetch

end PeerRelay
