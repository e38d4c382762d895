import PeerRelay.Node.Events

/-!
Histories of a node. Between the events its background tasks are at work: ids of rooms come into
stock or are thrown away, a probe is noted, the mark on the board is taken. They touch nothing
else, so a history may have them do anything to these three.
-/
namespace PeerRelay

inductive Happening where
  | event (now : Nat) (e : NodeEvent)
  | upkeep (roomIds : IdStock) (lastProbe : Nat) (boardChanged : Bool)
  deriving DecidableEq, Repr

namespace Node

def undergo (n : Node) : Happening → Node × List Action
  | .event now e => n.handle now e
  | .upkeep roomIds lastProbe boardChanged => ({ n with roomIds, lastProbe, boardChanged }, [])

def after (n : Node) : List Happening → Node
  | [] => n
  | h :: rest => (n.undergo h).1.after rest

def actions (n : Node) : List Happening → List Action
  | [] => []
  | h :: rest => (n.undergo h).2 ++ (n.undergo h).1.actions rest

theorem run_eq_after (n : Node) (events : List (Nat × NodeEvent)) :
    (n.run events).1 = n.after (events.map fun (now, e) => .event now e) := by
  induction events generalizing n with
  | nil => rfl
  | cons first rest ih => exact ih (n.handle first.1 first.2).1

def expects (n : Node) : Happening → Bool
  | .event _ (.transport (.connected id _)) => (n.sessions.get? id).isNone
  | _ => true

/-- Nothing unexpected happens in a history. -/
def orderly (n : Node) : List Happening → Bool
  | [] => true
  | h :: rest => n.expects h && (n.undergo h).1.orderly rest

theorem orderly_append (n : Node) (past more : List Happening) :
    n.orderly (past ++ more) = (n.orderly past && (n.after past).orderly more) := by
  induction past generalizing n with
  | nil => rfl
  | cons h rest ih =>
    simp only [List.cons_append, orderly, ih, after, Bool.and_assoc]

end Node

end PeerRelay
