import PeerRelay.Node.Events
import PeerRelay.Relay

/-! What a node does without being asked: heartbeats, and keeping in touch with its balancer. -/
namespace PeerRelay
namespace Node

def markProbe (n : Node) (now : Nat) : Node := { n with lastProbe := now }

/-- Whether the balancer has been silent for longer than `limit`. One silence is reported once. -/
def takeSilence (n : Node) (now limit : Nat) : Bool × Node :=
  if limit < now - n.lastProbe then (true, n.markProbe now) else (false, n)

structure Due where
  actions : List Action
  register : Option Uplink

def tick (n : Node) (now : Nat) : Node × Due :=
  match n.uplink with
  | none => (n, ⟨n.heartbeat, none⟩)
  | some u =>
    let (silent, n) := n.takeSilence now u.reregisterAfter
    (n, ⟨n.heartbeat, if silent then some u else none⟩)

def tickAll (n : Node) : List Nat → Node × List Due
  | [] => (n, [])
  | now :: rest =>
    let (n, due) := n.tick now
    let (n, others) := n.tickAll rest
    (n, due :: others)

/-- The heartbeat task from `first` to `last`: a tick at once, then one every interval. -/
def heartbeatTask (n : Node) (first last : Nat) : Node × List Due :=
  n.tickAll (ticks first n.config.heartbeatInterval last)

def takeChange (n : Node) : Bool × Node := (n.boardChanged, { n with boardChanged := false })

/-- Tells the balancer about a change of the board. Any number of changes make one notice. -/
def announce {σ : Type} (n : Node) (exchange : Http.Exchange σ) : StateM σ Node := do
  match n.uplink, n.takeChange with
  | some u, (true, n) =>
    let _ ← u.announceRooms exchange
    return n
  | _, _ => return n

def refillIds {σ : Type} (n : Node) (exchange : Http.Exchange σ) (now : Nat) : StateM σ Node := do
  match n.uplink with
  | some u =>
    if u.issuesRoomIds then
      let roomIds ← u.refill exchange now n.roomIds
      return { n with roomIds }
    else return n
  | none => return n

end Node

end PeerRelay
