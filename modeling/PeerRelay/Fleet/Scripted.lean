import PeerRelay.Fleet.Probe

/-! Nodes that answer probes as they were told to, and keep a record of being asked. -/
namespace PeerRelay

structure ScriptedNode where
  load : NodeLoad := default
  rooms : List RoomListing := []
  /-- The status to answer questions for the load with, instead of the load. -/
  loadStatus : Option Nat := none
  roomsStatus : Option Nat := none
  deriving DecidableEq, Repr

inductive ProbeCall where
  | load (target : NodeTarget)
  | rooms (target : NodeTarget)
  deriving DecidableEq, Repr

structure ScriptedNodes where
  nodes : List (String × ScriptedNode) := []
  calls : List ProbeCall := []
  deriving DecidableEq, Repr

namespace ScriptedNodes

def get? (s : ScriptedNodes) (target : String) : Option ScriptedNode := s.nodes.lookup target

def set (s : ScriptedNodes) (target : String) (node : ScriptedNode) : ScriptedNodes :=
  { s with nodes := (target, node) :: s.nodes }

def note (s : ScriptedNodes) (call : ProbeCall) : ScriptedNodes :=
  { s with calls := s.calls ++ [call] }

end ScriptedNodes

namespace ScriptedNode

def orStatus {α : Type} (status : Option Nat) (a : α) : Except ProbeError α :=
  match status with
  | some code => .error (.status code)
  | none => .ok a

def absent {α : Type} : Except ProbeError α := .error (.status 404)

end ScriptedNode

def Probe.scripted : Probe ScriptedNodes where
  load := fun t => do
    modify fun s => s.note (.load t)
    let s ← get
    return (s.get? t.text).elim ScriptedNode.absent fun n =>
      ScriptedNode.orStatus n.loadStatus n.load
  rooms := fun t => do
    modify fun s => s.note (.rooms t)
    let s ← get
    return (s.get? t.text).elim ScriptedNode.absent fun n =>
      ScriptedNode.orStatus n.roomsStatus n.rooms

end PeerRelay
