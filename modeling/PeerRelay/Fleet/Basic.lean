import Std.Data.ExtTreeSet
import PeerRelay.Fleet.Probe
import PeerRelay.Room.Id

/-! The nodes that a balancer knows. A node is added after one successful probe and stays until a
    probe of it fails. -/
namespace PeerRelay

structure FleetConfig where
  authKey : String
  /-- Milliseconds between two health checks. -/
  pingRate : Nat
  idLength : Nat
  idAlphabet : IdAlphabet
  /-- How long, in milliseconds, an issued room id is kept for its room while no node lists it. -/
  idReservation : Nat
  verifyOnJoin : Bool
  deriving DecidableEq, Repr

structure FleetNode where
  target : NodeTarget
  load : NodeLoad
  deriving DecidableEq, Repr

abbrev NodeMap := Std.ExtTreeMap RelayAddress FleetNode

structure ListedRoom where
  node : RelayAddress
  listing : RoomListing
  deriving DecidableEq, Repr

structure RoomIndex where
  /-- The rooms by the region of their nodes; the rooms of all nodes are under no preference. -/
  buckets : Std.ExtTreeMap Region (List ListedRoom)
  ids : Std.ExtTreeSet String
  /-- Issued ids that no sweep has seen yet, with the time until which they are kept. -/
  reserved : Std.ExtTreeMap String Nat

def RoomIndex.empty : RoomIndex := ⟨∅, ∅, ∅⟩

def RoomIndex.bucket (i : RoomIndex) (r : Region) : List ListedRoom := i.buckets.getD r []

structure Fleet where
  config : FleetConfig
  nodes : NodeMap
  index : RoomIndex
  started : Nat
  dice : Dice

inductive Registration where
  | added
  | alreadyRegistered
  deriving DecidableEq, Repr

namespace Fleet

def start (config : FleetConfig) (dice : Dice) (now : Nat) : Fleet where
  config := config
  nodes := ∅
  index := .empty
  started := now
  dice := dice

def isRegistered (f : Fleet) (relay : RelayAddress) : Bool := f.nodes.contains relay

def size (f : Fleet) : Nat := f.nodes.size

def evict (f : Fleet) (relay : RelayAddress) : Fleet := { f with nodes := f.nodes.erase relay }

/-- Notes a new answer of a node, unless the node is gone. -/
def storeLoad (f : Fleet) (relay : RelayAddress) (load : NodeLoad) : Fleet :=
  match f.nodes[relay]? with
  | some node => { f with nodes := f.nodes.insert relay { node with load } }
  | none => f

def targets (f : Fleet) : List (RelayAddress × NodeTarget) :=
  f.nodes.toList.map fun (relay, node) => (relay, node.target)

/-- Adds a node that answers. A node that is there already is not even probed. -/
def register {σ : Type} (f : Fleet) (probe : Probe σ) (relay : RelayAddress)
    (target : NodeTarget) : StateM σ (Except ProbeError Registration × Fleet) := do
  if f.isRegistered relay then return (.ok .alreadyRegistered, f)
  else
    match ← probe.load target with
    | .error e => return (.error e, f)
    | .ok load => return (.ok .added, { f with nodes := f.nodes.insert relay ⟨target, load⟩ })

/-- A checked addition: there is no sum if it needs more than 64 bits. -/
def addChecked (a b : UInt64) : Option UInt64 :=
  if a.toNat + b.toNat < UInt64.size then some (a + b) else none

def sumChecked (values : List UInt64) : Option UInt64 := values.foldlM addChecked 0

/-- Totals over the nodes. A sum that overflows is a panic, and then there are no totals at all. -/
def stats (f : Fleet) (now : Nat) : Option FleetStats := do
  let connectedClients ← sumChecked (f.nodes.values.map fun n => n.load.connectedClients)
  let totalRooms ← sumChecked (f.nodes.values.map fun n => n.load.roomCount)
  return {
    nodeCount := UInt64.ofNat f.size
    uptime := UInt64.ofNat ((now - f.started) / 1000)
    connectedClients
    totalRooms }

/-! Choosing the node for a client: the one with the fewest connections, if possible in the region
    the client asks for. -/

def leastLoaded : List (RelayAddress × FleetNode) → Option (RelayAddress × FleetNode)
  | [] => none
  | n :: rest =>
    some (rest.foldl
      (fun best n => if n.2.load.connectedClients < best.2.load.connectedClients then n else best)
      n)

/-- A region without nodes counts as no wish. -/
def choose (nodes : NodeMap) (hint : Option Region) : Option (RelayAddress × FleetNode) :=
  (hint.bind fun region => leastLoaded (nodes.toList.filter fun n => n.1.region = region)).or
    (leastLoaded nodes.toList)

/-- Probes the chosen node before it is handed out. One that fails is evicted and the choice made
    again, at most `tries` times. -/
def selectVerified {σ : Type} (probe : Probe σ) (hint : Option Region) :
    Nat → Fleet → StateM σ (Option RelayAddress × Fleet)
  | 0, f => return (none, f)
  | tries + 1, f => do
    match choose f.nodes hint with
    | none => return (none, f)
    | some (relay, node) =>
      match ← probe.load node.target with
      | .ok load => return (some relay, f.storeLoad relay load)
      | .error _ => selectVerified probe hint tries (f.evict relay)

/-- Every failed try evicts a node, so there are enough tries for all of them. -/
def select {σ : Type} (f : Fleet) (probe : Probe σ) (hint : Option Region) :
    StateM σ (Option RelayAddress × Fleet) := do
  if f.config.verifyOnJoin then selectVerified probe hint f.size f
  else return ((choose f.nodes hint).map Prod.fst, f)

end Fleet

end PeerRelay
