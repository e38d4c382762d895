import PeerRelay.Fleet.Basic
import PeerRelay.Room.Basic

/-! Sweeps over the nodes, for their loads or for their rooms. A sweep visits the nodes that are
    registered when it begins, in the order of their addresses, and evicts those that do not
    answer. What a sweep for rooms has gathered replaces the index in one go at its end. -/
namespace PeerRelay

structure Harvest where
  buckets : Std.ExtTreeMap Region (List ListedRoom)
  ids : Std.ExtTreeSet String

namespace Harvest

def empty : Harvest := ⟨∅, ∅⟩

def bucket (h : Harvest) (r : Region) : List ListedRoom := h.buckets.getD r []

def put (h : Harvest) (r : Region) (room : ListedRoom) : Harvest :=
  { h with buckets := h.buckets.insert r (h.bucket r ++ [room]) }

/-- Files a room under the region of its node and under no preference. A room whose id was seen
    before is left out. -/
def add (h : Harvest) (node : RelayAddress) (listing : RoomListing) : Harvest :=
  if h.ids.contains listing.serverId then h
  else
    let h := { h with ids := h.ids.insert listing.serverId }
    let h := if node.region = .any then h else h.put node.region ⟨node, listing⟩
    h.put .any ⟨node, listing⟩

def addAll (h : Harvest) (node : RelayAddress) (listings : List RoomListing) : Harvest :=
  listings.foldl (fun h listing => h.add node listing) h

end Harvest

namespace Fleet

def absorb (f : Fleet) (h : Harvest) (relay : RelayAddress) :
    Except ProbeError (List RoomListing) → Harvest × Fleet
  | .ok listings => (h.addAll relay listings, f)
  | .error _ => (h, f.evict relay)

/-- Installs a harvest. A reservation ends when its id was seen or its time is over. -/
def commit (f : Fleet) (h : Harvest) (now : Nat) : Fleet :=
  { f with
    index :=
      { buckets := h.buckets
        ids := h.ids
        reserved := f.index.reserved.filter fun id expiry =>
          now < expiry && !h.ids.contains id } }

def gather {σ : Type} (probe : Probe σ) :
    List (RelayAddress × NodeTarget) → Harvest → Fleet → StateM σ (Harvest × Fleet)
  | [], h, f => return (h, f)
  | (relay, target) :: rest, h, f => do
    let answer ← probe.rooms target
    let (h, f) := f.absorb h relay answer
    gather probe rest h f

def aggregate {σ : Type} (f : Fleet) (probe : Probe σ) (now : Nat) : StateM σ Fleet := do
  let (h, f) ← gather probe f.targets .empty f
  return f.commit h now

def refreshLoads {σ : Type} (probe : Probe σ) :
    List (RelayAddress × NodeTarget) → Fleet → StateM σ (Nat × Fleet)
  | [], f => return (0, f)
  | (relay, target) :: rest, f => do
    match ← probe.load target with
    | .ok load => refreshLoads probe rest (f.storeLoad relay load)
    | .error _ =>
      let (evicted, f) ← refreshLoads probe rest (f.evict relay)
      return (evicted + 1, f)

/-- Probes every node once. When any had to be evicted, the rooms are listed anew. -/
def check {σ : Type} (f : Fleet) (probe : Probe σ) (now : Nat) : StateM σ (Nat × Fleet) := do
  let (evicted, f) ← refreshLoads probe f.targets f
  if evicted = 0 then return (evicted, f)
  else return (evicted, ← f.aggregate probe now)

def checkAll {σ : Type} (probe : Probe σ) : List Nat → Fleet → StateM σ Fleet
  | [], f => return f
  | now :: rest, f => do
    let (_, f) ← f.check probe now
    checkAll probe rest f

/-- The health checks that fall between `first` and `last`; the first is due one interval after
    the start. -/
def healthTask {σ : Type} (f : Fleet) (probe : Probe σ) (first last : Nat) : StateM σ Fleet :=
  checkAll probe (ticks (first + f.config.pingRate) f.config.pingRate last) f

def roomList (f : Fleet) (r : Region) : String :=
  RoomListing.listText ((f.index.bucket r).map ListedRoom.listing)

/-- A room id that the last sweep did not see and that is not kept for anybody. It is kept for the
    caller from now on. -/
def issueRoomId (f : Fleet) (now : Nat) : Except RoomError String × Fleet :=
  let kept := f.index.reserved.filter fun _ expiry => now < expiry
  let taken := fun id => f.index.ids.contains id || kept.contains id
  match drawRoomId f.config.idLength f.config.idAlphabet taken f.dice with
  | (some id, dice) =>
    let reserved := kept.insert id (now + f.config.idReservation)
    (.ok id, { f with dice, index := { f.index with reserved } })
  | (none, dice) =>
    (.error (.idSpaceExhausted maxIdAttempts),
     { f with dice, index := { f.index with reserved := kept } })

end Fleet

/-! Sweeps for rooms that overlap. A sweep holds nothing while a node is being asked, so between its
    steps other sweeps and calls for room ids may run. -/

structure RoomSweep where
  pending : List (RelayAddress × NodeTarget)
  harvest : Harvest

inductive OverlapStep where
  | begin
  /-- A sweep receives the answer of the node it is asking. -/
  | visit (sweep : Nat) (answer : Except ProbeError (List RoomListing))
  /-- A sweep that has asked every node installs what it gathered. -/
  | commit (sweep : Nat)
  | issue

structure Overlap where
  fleet : Fleet
  /-- Every sweep begun so far, in the order of beginning; none once it is over. -/
  sweeps : List (Option RoomSweep) := []

namespace Overlap

def sweep? (o : Overlap) (i : Nat) : Option RoomSweep := (o.sweeps[i]?).join

/-- One step at a time, with the id that was issued. Steps that are not possible change nothing. -/
def step (o : Overlap) (now : Nat) : OverlapStep → Overlap × Option String
  | .begin => ({ o with sweeps := o.sweeps ++ [some ⟨o.fleet.targets, .empty⟩] }, none)
  | .visit i answer =>
    match o.sweep? i with
    | some ⟨(relay, _) :: pending, harvest⟩ =>
      let (harvest, fleet) := o.fleet.absorb harvest relay answer
      (⟨fleet, o.sweeps.set i (some ⟨pending, harvest⟩)⟩, none)
    | _ => (o, none)
  | .commit i =>
    match o.sweep? i with
    | some ⟨[], harvest⟩ => (⟨o.fleet.commit harvest now, o.sweeps.set i none⟩, none)
    | _ => (o, none)
  | .issue =>
    let (id, fleet) := o.fleet.issueRoomId now
    ({ o with fleet }, id.toOption)

def run (o : Overlap) : List (Nat × OverlapStep) → Overlap
  | [] => o
  | (now, s) :: rest => (o.step now s).1.run rest

end Overlap

end PeerRelay
