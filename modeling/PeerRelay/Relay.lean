import PeerRelay.Region

/-! How a relay node is addressed, the load it reports, the entries of a room list, and the times of
    the tasks that nodes and balancers repeat. -/
namespace PeerRelay

structure RelayAddress where
  address : String
  port : UInt16
  endpointPort : UInt16
  region : Region
  deriving DecidableEq, Repr

namespace RelayAddress

/-- Addresses are ordered by text, port, endpoint port and region, in that order. -/
instance : Ord RelayAddress :=
  ⟨compareLex (compareOn address)
    (compareLex (compareOn port) (compareLex (compareOn endpointPort) (compareOn region)))⟩

instance : Std.TransOrd RelayAddress :=
  inferInstanceAs (Std.TransCmp (compareLex (compareOn address)
    (compareLex (compareOn port) (compareLex (compareOn endpointPort) (compareOn region)))))

instance : Std.LawfulEqOrd RelayAddress where
  eq_of_compare {a b} h := by
    have parts : compareLex (compareOn address)
        (compareLex (compareOn port) (compareLex (compareOn endpointPort) (compareOn region)))
        a b = .eq := h
    simp only [compareLex, compareOn, Ordering.then_eq_eq, Std.LawfulEqOrd.compare_eq_iff_eq]
      at parts
    cases a
    cases b
    simp_all

def label (r : RelayAddress) : String :=
  s!"{r.address}:{r.port.toNat} (endpoint {r.endpointPort.toNat}, {r.region.name})"

end RelayAddress

structure NodeTarget where
  host : String
  port : UInt16
  deriving DecidableEq, Repr

/-- A host with a colon in it is put in brackets. -/
def NodeTarget.text (t : NodeTarget) : String :=
  if t.host.toList.contains ':' then s!"[{t.host}]:{t.port.toNat}" else s!"{t.host}:{t.port.toNat}"

structure NodeLoad where
  connectedClients : UInt64
  roomCount : UInt64
  publicRoomCount : UInt64
  /-- Seconds since the node started. -/
  uptime : UInt64
  deriving DecidableEq, Repr, Inhabited

structure RoomListing where
  serverId : String
  hostId : Int32
  serverName : String
  serverData : String
  isPublic : Bool
  maxPlayers : Int32
  currentPlayers : Int32
  relay : RelayAddress
  deriving DecidableEq, Repr

structure FleetStats where
  nodeCount : UInt64
  uptime : UInt64
  connectedClients : UInt64
  totalRooms : UInt64
  deriving DecidableEq, Repr, Inhabited

/-- The times of a task that starts at `first` and repeats every `interval`, up to and including
    `last`. A task without an interval happens once. -/
def ticks (first interval last : Nat) : List Nat :=
  if last < first then []
  else (List.range ((last - first) / interval + 1)).map fun k => first + k * interval

end PeerRelay
