import PeerRelay.Connection
import PeerRelay.Net.Address
import PeerRelay.Relay
import PeerRelay.Wire.Field

/-! A single hosted room, what a host asks for when it opens one, and what it may change later. -/
namespace PeerRelay

structure RoomSettings where
  maxPlayers : Int32
  name : String
  isPublic : Bool
  data : String
  supportsDirect : Bool
  hostLocalIp : String
  useNatPunch : Bool
  port : Int32
  deriving DecidableEq, Repr, Inhabited

/-- Fields that are absent stay as they are. -/
structure RoomUpdate where
  name : Option String := none
  data : Option String := none
  isPublic : Option Bool := none
  maxPlayers : Option Int32 := none
  deriving DecidableEq, Repr, Inhabited

namespace RoomUpdate

def isEmpty (u : RoomUpdate) : Bool :=
  u.name.isNone && u.data.isNone && u.isPublic.isNone && u.maxPlayers.isNone

def andThen (first second : RoomUpdate) : RoomUpdate where
  name := second.name.or first.name
  data := second.data.or first.data
  isPublic := second.isPublic.or first.isPublic
  maxPlayers := second.maxPlayers.or first.maxPlayers

end RoomUpdate

structure Room where
  id : String
  host : ConnectionId
  /-- Everybody but the host, in the order of joining. -/
  clients : List ConnectionId
  name : String
  data : String
  isPublic : Bool
  /-- The host counts as a player. -/
  maxPlayers : Int32
  /-- Where the host was observed when it opened the room. -/
  hostEndpoint : Option Net.SocketAddress
  hostLocalIp : String
  supportsDirect : Bool
  useNatPunch : Bool
  port : Int32
  deriving DecidableEq, Repr

namespace Room

/-- A room without clients. Direct connections need an observed endpoint to hand out. -/
def opened (id : String) (host : ConnectionId) (s : RoomSettings)
    (endpoint : Option Net.SocketAddress) : Room where
  id := id
  host := host
  clients := []
  name := s.name
  data := s.data
  isPublic := s.isPublic
  maxPlayers := s.maxPlayers
  hostEndpoint := endpoint
  hostLocalIp := s.hostLocalIp
  supportsDirect := endpoint.isSome && s.supportsDirect
  useNatPunch := s.useNatPunch
  port := s.port

/-- Players in the room, host included; the count stops at the largest 32-bit number. -/
def currentPlayers (r : Room) : Int32 := Int32.ofNat (min (r.clients.length + 1) Wire.maxCount)

def hasFreeSlot (r : Room) : Bool := r.currentPlayers < r.maxPlayers

def hasClient (r : Room) (c : ConnectionId) : Bool := r.clients.contains c

def updated (r : Room) (u : RoomUpdate) : Room :=
  { r with
    name := u.name.getD r.name
    data := u.data.getD r.data
    isPublic := u.isPublic.getD r.isPublic
    maxPlayers := u.maxPlayers.getD r.maxPlayers }

def listing (r : Room) (relay : RelayAddress) : RoomListing where
  serverId := r.id
  hostId := r.host.index
  serverName := r.name
  serverData := r.data
  isPublic := r.isPublic
  maxPlayers := r.maxPlayers
  currentPlayers := r.currentPlayers
  relay := relay

end Room

inductive RoomError where
  | notFound (room : String)
  | roomFull (room : String)
  | duplicateId (room : String)
  | notInRoom (id : ConnectionId)
  | notHost (id : ConnectionId)
  | idSpaceExhausted (attempts : Nat)
  deriving DecidableEq, Repr

def RoomError.message : RoomError → String
  | .notFound room => s!"room {room} not found"
  | .roomFull room => s!"room {room} is full"
  | .duplicateId room => s!"room id {room} already in use"
  | .notInRoom id => s!"{id.label} is not in a room"
  | .notHost id => s!"{id.label} does not host a room"
  | .idSpaceExhausted attempts => s!"no free room id after {attempts} attempts"

end PeerRelay
