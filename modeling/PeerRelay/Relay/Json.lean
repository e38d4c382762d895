import PeerRelay.Json.Parser
import PeerRelay.Relay

/-! The JSON forms that nodes, the balancer and their clients exchange. Every field is required but
    the region of an address, which is any when it is missing. -/
namespace PeerRelay
open Json (Value)

def Region.toJson (r : Region) : Value := .integer r.number

def Region.ofJson? (v : Value) : Option Region := do Region.ofNumber? (← v.nat? 255)

namespace RelayAddress

def toJson (r : RelayAddress) : Value :=
  Json.record
    [("address", Json.text r.address), ("port", .integer r.port.toNat),
     ("endpointPort", .integer r.endpointPort.toNat), ("region", r.region.toJson)]

def ofJson? (v : Value) : Option RelayAddress := do
  match ← v.fields? ["address", "port", "endpointPort", "region"] with
  | [some address, some port, some endpointPort, region] =>
    return {
      address := ← address.text?
      port := ← port.uint16?
      endpointPort := ← endpointPort.uint16?
      region := ← match region with
        | some v => Region.ofJson? v
        | none => some .any }
  | _ => none

end RelayAddress

namespace NodeLoad

def toJson (l : NodeLoad) : Value :=
  Json.record
    [("connectedClients", .integer l.connectedClients.toNat),
     ("roomCount", .integer l.roomCount.toNat),
     ("publicRoomCount", .integer l.publicRoomCount.toNat), ("uptime", .integer l.uptime.toNat)]

def ofJson? (v : Value) : Option NodeLoad := do
  match ← v.fields? ["connectedClients", "roomCount", "publicRoomCount", "uptime"] with
  | [some clients, some rooms, some publicRooms, some uptime] =>
    return {
      connectedClients := ← clients.uint64?
      roomCount := ← rooms.uint64?
      publicRoomCount := ← publicRooms.uint64?
      uptime := ← uptime.uint64? }
  | _ => none

end NodeLoad

namespace RoomListing

def fieldNames : List String :=
  ["serverId", "hostId", "serverName", "serverData", "isPublic", "maxPlayers", "currentPlayers",
   "relayInfo"]

def toJson (l : RoomListing) : Value :=
  Json.record
    [("serverId", Json.text l.serverId), ("hostId", .integer l.hostId.toInt),
     ("serverName", Json.text l.serverName), ("serverData", Json.text l.serverData),
     ("isPublic", .bool l.isPublic), ("maxPlayers", .integer l.maxPlayers.toInt),
     ("currentPlayers", .integer l.currentPlayers.toInt), ("relayInfo", l.relay.toJson)]

def ofJson? (v : Value) : Option RoomListing := do
  match ← v.fields? fieldNames with
  | [some serverId, some hostId, some serverName, some serverData, some isPublic, some maxPlayers,
     some currentPlayers, some relay] =>
    return {
      serverId := ← serverId.text?
      hostId := ← hostId.int32?
      serverName := ← serverName.text?
      serverData := ← serverData.text?
      isPublic := ← isPublic.bool?
      maxPlayers := ← maxPlayers.int32?
      currentPlayers := ← currentPlayers.int32?
      relay := ← RelayAddress.ofJson? relay }
  | _ => none

def listToJson (ls : List RoomListing) : Value := .array (ls.map toJson)

def listOfJson? : Value → Option (List RoomListing)
  | .array items => items.mapM ofJson?
  | _ => none

def listText (ls : List RoomListing) : String := (listToJson ls).text

end RoomListing

namespace FleetStats

def toJson (s : FleetStats) : Value :=
  Json.record
    [("nodeCount", .integer s.nodeCount.toNat), ("uptime", .integer s.uptime.toNat),
     ("ccu", .integer s.connectedClients.toNat), ("totalRooms", .integer s.totalRooms.toNat)]

def ofJson? (v : Value) : Option FleetStats := do
  match ← v.fields? ["nodeCount", "uptime", "ccu", "totalRooms"] with
  | [some nodeCount, some uptime, some clients, some totalRooms] =>
    return {
      nodeCount := ← nodeCount.uint64?
      uptime := ← uptime.uint64?
      connectedClients := ← clients.uint64?
      totalRooms := ← totalRooms.uint64? }
  | _ => none

end FleetStats

end PeerRelay
