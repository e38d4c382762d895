import PeerRelay.Frame.Server
import PeerRelay.Pack
import PeerRelay.Relay.Json
import PeerRelay.Room.Basic

/-! All rooms of a node. Beside the rooms stand two indexes: the room each connection hosts and
    the room each connection has joined. Every operation answers with the frames to send and
    whether the public list of rooms is out of date. -/
namespace PeerRelay
open Wire (Bytes)

structure Outbound where
  recipient : ConnectionId
  frame : ServerFrame
  deriving DecidableEq, Repr

structure Effects where
  outbound : List Outbound := []
  roomsChanged : Bool := false
  deriving DecidableEq, Repr, Inhabited

namespace Effects

def send (e : Effects) (recipient : ConnectionId) (frame : ServerFrame) : Effects :=
  { e with outbound := e.outbound ++ [⟨recipient, frame⟩] }

def changed (e : Effects) : Effects := { e with roomsChanged := true }

end Effects

structure JoinRequest where
  room : String
  canDirect : Bool
  localIp : String
  endpoint : Option Net.SocketAddress
  deriving DecidableEq, Repr

structure Lobby where
  rooms : Std.ExtTreeMap String Room
  hosts : ConnectionMap String
  members : ConnectionMap String

def publicListings (relay : RelayAddress) (rooms : List Room) : List RoomListing :=
  ((rooms.filter Room.isPublic).map fun r => r.listing relay).mergeSort
    fun a b => (compare a.serverId b.serverId).isLE

namespace Lobby

def empty : Lobby := ⟨∅, ∅, ∅⟩

def contains (l : Lobby) (room : String) : Bool := l.rooms.contains room

def get? (l : Lobby) (room : String) : Option Room := l.rooms[room]?

def hostedBy? (l : Lobby) (c : ConnectionId) : Option Room := l.hosts[c]?.bind l.get?

def joinedBy? (l : Lobby) (c : ConnectionId) : Option Room := l.members[c]?.bind l.get?

def roomOf? (l : Lobby) (c : ConnectionId) : Option Room :=
  (l.hosts[c]?.or l.members[c]?).bind l.get?

def size (l : Lobby) : Nat := l.rooms.size

def publicCount (l : Lobby) : Nat := (l.rooms.values.filter Room.isPublic).length

def listings (l : Lobby) (relay : RelayAddress) : List RoomListing :=
  publicListings relay l.rooms.values

def forgetMembers (members : ConnectionMap String) (clients : List ConnectionId) :
    ConnectionMap String :=
  clients.foldl (fun m c => m.erase c) members

/-- Whether an operation limited to the rooms of `required` may touch a room of `host`. -/
def permits (required : Option ConnectionId) (host : ConnectionId) : Bool :=
  required.all (· == host)

def closeRoom (l : Lobby) (host : ConnectionId) (id : String) : Lobby × Effects :=
  let hosts := l.hosts.erase host
  match l.get? id with
  | none => ({ l with hosts }, { roomsChanged := true })
  | some room =>
    ({ rooms := l.rooms.erase id
       hosts
       members := forgetMembers l.members room.clients },
     { outbound := room.clients.map fun c => ⟨c, .roomLeft⟩
       roomsChanged := true })

def dropClient (l : Lobby) (room : Room) (id : String) (c : ConnectionId) : Lobby × Effects :=
  ({ l with
     rooms := l.rooms.insert id { room with clients := room.clients.filter (· != c) }
     members := l.members.erase c },
   { outbound := [⟨room.host, .peerLeft c⟩], roomsChanged := true })

/-- Takes a connection out of its room. With `required` set, only a room hosted by that
    connection is touched. -/
def leave (l : Lobby) (c : ConnectionId) (required : Option ConnectionId) : Lobby × Effects :=
  match l.hosts[c]? with
  | some id => if permits required c then l.closeRoom c id else (l, {})
  | none =>
    match l.members[c]? with
    | none => (l, {})
    | some id =>
      match l.get? id with
      | none => ({ l with members := l.members.erase c }, {})
      | some room => if permits required room.host then l.dropClient room id c else (l, {})

/-- A host may take its own clients out of its room, and nobody else anybody. -/
def kick (l : Lobby) (caller target : ConnectionId) : Lobby × Effects :=
  l.leave target (some caller)

/-- Opens a room, after its host has left the room it was in. A taken id changes nothing. -/
def create (l : Lobby) (host : ConnectionId) (id : String) (s : RoomSettings)
    (endpoint : Option Net.SocketAddress) : Except RoomError (Lobby × Effects) :=
  if l.contains id then .error (.duplicateId id)
  else
    let (l, effects) := l.leave host none
    .ok
      ({ l with
         rooms := l.rooms.insert id (Room.opened id host s endpoint)
         hosts := l.hosts.insert host id },
       (effects.send host (.roomCreated id)).changed)

def directEndpoints? (room : Room) (req : JoinRequest) :
    Option (Net.SocketAddress × Net.SocketAddress) :=
  match req.endpoint, room.hostEndpoint with
  | some caller, some host =>
    if req.canDirect && room.supportsDirect then some (caller, host) else none
  | _, _ => none

/-- The address a caller is given for its host: behind one address, the one on their own network,
    and on one machine that machine's. -/
def directIp (room : Room) (req : JoinRequest) (caller host : Net.SocketAddress) : String :=
  if caller.ip = host.ip then
    if room.hostLocalIp = req.localIp then "127.0.0.1" else room.hostLocalIp
  else host.ip.text

def portNumber (p : UInt16) : Int32 := Int32.ofNat p.toNat

def directPort (room : Room) (host : Net.SocketAddress) : Int32 :=
  if room.useNatPunch then portNumber host.port else room.port

def introductions (room : Room) (c : ConnectionId) (req : JoinRequest) : List Outbound :=
  match directEndpoints? room req with
  | none => [⟨c, .roomJoined c⟩, ⟨room.host, .roomJoined c⟩]
  | some (caller, host) =>
    ⟨c, .directConnect (directIp room req caller host) (directPort room host) room.useNatPunch⟩ ::
      if room.useNatPunch then
        [⟨room.host, .directConnect caller.ip.text (portNumber caller.port) true⟩]
      else []

def enter (l : Lobby) (c : ConnectionId) (req : JoinRequest) : Lobby × Effects :=
  match l.get? req.room with
  | none => (l, { outbound := [⟨c, .roomLeft⟩] })
  | some room =>
    if room.hasFreeSlot then
      ({ l with
         rooms := l.rooms.insert req.room { room with clients := room.clients ++ [c] }
         members := l.members.insert c room.id },
       { outbound := introductions room c req, roomsChanged := true })
    else (l, { outbound := [⟨c, .roomLeft⟩] })

def join (l : Lobby) (c : ConnectionId) (req : JoinRequest) : Lobby × Effects :=
  let (l, left) := l.leave c none
  let (l, entered) := l.enter c req
  (l, ⟨left.outbound ++ entered.outbound, left.roomsChanged || entered.roomsChanged⟩)

/-- A host's data goes to the client it names, a client's data to its host under its own id. -/
def route (l : Lobby) (sender : ConnectionId) (payload : Bytes) (target : ConnectionId) :
    Except RoomError Outbound :=
  match l.hostedBy? sender with
  | some room =>
    if room.hasClient target then .ok ⟨target, .receivedData payload none⟩
    else .error (.notInRoom target)
  | none =>
    match l.joinedBy? sender with
    | some room => .ok ⟨room.host, .receivedData payload (some sender)⟩
    | none => .error (.notInRoom sender)

def update (l : Lobby) (caller : ConnectionId) (u : RoomUpdate) :
    Except RoomError (Lobby × Effects) :=
  match l.hosts[caller]? with
  | none => .error (.notHost caller)
  | some id =>
    match l.get? id with
    | none => .error (.notHost caller)
    | some room =>
      .ok ({ l with rooms := l.rooms.insert id (room.updated u) }, { roomsChanged := !u.isEmpty })

end Lobby

/-! A published room list. Lists are asked for far more often than they change, so the text and its
    packed form are made once per change. -/

structure RoomBoard where
  listings : List RoomListing
  json : String
  packed : String
  deriving DecidableEq, Repr

namespace RoomBoard

def post (listings : List RoomListing) : RoomBoard :=
  let json := RoomListing.listText listings
  ⟨listings, json, Pack.packText json⟩

def empty : RoomBoard := ⟨[], "[]", Pack.packText "[]"⟩

end RoomBoard

end PeerRelay
