import PeerRelay.Wire.Writer
import PeerRelay.Frame.Client
import PeerRelay.Nat.Rendezvous
import PeerRelay.Room.Lobby
import PeerRelay.Room.Id
import PeerRelay.Session
import PeerRelay.Transport.Basic
import PeerRelay.Uplink.Basic

/-! A relay node: what it knows, and what it asks its transport to do. It touches no socket; every
    answer to an event is a list of actions. -/
namespace PeerRelay
open Wire (Bytes)

structure NodeConfig where
  publicIp : String
  transportPort : UInt16
  endpointPort : UInt16
  region : Region
  idLength : Nat
  idAlphabet : IdAlphabet
  authFailure : AuthFailurePolicy
  /-- Milliseconds between two heartbeats. -/
  heartbeatInterval : Nat
  /-- The largest frame, in bytes, that the transport carries. -/
  maxPacket : Nat
  deriving DecidableEq, Repr

def NodeConfig.relay (c : NodeConfig) : RelayAddress :=
  ⟨c.publicIp, c.transportPort, c.endpointPort, c.region⟩

structure Node where
  config : NodeConfig
  authenticator : Authenticator
  sessions : SessionTable
  lobby : Lobby
  rendezvous : Option Rendezvous
  board : RoomBoard
  /-- The board has changed since the balancer was last told. -/
  boardChanged : Bool
  buffers : BufferPool
  uplink : Option Uplink
  roomIds : IdStock
  lastProbe : Nat
  started : Nat
  dice : Dice

inductive Action where
  | send (recipient : ConnectionId) (channel : Channel) (bytes : Bytes)
  | close (id : ConnectionId)
  | datagram (recipient : Net.SocketAddress) (bytes : Bytes)
  deriving DecidableEq, Repr

def maxIdleBuffers : Nat := 64

/-- How far the search for a token is followed. It has no end of its own: if one of these tokens is
    free, following it any further changes nothing, and if none is, the node goes without one. -/
def maxTokenAttempts : Nat := 10000

namespace Node

def start (config : NodeConfig) (authenticator : Authenticator) (rendezvous : Option Rendezvous)
    (uplink : Option Uplink) (dice : Dice) (now : Nat) : Node where
  config := config
  authenticator := authenticator
  sessions := .empty
  lobby := .empty
  rendezvous := rendezvous
  board := .empty
  boardChanged := false
  buffers := { bufferSize := config.maxPacket, maxIdle := maxIdleBuffers }
  uplink := uplink
  roomIds := {}
  lastProbe := now
  started := now
  dice := dice

def relay (n : Node) : RelayAddress := n.config.relay

def endpoint? (n : Node) (id : ConnectionId) : Option Net.SocketAddress :=
  n.rendezvous.bind fun r => r.endpoint? id

def load (n : Node) (now : Nat) : NodeLoad where
  connectedClients := UInt64.ofNat n.sessions.size
  roomCount := UInt64.ofNat n.lobby.size
  publicRoomCount := UInt64.ofNat n.lobby.publicCount
  uptime := UInt64.ofNat ((now - n.started) / 1000)

/-! Sending -/

/-- Encodes a frame in a pooled buffer, which goes back to the pool with whatever was written. -/
def encode (n : Node) (frame : ServerFrame) : Except Wire.Error Bytes × Node :=
  let (buffer, pool) := n.buffers.acquire
  let encoded := frame.encode buffer
  (encoded.result, { n with buffers := pool.release encoded.buffer })

/-- A frame that does not fit into a packet is not sent. -/
def deliver (n : Node) (o : Outbound) : Node × List Action :=
  match n.encode o.frame with
  | (.ok bytes, n) => (n, [.send o.recipient .reliable bytes])
  | (.error _, n) => (n, [])

def deliverAll (n : Node) : List Outbound → Node × List Action
  | [] => (n, [])
  | o :: rest =>
    let (n, first) := n.deliver o
    let (n, others) := n.deliverAll rest
    (n, first ++ others)

def refreshBoard (n : Node) : Node :=
  { n with board := RoomBoard.post (n.lobby.listings n.relay), boardChanged := true }

def apply (n : Node) (effects : Effects) : Node × List Action :=
  let (n, actions) := n.deliverAll effects.outbound
  (if effects.roomsChanged then n.refreshBoard else n, actions)

end Node

end PeerRelay
