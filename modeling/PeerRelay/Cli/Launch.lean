import PeerRelay.Cli.Balancer
import PeerRelay.Cli.Relay
import PeerRelay.Net.Binding

/-! Starting a relay node or a balancer: its sockets are bound one after the other, and the first
    that cannot be bound ends the start. Then a node that has a balancer registers with it; it runs
    whether or not that works. -/
namespace PeerRelay.Cli

inductive ListenSocket where
  | transport (kind : TransportKind)
  | rendezvous
  | endpoint
  | balancer
  deriving DecidableEq, Repr

namespace ListenSocket

def name : ListenSocket → String
  | .transport .webSocket => "WebSocket transport"
  | .transport .tcp => "TCP transport"
  | .rendezvous => "NAT rendezvous"
  | .endpoint => "relay endpoint"
  | .balancer => "load balancer"

def isDatagram : ListenSocket → Bool
  | .rendezvous => true
  | _ => false

def failure : ListenSocket → String
  | .transport _ => "starting transport"
  | .rendezvous => "binding NAT rendezvous socket"
  | .endpoint => "binding relay endpoint"
  | .balancer => "binding load balancer endpoint"

end ListenSocket

structure Listen where
  socket : ListenSocket
  place : String
  deriving DecidableEq, Repr

/-- How places are looked up: the socket address of a text, if it can be bound. -/
abbrev Binder := String → Option Net.SocketAddress

structure BoundSocket where
  socket : ListenSocket
  address : Net.SocketAddress
  deriving DecidableEq, Repr

/-- Whether a socket stands in the way of another: two of one protocol cannot share an address.
    Port zero means any port that is free. -/
def BoundSocket.blocks (b : BoundSocket) (socket : ListenSocket) (address : Net.SocketAddress) :
    Bool :=
  b.socket.isDatagram == socket.isDatagram && b.address == address && address.port != 0

/-- Binds sockets in order beside those that are bound already, or names the first that cannot be
    bound. -/
def bindAll (binder : Binder) (bound : List BoundSocket) :
    List Listen → Except ListenSocket (List BoundSocket)
  | [] => .ok bound
  | l :: rest =>
    match binder l.place with
    | none => .error l.socket
    | some address =>
      if bound.any (·.blocks l.socket address) then .error l.socket
      else bindAll binder (bound ++ [⟨l.socket, address⟩]) rest

def place (host : String) (port : UInt16) : String := s!"{host}:{port.toNat}"

namespace RelaySettings

def listens (s : RelaySettings) : List Listen :=
  ⟨.transport s.transport, place s.bindAddress s.transportPort⟩ ::
    (if s.natPunch then [⟨.rendezvous, place s.bindAddress s.natPunchPort⟩] else []) ++
    (if s.useEndpoint then [⟨.endpoint, place s.bindAddress s.endpointPort⟩] else [])

end RelaySettings

structure RunningNode where
  node : Node
  sockets : List BoundSocket
  registration : Option (Except UplinkError Unit)

def RelaySettings.launch {σ : Type} (s : RelaySettings) (binder : Binder)
    (exchange : Http.Exchange σ) (dice : Dice) (now : Nat) :
    StateM σ (Except ListenSocket RunningNode) := do
  match bindAll binder [] s.listens with
  | .error socket => return .error socket
  | .ok sockets =>
    let node := s.node dice now
    match node.uplink with
    | none => return .ok ⟨node, sockets, none⟩
    | some u =>
      let registration ← u.register exchange
      return .ok ⟨node, sockets, some registration⟩

def BalancerSettings.launch (s : BalancerSettings) (binder : Binder) (dice : Dice) (now : Nat) :
    Except ListenSocket (Fleet × List BoundSocket) := do
  let sockets ← bindAll binder [] [⟨.balancer, place s.bindAddress s.endpointPort⟩]
  return (Fleet.start s.fleetConfig dice now, sockets)

end PeerRelay.Cli
