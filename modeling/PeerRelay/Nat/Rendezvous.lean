import PeerRelay.Connection
import PeerRelay.Dice
import PeerRelay.Frame.Punch
import PeerRelay.Nat.Pairing
import PeerRelay.Net.Address
import PeerRelay.Text

/-! Finding out where peers are seen from outside. A peer is given a token; the source of the
    datagram that brings the token back is the endpoint of the peer, and the token is used up. -/
namespace PeerRelay

structure Rendezvous where
  port : UInt16
  pending : Pairing ConnectionId String
  endpoints : ConnectionMap Net.SocketAddress

/-- Sixteen random bytes as 32 lowercase hex digits. -/
def tokenOf (roll : Roll) : String :=
  Text.hex ((List.range 16).map fun i => UInt8.ofNat (roll i))

namespace Rendezvous

def new (port : UInt16) : Rendezvous := ⟨port, .empty, ∅⟩

def isPending (r : Rendezvous) (token : String) : Bool := (r.pending.left? token).isSome

/-- Gives a connection a token that nobody holds, in place of any earlier one. Nothing is issued
    when the next `tries` tokens are all held. -/
def issue (r : Rendezvous) (c : ConnectionId) (tries : Nat) (dice : Dice) :
    Option String × Rendezvous × Dice :=
  match dice.drawFree tokenOf r.isPending tries with
  | (some token, dice) => (some token, { r with pending := r.pending.insert c token }, dice)
  | (none, dice) => (none, r, dice)

def resolve (r : Rendezvous) (token : String) (source : Net.SocketAddress) :
    Option ConnectionId × Rendezvous :=
  match r.pending.removeRight token with
  | (none, _) => (none, r)
  | (some c, pending) => (some c, { r with pending, endpoints := r.endpoints.insert c source })

def endpoint? (r : Rendezvous) (c : ConnectionId) : Option Net.SocketAddress := r.endpoints[c]?

def forget (r : Rendezvous) (c : ConnectionId) : Rendezvous :=
  { r with pending := (r.pending.removeLeft c).2, endpoints := r.endpoints.erase c }

def pendingCount (r : Rendezvous) : Nat := r.pending.size

/-- Datagrams are cut to this many bytes. -/
def maxDatagram : Nat := 512

/-- Handles a datagram. Every datagram that can be read is acknowledged to its source, whether or
    not it resolves a token; any other is dropped without a reply. -/
def receive (r : Rendezvous) (datagram : Wire.Bytes) (source : Net.SocketAddress) :
    Option Wire.Bytes × Rendezvous :=
  match PunchDatagram.decode (datagram.take maxDatagram) with
  | .error _ => (none, r)
  | .ok .keepAlive => (some punchAcknowledgment, r)
  | .ok (.establish token) => (some punchAcknowledgment, (r.resolve token source).2)

end Rendezvous

end PeerRelay
