import PeerRelay.Connection
import PeerRelay.Net.Address
import PeerRelay.Wire.Field

/-! What both kinds of transport have in common: what they report, how a stream of bytes is cut into
    messages, and the table of their connections. -/
namespace PeerRelay
open Wire (Bytes)

inductive TransportKind where
  | webSocket
  | tcp
  deriving DecidableEq, Repr, Inhabited

structure UnknownTransport where
  text : String
  deriving DecidableEq, Repr

def UnknownTransport.message (e : UnknownTransport) : String :=
  "unknown transport " ++ Text.quoted e.text

def TransportKind.parse (s : String) : Except UnknownTransport TransportKind :=
  match Text.lowerAscii s with
  | "websocket" | "ws" | "simplewebtransport" => .ok .webSocket
  | "tcp" | "telepathy" => .ok .tcp
  | _ => .error ⟨s⟩

inductive TransportEvent where
  | connected (id : ConnectionId) (remote : Net.SocketAddress)
  | data (id : ConnectionId) (bytes : Bytes) (channel : Channel)
  | disconnected (id : ConnectionId)
  deriving DecidableEq, Repr

def TransportEvent.id : TransportEvent → ConnectionId
  | .connected id _ | .data id _ _ | .disconnected id => id

/-! Messages on a stream of bytes. Before each message stands its length in four bytes, the highest
    first. The stream may be cut into pieces anywhere. -/

namespace Framing

def maxLength : Nat := 4294967295

def lengthBytes (n : Nat) : Bytes :=
  [UInt8.ofNat (n / 0x1000000), UInt8.ofNat (n / 0x10000), UInt8.ofNat (n / 0x100), UInt8.ofNat n]

def lengthOf (a b c d : UInt8) : Nat :=
  0x1000000 * a.toNat + 0x10000 * b.toNat + 0x100 * c.toNat + d.toNat

/-- The bytes that carry a message. One that is too long for its length is left out. -/
def frame (message : Bytes) : Bytes :=
  if message.length ≤ maxLength then lengthBytes message.length ++ message else []

def frames (messages : List Bytes) : Bytes := messages.flatMap frame

/-- What a stream holds: complete messages, the bytes of an incomplete one, and whether reading
    stops at a length beyond the limit. -/
structure Drained where
  messages : List Bytes
  unread : Bytes
  stopped : Bool
  deriving DecidableEq, Repr

def drain (limit : Nat) : Bytes → Drained
  | a :: b :: c :: d :: rest =>
    let n := lengthOf a b c d
    if limit < n then ⟨[], [], true⟩
    else if n ≤ rest.length then
      let later := drain limit (rest.drop n)
      { later with messages := rest.take n :: later.messages }
    else ⟨[], a :: b :: c :: d :: rest, false⟩
  | short => ⟨[], short, false⟩
termination_by stream => stream.length
decreasing_by
  simp only [List.length_drop, List.length_cons]
  omega

end Framing

/-! The connections of a transport and what is waiting to be written to each. Sending only puts
    something into a queue, and so does closing, so a slow peer holds up nobody. -/

inductive QueueItem where
  | frame (bytes : Bytes)
  | close
  deriving DecidableEq, Repr

structure WriteQueue where
  items : List QueueItem := []
  isServed : Bool := true
  deriving DecidableEq, Repr

inductive TransportError where
  | connectionClosed (id : ConnectionId)
  | unknownConnection (id : ConnectionId)
  deriving DecidableEq, Repr

def TransportError.message : TransportError → String
  | .connectionClosed id => s!"connection closed: {id.label}"
  | .unknownConnection id => s!"unknown connection {id.label}"

structure ConnectionTable where
  /-- A 32-bit counter, which goes on below zero after its largest value. -/
  nextIndex : Int32
  queues : ConnectionMap WriteQueue

namespace ConnectionTable

def empty : ConnectionTable := ⟨1, ∅⟩

def get? (t : ConnectionTable) (id : ConnectionId) : Option WriteQueue := t.queues[id]?

def register (t : ConnectionTable) : ConnectionId × ConnectionTable :=
  (⟨t.nextIndex⟩, ⟨t.nextIndex + 1, t.queues.insert ⟨t.nextIndex⟩ {}⟩)

def remove (t : ConnectionTable) (id : ConnectionId) : ConnectionTable :=
  { t with queues := t.queues.erase id }

def setQueue (t : ConnectionTable) (id : ConnectionId) (q : WriteQueue) : ConnectionTable :=
  { t with queues := t.queues.insert id q }

def push (t : ConnectionTable) (id : ConnectionId) (item : QueueItem) :
    Except TransportError ConnectionTable :=
  match t.get? id with
  | none => .error (.unknownConnection id)
  | some q =>
    if q.isServed then .ok (t.setQueue id { q with items := q.items ++ [item] })
    else .error (.connectionClosed id)

def send (t : ConnectionTable) (id : ConnectionId) (bytes : Bytes) :
    Except TransportError ConnectionTable :=
  t.push id (.frame bytes)

def close (t : ConnectionTable) (id : ConnectionId) : Except TransportError ConnectionTable :=
  t.push id .close

end ConnectionTable

end PeerRelay
