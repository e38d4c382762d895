import PeerRelay.Wire.Reader
import PeerRelay.Wire.Writer

/-! Datagrams that a peer sends to the rendezvous socket. -/
namespace PeerRelay
open Wire

inductive PunchDatagram where
  | keepAlive
  | establish (token : String)
  deriving DecidableEq, Repr

namespace PunchDatagram

def fields : PunchDatagram → List Field
  | .keepAlive => [.flag false]
  | .establish token => [.flag true, .text token]

def size (d : PunchDatagram) : Nat := fieldsWidth d.fields

def encode (d : PunchDatagram) (buffer : Bytes) : Encoded := encodeInto d.fields buffer

def read : Read PunchDatagram := do
  if ← readFlag then
    let token ← readText
    return .establish token
  else
    return .keepAlive

/-- Anything after the first byte of a keepalive is ignored. -/
def decode (bytes : Bytes) : Except Error PunchDatagram := decodeWith read bytes

end PunchDatagram

def punchAcknowledgment : Bytes := [1]

end PeerRelay
