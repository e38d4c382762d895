import PeerRelay.Connection
import PeerRelay.Frame.OpCode
import PeerRelay.Wire.Reader
import PeerRelay.Wire.Writer

/-! Frames that a relay node sends to its peers, and the keepalive byte outside the opcodes. -/
namespace PeerRelay
open Wire

/-- The keepalive: one byte that is no opcode. -/
def heartbeatByte : UInt8 := 200

inductive ServerFrame where
  | keyRequest
  | authenticated
  | givenId (id : ConnectionId)
  | roomCreated (room : String)
  | roomJoined (client : ConnectionId)
  | roomLeft
  | peerLeft (client : ConnectionId)
  | receivedData (payload : Bytes) (sender : Option ConnectionId)
  | punchRequest (token : String) (port : Int32)
  | directConnect (ip : String) (port : Int32) (useNatPunch : Bool)
  deriving DecidableEq, Repr

namespace ServerFrame

def opcode : ServerFrame → OpCode
  | .keyRequest => .keyRequest
  | .authenticated => .authenticated
  | .givenId _ => .givenId
  | .roomCreated _ => .roomCreated
  | .roomJoined _ => .roomJoined
  | .roomLeft => .roomLeft
  | .peerLeft _ => .peerLeft
  | .receivedData .. => .receivedData
  | .punchRequest .. => .punchRequest
  | .directConnect .. => .directConnect

def body : ServerFrame → List Field
  | .keyRequest | .authenticated | .roomLeft => []
  | .givenId id => [.number id.index]
  | .roomCreated room => [.text room]
  | .roomJoined client | .peerLeft client => [.number client.index]
  | .receivedData payload none => [.blob payload]
  | .receivedData payload (some sender) => [.blob payload, .number sender.index]
  | .punchRequest token port => [.text token, .number port]
  | .directConnect ip port useNatPunch => [.text ip, .number port, .flag useNatPunch]

def fields (f : ServerFrame) : List Field := .byte f.opcode.code :: f.body

def size (f : ServerFrame) : Nat := fieldsWidth f.fields

def encode (f : ServerFrame) (buffer : Bytes) : Encoded := encodeInto f.fields buffer

/-- A sender is recognised by the four bytes it leaves after the payload. -/
def readSender : Read (Option ConnectionId) := do
  if 4 ≤ (← unread) then
    let sender ← readNumber
    return some ⟨sender⟩
  else
    return none

def readBody : OpCode → Read ServerFrame
  | .keyRequest => return .keyRequest
  | .authenticated => return .authenticated
  | .givenId => do
    let id ← readNumber
    return .givenId ⟨id⟩
  | .roomCreated => do
    let room ← readText
    return .roomCreated room
  | .roomJoined => do
    let client ← readNumber
    return .roomJoined ⟨client⟩
  | .roomLeft => return .roomLeft
  | .peerLeft => do
    let client ← readNumber
    return .peerLeft ⟨client⟩
  | .receivedData => do
    let payload ← readBlob
    let sender ← readSender
    return .receivedData payload sender
  | .punchRequest => do
    let token ← readText
    let port ← readNumber
    return .punchRequest token port
  | .directConnect => do
    let ip ← readText
    let port ← readNumber
    let useNatPunch ← readFlag
    return .directConnect ip port useNatPunch
  | other => throw (.misdirectedOpCode other.code)

def read : Read ServerFrame := do
  let b ← readByte
  match OpCode.ofByte? b with
  | some o => readBody o
  | none => throw (.unknownOpCode b)

def decode (bytes : Bytes) : Except Error ServerFrame := decodeWith read bytes

end ServerFrame

end PeerRelay
