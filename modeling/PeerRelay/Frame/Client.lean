import PeerRelay.Connection
import PeerRelay.Frame.OpCode
import PeerRelay.Room.Basic
import PeerRelay.Wire.Reader
import PeerRelay.Wire.Writer

/-! Frames that a peer sends to its relay node. -/
namespace PeerRelay
open Wire

inductive ClientFrame where
  | blank
  | requestId
  | joinRoom (room : String) (canDirect : Bool) (localIp : String)
  | sendData (payload : Bytes) (target : ConnectionId)
  | createRoom (settings : RoomSettings)
  | leaveRoom
  | kickPeer (target : ConnectionId)
  | keyResponse (key : String)
  | updateRoom (update : RoomUpdate)
  deriving DecidableEq, Repr

namespace ClientFrame

def opcode : ClientFrame → OpCode
  | .blank => .blank
  | .requestId => .requestId
  | .joinRoom .. => .joinRoom
  | .sendData .. => .sendData
  | .createRoom _ => .createRoom
  | .leaveRoom => .leaveRoom
  | .kickPeer _ => .kickPeer
  | .keyResponse _ => .keyResponse
  | .updateRoom _ => .updateRoom

def body : ClientFrame → List Field
  | .blank | .requestId | .leaveRoom => []
  | .joinRoom room canDirect localIp => [.text room, .flag canDirect, .text localIp]
  | .sendData payload target => [.blob payload, .number target.index]
  | .createRoom s =>
    [.number s.maxPlayers, .text s.name, .flag s.isPublic, .text s.data, .flag s.supportsDirect,
     .text s.hostLocalIp, .flag s.useNatPunch, .number s.port]
  | .kickPeer target => [.number target.index]
  | .keyResponse key => [.text key]
  | .updateRoom u =>
    Field.optional .text u.name ++ Field.optional .text u.data ++
      Field.optional .flag u.isPublic ++ Field.optional .number u.maxPlayers

def fields (f : ClientFrame) : List Field := .byte f.opcode.code :: f.body

def size (f : ClientFrame) : Nat := fieldsWidth f.fields

def encode (f : ClientFrame) (buffer : Bytes) : Encoded := encodeInto f.fields buffer

def readSettings : Read RoomSettings := do
  let maxPlayers ← readNumber
  let name ← readText
  let isPublic ← readFlag
  let data ← readText
  let supportsDirect ← readFlag
  let hostLocalIp ← readText
  let useNatPunch ← readFlag
  let port ← readNumber
  return { maxPlayers, name, isPublic, data, supportsDirect, hostLocalIp, useNatPunch, port }

def readUpdate : Read RoomUpdate := do
  let name ← readOptional readText
  let data ← readOptional readText
  let isPublic ← readOptional readFlag
  let maxPlayers ← readOptional readNumber
  return { name, data, isPublic, maxPlayers }

/-- The fields that follow an opcode; an opcode of the other direction is refused. -/
def readBody : OpCode → Read ClientFrame
  | .blank => return .blank
  | .requestId => return .requestId
  | .joinRoom => do
    let room ← readText
    let canDirect ← readFlag
    let localIp ← readText
    return .joinRoom room canDirect localIp
  | .sendData => do
    let payload ← readBlob
    let target ← readNumber
    return .sendData payload ⟨target⟩
  | .createRoom => do
    let settings ← readSettings
    return .createRoom settings
  | .leaveRoom => return .leaveRoom
  | .kickPeer => do
    let target ← readNumber
    return .kickPeer ⟨target⟩
  | .keyResponse => do
    let key ← readText
    return .keyResponse key
  | .updateRoom => do
    let update ← readUpdate
    return .updateRoom update
  | other => throw (.misdirectedOpCode other.code)

def read : Read ClientFrame := do
  let b ← readByte
  match OpCode.ofByte? b with
  | some o => readBody o
  | none => throw (.unknownOpCode b)

/-- Bytes after a complete frame are ignored. -/
def decode (bytes : Bytes) : Except Error ClientFrame := decodeWith read bytes

end ClientFrame

end PeerRelay
