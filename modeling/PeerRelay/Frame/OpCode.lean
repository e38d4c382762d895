/-! The first byte of every frame. -/
namespace PeerRelay

inductive OpCode where
  | blank
  | requestId
  | joinRoom
  | sendData
  | givenId
  | roomJoined
  | receivedData
  | createRoom
  | roomLeft
  | peerLeft
  | roomCreated
  | leaveRoom
  | kickPeer
  | keyRequest
  | keyResponse
  | authenticated
  | updateRoom
  | punchRequest
  | directConnect
  deriving DecidableEq, Repr

namespace OpCode

def code : OpCode → UInt8
  | .blank => 0
  | .requestId => 1
  | .joinRoom => 2
  | .sendData => 3
  | .givenId => 4
  | .roomJoined => 5
  | .receivedData => 6
  | .createRoom => 7
  | .roomLeft => 8
  | .peerLeft => 9
  | .roomCreated => 10
  | .leaveRoom => 11
  | .kickPeer => 12
  | .keyRequest => 13
  | .keyResponse => 14
  | .authenticated => 17
  | .updateRoom => 18
  | .punchRequest => 20
  | .directConnect => 21

def all : List OpCode :=
  [.blank, .requestId, .joinRoom, .sendData, .givenId, .roomJoined, .receivedData, .createRoom,
   .roomLeft, .peerLeft, .roomCreated, .leaveRoom, .kickPeer, .keyRequest, .keyResponse,
   .authenticated, .updateRoom, .punchRequest, .directConnect]

def ofByte? (b : UInt8) : Option OpCode := all.find? fun o => o.code == b

@[simp] theorem ofByte?_code (o : OpCode) : ofByte? o.code = some o := by
  cases o <;> decide

end OpCode

end PeerRelay
