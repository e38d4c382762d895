import PeerRelay.Node.Basic

/-! What a node does when something happens. A peer is asked for the key when it connects; until
    the key was accepted, nothing else that it sends has any effect. Trouble with one peer is never
    more than that: a frame that cannot be read or followed is dropped. -/
namespace PeerRelay
open Wire (Bytes)

inductive NodeEvent where
  | transport (e : TransportEvent)
  | datagram (bytes : Bytes) (source : Net.SocketAddress)
  | heartbeat
  deriving DecidableEq, Repr

namespace Node

/-! Coming and going -/

def welcome (n : Node) (id : ConnectionId) (remote : Net.SocketAddress) : Node × List Action :=
  { n with sessions := n.sessions.connect id remote }.deliver ⟨id, .keyRequest⟩

def dismiss (n : Node) (id : ConnectionId) : Node × List Action :=
  let (lobby, effects) := n.lobby.leave id none
  let gone : Node :=
    { n with
      lobby
      sessions := n.sessions.disconnect id
      rendezvous := n.rendezvous.map fun r => r.forget id }
  gone.apply effects

def invite (n : Node) (id : ConnectionId) : Node × List Action :=
  match n.rendezvous with
  | none => (n, [])
  | some r =>
    match r.issue id maxTokenAttempts n.dice with
    | (none, r, dice) => ({ n with rendezvous := some r, dice }, [])
    | (some token, r, dice) =>
      { n with rendezvous := some r, dice }.deliver
        ⟨id, .punchRequest token (Lobby.portNumber r.port)⟩

def authenticate (n : Node) (id : ConnectionId) (key : String) : Node × List Action :=
  match n.sessions.authenticate id key n.authenticator with
  | .ok sessions =>
    let (n, greeting) := { n with sessions }.deliver ⟨id, .authenticated⟩
    let (n, invitation) := n.invite id
    (n, greeting ++ invitation)
  | .error (.authFailed _) =>
    match n.config.authFailure with
    | .disconnect => (n, [.close id])
    | .ignore => (n, [])
  | .error _ => (n, [])

/-! Opening rooms -/

def offeredId (n : Node) (now : Nat) : Option String × Node :=
  if n.uplink.any Uplink.issuesRoomIds then
    let (id, roomIds) := n.roomIds.take now
    (id, { n with roomIds })
  else (none, n)

def drawnId (n : Node) : Option String × Node :=
  let (id, dice) := drawRoomId n.config.idLength n.config.idAlphabet n.lobby.contains n.dice
  (id, { n with dice })

/-- The offered id unless a room of this node has it, else one drawn at random. -/
def newRoomId (n : Node) (now : Nat) : Option String × Node :=
  let (offered, n) := n.offeredId now
  match offered with
  | some id => if n.lobby.contains id then n.drawnId else (some id, n)
  | none => n.drawnId

def openRoom (n : Node) (now : Nat) (host : ConnectionId) (settings : RoomSettings) :
    Node × List Action :=
  match n.newRoomId now with
  | (none, n) => (n, [])
  | (some id, n) =>
    match n.lobby.create host id settings (n.endpoint? host) with
    | .ok (lobby, effects) => { n with lobby }.apply effects
    | .error _ => (n, [])

/-! Frames -/

/-- Data that would be too large for a packet costs its sender the connection. -/
def forward (n : Node) (sender : ConnectionId) (payload : Bytes) (target : ConnectionId)
    (channel : Channel) : Node × List Action :=
  match n.lobby.route sender payload target with
  | .error _ => (n, [])
  | .ok o =>
    match n.encode o.frame with
    | (.ok bytes, n) => (n, [.send o.recipient channel bytes])
    | (.error (.overflow ..), n) => (n, [.close sender])
    | (.error _, n) => (n, [])

def settle (n : Node) : Lobby × Effects → Node × List Action
  | (lobby, effects) => { n with lobby }.apply effects

def obey (n : Node) (now : Nat) (id : ConnectionId) (channel : Channel) :
    ClientFrame → Node × List Action
  | .blank | .keyResponse _ => (n, [])
  | .requestId => n.apply { outbound := [⟨id, .givenId id⟩] }
  | .createRoom settings => n.openRoom now id settings
  | .joinRoom room canDirect localIp =>
    n.settle (n.lobby.join id ⟨room, canDirect, localIp, n.endpoint? id⟩)
  | .leaveRoom => n.settle (n.lobby.leave id none)
  | .kickPeer target => n.settle (n.lobby.kick id target)
  | .sendData payload target => n.forward id payload target channel
  | .updateRoom u =>
    match n.lobby.update id u with
    | .ok change => n.settle change
    | .error _ => (n, [])

def receive (n : Node) (now : Nat) (id : ConnectionId) (bytes : Bytes) (channel : Channel) :
    Node × List Action :=
  if bytes = [heartbeatByte] then (n, [])
  else
    match ClientFrame.decode bytes with
    | .error _ => (n, [])
    | .ok (.keyResponse key) => n.authenticate id key
    | .ok frame => if n.sessions.isAuthenticated id then n.obey now id channel frame else (n, [])

def receiveDatagram (n : Node) (bytes : Bytes) (source : Net.SocketAddress) : Node × List Action :=
  match n.rendezvous with
  | none => (n, [])
  | some r =>
    let (reply, r) := r.receive bytes source
    ({ n with rendezvous := some r }, (reply.map (.datagram source)).toList)

/-- The heartbeat goes to every authenticated peer, in ascending order of the ids. -/
def heartbeat (n : Node) : List Action :=
  n.sessions.authenticatedIds.map fun id => .send id .reliable [heartbeatByte]

def handle (n : Node) (now : Nat) : NodeEvent → Node × List Action
  | .transport (.connected id remote) => n.welcome id remote
  | .transport (.data id bytes channel) => n.receive now id bytes channel
  | .transport (.disconnected id) => n.dismiss id
  | .datagram bytes source => n.receiveDatagram bytes source
  | .heartbeat => (n, n.heartbeat)

def run (n : Node) : List (Nat × NodeEvent) → Node × List Action
  | [] => (n, [])
  | (now, e) :: rest =>
    let (n, first) := n.handle now e
    let (n, others) := n.run rest
    (n, first ++ others)

end Node

end PeerRelay
