import PeerRelay.Fleet.Basic
import PeerRelay.Fleet.Sweep

/-! The HTTP endpoint of a balancer. Nodes show the shared key; clients need none. Every path may
    end in a slash. -/
namespace PeerRelay

inductive FleetRoute where
  | register
  | roomsChanged
  | join
  | rooms
  | roomId
  | stats
  deriving DecidableEq, Repr

namespace FleetRoute

def path : FleetRoute → String
  | .register => "/api/auth"
  | .roomsChanged => "/api/roomsupdated"
  | .join => "/api/join"
  | .rooms => "/api/masterlist"
  | .roomId => "/api/get/id"
  | .stats => "/api/stats"

def all : List FleetRoute := [.register, .roomsChanged, .join, .rooms, .roomId, .stats]

def ofPath? (p : String) : Option FleetRoute :=
  all.find? fun r => r.path == p || r.path ++ "/" == p

end FleetRoute

structure RegistrationHeaders where
  key : String
  endpointPort : String
  gamePort : String
  region : String
  deriving DecidableEq, Repr

namespace RegistrationHeaders

def ofRequest? (r : Http.Request) : Option RegistrationHeaders := do
  return {
    key := ← r.header? "Authorization"
    endpointPort := ← r.header? "x-EndpointPort"
    gamePort := ← r.header? "x-GamePort"
    region := ← r.header? "x-Region" }

def port? (s : String) : Option UInt16 := (Text.decimal? 65535 s).map UInt16.ofNat

def relay? (h : RegistrationHeaders) (address : String) : Option RelayAddress := do
  let endpointPort ← port? h.endpointPort
  let port ← port? h.gamePort
  let region ← (Region.parse h.region).toOption
  return { address, port, endpointPort, region }

end RegistrationHeaders

namespace Fleet

def regionHint (r : Http.Request) : Option Region := do
  (Region.parse (← r.header? "x-Region")).toOption

/-- A node that fails its probe is simply not added; the answer is the same. The node is probed at
    the address its request came from, whatever it calls itself. -/
def answerRegistration {σ : Type} (f : Fleet) (probe : Probe σ) (r : Http.Request)
    (remote : Net.SocketAddress) : StateM σ (Http.Response × Fleet) := do
  let host := remote.ip.text
  match RegistrationHeaders.ofRequest? r with
  | none => return (.bare 403, f)
  | some h =>
    if h.key ≠ f.config.authKey then return (.bare 403, f)
    else
      match h.relay? ((r.header? "x-PIP").getD host) with
      | none => return (.bare 400, f)
      | some relay =>
        let (_, f) ← f.register probe relay ⟨host, relay.endpointPort⟩
        return (.bare 200, f)

/-- Whether a request shows the shared key. An empty key opens nothing. -/
def showsKey (f : Fleet) (r : Http.Request) : Bool :=
  (r.header? "Authorization").any fun key => !key.isEmpty && key == f.config.authKey

def answerRoomsChanged {σ : Type} (f : Fleet) (probe : Probe σ) (now : Nat) (r : Http.Request) :
    StateM σ (Http.Response × Fleet) := do
  if f.showsKey r then return (.bare 200, ← f.aggregate probe now)
  else return (.bare 403, f)

def answerJoin {σ : Type} (f : Fleet) (probe : Probe σ) (r : Http.Request) :
    StateM σ (Http.Response × Fleet) := do
  match ← f.select probe (regionHint r) with
  | (some relay, f) => return (.json relay.toJson.text, f)
  | (none, f) => return (.bare 204, f)

def answerRoomId (f : Fleet) (now : Nat) : Http.Response × Fleet :=
  match f.issueRoomId now with
  | (.ok id, f) => (.plain id, f)
  | (.error _, f) => (.bare 500, f)

/-- The handler of a path. One that panics has no response; the connection is closed. -/
def answer {σ : Type} (f : Fleet) (probe : Probe σ) (now : Nat) (r : Http.Request)
    (remote : Net.SocketAddress) : FleetRoute → StateM σ (Option Http.Response × Fleet)
  | .register => responding <$> f.answerRegistration probe r remote
  | .roomsChanged => responding <$> f.answerRoomsChanged probe now r
  | .join => responding <$> f.answerJoin probe r
  | .rooms => return (some (.json (f.roomList ((regionHint r).getD .any))), f)
  | .roomId => return responding (f.answerRoomId now)
  | .stats => return ((f.stats now).map fun stats => .json stats.toJson.text, f)
where
  responding (out : Http.Response × Fleet) : Option Http.Response × Fleet := (some out.1, out.2)

def respond {σ : Type} (f : Fleet) (probe : Probe σ) (now : Nat) (r : Http.Request)
    (remote : Net.SocketAddress) : StateM σ (Option Http.Response × Fleet) :=
  let handler (route : FleetRoute) : OptionT (StateT Fleet (StateM σ)) Http.Response :=
    OptionT.mk fun f => f.answer probe now r remote route
  (Http.dispatch r ((FleetRoute.ofPath? r.path).map handler)).run f

end Fleet

end PeerRelay
