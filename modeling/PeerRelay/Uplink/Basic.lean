import PeerRelay.Http
import PeerRelay.Relay

/-! The requests a node makes of its balancer: to be registered, to have its rooms listed anew, and
    to be given a room id that no other node uses. -/
namespace PeerRelay

/-! Room ids fetched ahead of time, the oldest first. An id that has been lying around for too long
    is thrown away, because the balancer may have given it to somebody else. -/

structure StockedId where
  id : String
  fetched : Nat
  deriving DecidableEq, Repr

structure IdStock where
  ids : List StockedId := []
  deriving DecidableEq, Repr

namespace IdStock

def capacity : Nat := 4

/-- The age in milliseconds at which an id is thrown away. -/
def maxAge : Nat := 30000

def size (s : IdStock) : Nat := s.ids.length

def prune (s : IdStock) (now : Nat) : IdStock :=
  ⟨s.ids.filter fun i => now - i.fetched < maxAge⟩

def push (s : IdStock) (id : String) (now : Nat) : IdStock := ⟨s.ids ++ [⟨id, now⟩]⟩

def pop (s : IdStock) : Option StockedId × IdStock := (s.ids.head?, ⟨s.ids.tail⟩)

def take (s : IdStock) (now : Nat) : Option String × IdStock :=
  let (i, s) := (s.prune now).pop
  (i.map StockedId.id, s)

end IdStock

/-! The requests -/

structure Uplink where
  address : String
  port : UInt16
  authKey : String
  issuesRoomIds : Bool
  /-- The silence of the balancer, in milliseconds, after which the node registers again. -/
  reregisterAfter : Nat
  relay : RelayAddress
  deriving DecidableEq, Repr

inductive UplinkError where
  | unreachable
  | rejected (status : Nat)
  deriving DecidableEq, Repr

def UplinkError.message : UplinkError → String
  | .unreachable => "load balancer request failed"
  | .rejected status => s!"load balancer rejected request with status {status}"

namespace Uplink

def host (u : Uplink) : String := if u.address = "localhost" then "127.0.0.1" else u.address

def request? (u : Uplink) (target : String) (headers : List (String × String)) :
    Option Http.Request :=
  if Http.isHostName u.host && headers.all fun h => h.2.toList.all Http.isSendable then
    some ⟨.get, target, ("host", s!"{u.host}:{u.port.toNat}") :: headers⟩
  else none

def registration? (u : Uplink) : Option Http.Request :=
  u.request? "/api/auth"
    [("authorization", u.authKey), ("x-endpointport", toString u.relay.endpointPort.toNat),
     ("x-gameport", toString u.relay.port.toNat), ("x-pip", u.relay.address),
     ("x-region", toString u.relay.region.number)]

def notice? (u : Uplink) : Option Http.Request :=
  u.request? "/api/roomsupdated" [("authorization", u.authKey)]

def idRequest? (u : Uplink) : Option Http.Request := u.request? "/api/get/id" []

def ask {σ : Type} (exchange : Http.Exchange σ) (request? : Option Http.Request) :
    StateM σ (Except UplinkError Http.Response) := do
  match request? with
  | none => return .error .unreachable
  | some request =>
    match ← exchange request with
    | none => return .error .unreachable
    | some response =>
      return if response.isSuccess then .ok response else .error (.rejected response.status)

def register {σ : Type} (u : Uplink) (exchange : Http.Exchange σ) :
    StateM σ (Except UplinkError Unit) := do
  return (← ask exchange u.registration?).map fun _ => ()

def announceRooms {σ : Type} (u : Uplink) (exchange : Http.Exchange σ) :
    StateM σ (Except UplinkError Unit) := do
  return (← ask exchange u.notice?).map fun _ => ()

/-- The id in a response: its text without the white space around it. An empty one counts as a
    response without content. -/
def idOf (response : Http.Response) : Except UplinkError String :=
  let id := Text.trim response.body
  if id.isEmpty then .error (.rejected 204) else .ok id

def requestId {σ : Type} (u : Uplink) (exchange : Http.Exchange σ) :
    StateM σ (Except UplinkError String) := do
  return (← ask exchange u.idRequest?).bind idOf

/-- Fetches ids until the stock is full or `missing` were fetched; the first failure ends it. -/
def fetchIds {σ : Type} (u : Uplink) (exchange : Http.Exchange σ) (now : Nat) :
    Nat → IdStock → StateM σ IdStock
  | 0, stock => return stock
  | missing + 1, stock => do
    if stock.size < IdStock.capacity then
      match ← u.requestId exchange with
      | .ok id => u.fetchIds exchange now missing (stock.push id now)
      | .error _ => return stock
    else return stock

def refill {σ : Type} (u : Uplink) (exchange : Http.Exchange σ) (now : Nat) (stock : IdStock) :
    StateM σ IdStock :=
  u.fetchIds exchange now IdStock.capacity (stock.prune now)

end Uplink

end PeerRelay
