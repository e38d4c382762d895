import PeerRelay.Relay
import PeerRelay.Http
import PeerRelay.Net.Address
import PeerRelay.Relay.Json

/-! Asking nodes for their load and for their public rooms. Any failure means that the node is
    down. -/
namespace PeerRelay

inductive ProbeError where
  /-- No connection, or an answer that cannot be read. -/
  | request
  | status (code : Nat)
  deriving DecidableEq, Repr

def ProbeError.message : ProbeError → String
  | .request => "probe request failed"
  | .status code => s!"node answered with status {code}"

/-- How nodes are asked. What they answer may change from one question to the next; `σ` is what it
    depends on. -/
structure Probe (σ : Type) where
  load : NodeTarget → StateM σ (Except ProbeError NodeLoad)
  rooms : NodeTarget → StateM σ (Except ProbeError (List RoomListing))

namespace Probe

def readLoad (body : String) : Except ProbeError NodeLoad :=
  match (Json.parse? body).bind NodeLoad.ofJson? with
  | some load => .ok load
  | none => .error .request

/-- A node with nothing to list may answer `null`. -/
def roomsOfJson? : Json.Value → Option (List RoomListing)
  | .null => some []
  | v => RoomListing.listOfJson? v

def readRooms (body : String) : Except ProbeError (List RoomListing) :=
  match (Json.parse? body).bind roomsOfJson? with
  | some rooms => .ok rooms
  | none => .error .request

def isReachable (t : NodeTarget) : Bool :=
  Http.isHostName t.host || t.host.toList.contains ':' && (Net.IpAddress.parse? t.host).isSome

def fetch {σ : Type} (exchange : Http.Exchange σ) (t : NodeTarget) (path : String) :
    StateM σ (Except ProbeError String) := do
  if isReachable t then
    match ← exchange ⟨.get, path, [("host", t.text)]⟩ with
    | none => return .error .request
    | some response =>
      return if response.isSuccess then .ok response.body else .error (.status response.status)
  else return .error .request

def overHttp {σ : Type} (exchange : Http.Exchange σ) : Probe σ where
  load := fun t => do return (← fetch exchange t "/api/stats").bind readLoad
  rooms := fun t => do return (← fetch exchange t "/api/servers").bind readRooms

end Probe

end PeerRelay
