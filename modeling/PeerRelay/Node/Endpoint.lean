import PeerRelay.Http
import PeerRelay.Node.Upkeep
import PeerRelay.Relay.Json

/-! The HTTP endpoint of a node. Asking for the load is how the balancer shows that it is there. -/
namespace PeerRelay

inductive NodeRoute where
  | load
  | rooms
  | packedRooms
  deriving DecidableEq, Repr

def NodeRoute.ofPath? : String → Option NodeRoute
  | "/api/stats" => some .load
  | "/api/servers" => some .rooms
  | "/api/compressed/servers" => some .packedRooms
  | _ => none

namespace Node

def routeHandler (now : Nat) (servesRooms : Bool) : NodeRoute → StateM Node Http.Response
  | .load => do
    modify fun n => n.markProbe now
    let n ← get
    return .json (n.load now).toJson.text
  | .rooms => do
    let n ← get
    return if servesRooms then .json n.board.json else .bare 403
  | .packedRooms => do
    let n ← get
    return if servesRooms then .plain n.board.packed else .bare 403

def respond (n : Node) (now : Nat) (servesRooms : Bool) (r : Http.Request) :
    Http.Response × Node :=
  Http.dispatch r ((NodeRoute.ofPath? r.path).map (routeHandler now servesRooms)) n

end Node

end PeerRelay
