import PeerRelay.Room.Lobby

/-!
Requests to a lobby and histories of them. A refused request changes nothing and has no effects,
so every list of requests is a history. An invariant of the histories is one of the steps.
-/
namespace PeerRelay

/-- Everything a lobby can be asked to change, with whatever the peers put into it. -/
inductive LobbyRequest where
  | create (host : ConnectionId) (id : String) (settings : RoomSettings)
      (endpoint : Option Net.SocketAddress)
  | join (caller : ConnectionId) (request : JoinRequest)
  | leave (c : ConnectionId) (required : Option ConnectionId)
  | kick (caller target : ConnectionId)
  | update (caller : ConnectionId) (change : RoomUpdate)
  deriving DecidableEq, Repr

def LobbyRequest.actor : LobbyRequest → ConnectionId
  | .create host .. => host
  | .join caller _ | .kick caller _ | .update caller _ => caller
  | .leave c _ => c

/-- The connections a request is about: the one it comes from and the one to be kicked. -/
def LobbyRequest.named : LobbyRequest → List ConnectionId
  | .create host .. => [host]
  | .join caller _ | .update caller _ => [caller]
  | .leave c _ => [c]
  | .kick caller target => [caller, target]

namespace Lobby

def orUnchanged (l : Lobby) : Except RoomError (Lobby × Effects) → Lobby × Effects
  | .ok result => result
  | .error _ => (l, {})

def serve (l : Lobby) : LobbyRequest → Lobby × Effects
  | .create host id settings endpoint => l.orUnchanged (l.create host id settings endpoint)
  | .join caller request => l.join caller request
  | .leave c required => l.leave c required
  | .kick caller target => l.kick caller target
  | .update caller change => l.orUnchanged (l.update caller change)

def serveAll (l : Lobby) : List LobbyRequest → Lobby × List Effects
  | [] => (l, [])
  | r :: rest =>
    let (l, first) := l.serve r
    let (l, others) := l.serveAll rest
    (l, first :: others)

def framesOf (effects : List Effects) : List Outbound := effects.flatMap Effects.outbound

theorem orUnchanged_cases (l : Lobby) (answer : Except RoomError (Lobby × Effects)) :
    l.orUnchanged answer = (l, {}) ∨ answer = .ok (l.orUnchanged answer) := by
  cases answer with
  | ok result => exact Or.inr rfl
  | error e => exact Or.inl rfl

theorem serve_create_cases (l : Lobby) (host : ConnectionId) (id : String) (s : RoomSettings)
    (endpoint : Option Net.SocketAddress) :
    l.serve (.create host id s endpoint) = (l, {}) ∨
      l.create host id s endpoint = .ok (l.serve (.create host id s endpoint)) :=
  l.orUnchanged_cases _

theorem serve_update_cases (l : Lobby) (caller : ConnectionId) (u : RoomUpdate) :
    l.serve (.update caller u) = (l, {}) ∨
      l.update caller u = .ok (l.serve (.update caller u)) :=
  l.orUnchanged_cases _

theorem serve_create_ok {l : Lobby} {host : ConnectionId} {id : String} {s : RoomSettings}
    {endpoint : Option Net.SocketAddress} {result : Lobby × Effects}
    (created : l.create host id s endpoint = .ok result) :
    l.serve (.create host id s endpoint) = result := by
  rw [serve, created]
  rfl

theorem serve_update_ok {l : Lobby} {caller : ConnectionId} {u : RoomUpdate}
    {result : Lobby × Effects} (updated : l.update caller u = .ok result) :
    l.serve (.update caller u) = result := by
  rw [serve, updated]
  rfl

theorem serveAll_cons (l : Lobby) (r : LobbyRequest) (rest : List LobbyRequest) :
    l.serveAll (r :: rest) =
      (((l.serve r).1.serveAll rest).1, (l.serve r).2 :: ((l.serve r).1.serveAll rest).2) := rfl

/-- What holds at first and is kept by every request holds after every history. -/
theorem serveAll_invariant {P : Lobby → Prop} (step : ∀ l r, P l → P (l.serve r).1)
    (requests : List LobbyRequest) {l : Lobby} (start : P l) : P (l.serveAll requests).1 := by
  induction requests generalizing l with
  | nil => exact start
  | cons r rest ih =>
    rw [serveAll_cons]
    exact ih (step l r start)

end Lobby

end PeerRelay
