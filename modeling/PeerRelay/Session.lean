import PeerRelay.Connection
import PeerRelay.Net.Address
import PeerRelay.Text

/-! The handshake state of every live connection, and how the key of a peer is checked. -/
namespace PeerRelay

inductive SessionState where
  | pending
  | authenticated
  deriving DecidableEq, Repr

structure Session where
  id : ConnectionId
  state : SessionState
  remote : Net.SocketAddress
  deriving DecidableEq, Repr

def Session.isAuthenticated (s : Session) : Bool := s.state == .authenticated

inductive SessionError where
  | notFound (id : ConnectionId)
  | alreadyAuthenticated (id : ConnectionId)
  | authFailed (reason : String)
  deriving DecidableEq, Repr

def SessionError.message : SessionError → String
  | .notFound id => s!"no session for {id.label}"
  | .alreadyAuthenticated id => s!"{id.label} is already authenticated"
  | .authFailed reason => s!"authentication failed: {reason}"

/-- Decides about a key: nothing to object, or the reason for refusing it. -/
abbrev Authenticator := String → Option String

namespace Authenticator

def sharedKey (secret : String) : Authenticator := fun key =>
  if key = secret then none else some "key mismatch"

def keyList (keys : List String) : Authenticator := fun key =>
  if key ∈ keys then none else some "unknown key"

end Authenticator

inductive AuthFailurePolicy where
  | disconnect
  | ignore
  deriving DecidableEq, Repr, Inhabited

structure UnknownPolicy where
  text : String
  deriving DecidableEq, Repr

def UnknownPolicy.message (e : UnknownPolicy) : String :=
  "unknown auth failure policy " ++ Text.quoted e.text

namespace AuthFailurePolicy

def name : AuthFailurePolicy → String
  | .disconnect => "disconnect"
  | .ignore => "ignore"

def parse (s : String) : Except UnknownPolicy AuthFailurePolicy :=
  match Text.lowerAscii (Text.trim s) with
  | "disconnect" | "strict" => .ok .disconnect
  | "ignore" | "tolerant" => .ok .ignore
  | _ => .error ⟨s⟩

end AuthFailurePolicy

structure SessionTable where
  sessions : ConnectionMap Session

namespace SessionTable

def empty : SessionTable := ⟨∅⟩

def get? (t : SessionTable) (id : ConnectionId) : Option Session := t.sessions[id]?

def isAuthenticated (t : SessionTable) (id : ConnectionId) : Bool :=
  (t.get? id).any Session.isAuthenticated

/-- A new connection starts pending; an earlier session under its id is replaced. -/
def connect (t : SessionTable) (id : ConnectionId) (remote : Net.SocketAddress) : SessionTable :=
  ⟨t.sessions.insert id ⟨id, .pending, remote⟩⟩

def authenticate (t : SessionTable) (id : ConnectionId) (key : String) (check : Authenticator) :
    Except SessionError SessionTable :=
  match t.get? id with
  | none => .error (.notFound id)
  | some session =>
    if session.isAuthenticated then .error (.alreadyAuthenticated id)
    else
      match check key with
      | some reason => .error (.authFailed reason)
      | none => .ok ⟨t.sessions.insert id { session with state := .authenticated }⟩

def disconnect (t : SessionTable) (id : ConnectionId) : SessionTable := ⟨t.sessions.erase id⟩

def authenticatedIds (t : SessionTable) : List ConnectionId :=
  ((t.sessions.values.filter Session.isAuthenticated).map Session.id).mergeSort
    fun a b => (compare a b).isLE

def size (t : SessionTable) : Nat := t.sessions.size

end SessionTable

end PeerRelay
