import PeerRelay.Http.Target
import PeerRelay.Text

/-! The part of HTTP that nodes, the balancer and their callers speak. A handler answers GET; HEAD
    gets the same answer without its body, and any other method is refused. -/
namespace PeerRelay.Http

inductive Method where
  | get
  | head
  | other (name : String)
  deriving DecidableEq, Repr

def Method.ofName : String → Method
  | "GET" => .get
  | "HEAD" => .head
  | name => .other name

def isToken (name : String) : Bool :=
  !name.isEmpty && name.toList.all fun c => c.isAlphanum || "!#$%&'*+-.^_`|~".toList.contains c

def Method.isWellFormed : Method → Bool
  | .other name => isToken name
  | _ => true

structure Request where
  method : Method
  target : String
  headers : List (String × String) := []
  deriving DecidableEq, Repr

structure Response where
  status : Nat
  contentType : Option String := none
  body : String := ""
  deriving DecidableEq, Repr

namespace Response

def bare (status : Nat) : Response := { status }

def json (text : String) : Response :=
  { status := 200, contentType := some "application/json", body := text }

def plain (text : String) : Response :=
  { status := 200, contentType := some "text/plain; charset=utf-8", body := text }

def withoutBody (r : Response) : Response := { r with body := "" }

def isSuccess (r : Response) : Bool := 200 ≤ r.status && r.status < 300

end Response

/-- The characters of a header value that can be read as text: the visible ones of ASCII, the
    space and the tab. -/
def isReadable (c : Char) : Bool := c = '\t' || (' ' ≤ c && c ≤ '~')

def isSendable (c : Char) : Bool := c = '\t' || (' ' ≤ c && c ≠ '\x7f')

def isHostName (s : String) : Bool :=
  !s.isEmpty && s.toList.all fun c =>
    ' ' < c && c ≠ '\x7f' && !"#%/:<>?@[\\]^|".toList.contains c

namespace Request

/-- The path of the target, empty if it names none. -/
def path (r : Request) : String := (targetPath? r.target).getD ""

def isWellFormed (r : Request) : Bool :=
  r.method.isWellFormed && (targetPath? r.target).isSome &&
    r.headers.all fun h => isToken h.1 && h.2.toList.all isSendable

/-- The first header of a name, in any case, if its value can be read. -/
def header? (r : Request) (name : String) : Option String := do
  let (_, value) ← r.headers.find? fun h => Text.lowerAscii h.1 == Text.lowerAscii name
  if value.toList.all isReadable then some value else none

end Request

/-- Who answers requests. Without a connection there is no response; `σ` is what the other side
    remembers between two requests. -/
abbrev Exchange (σ : Type) := Request → StateM σ (Option Response)

def unreachable {σ : Type} : Exchange σ := fun _ => pure none

def dispatch {m : Type → Type} [Monad m] (r : Request) (handler? : Option (m Response)) :
    m Response :=
  match handler?, r.method with
  | none, _ => pure (.bare 404)
  | some _, .other _ => pure (.bare 405)
  | some handler, .get => handler
  | some handler, .head => Response.withoutBody <$> handler

end PeerRelay.Http
