import Std.Data.ExtTreeMap

/-! Connections of a relay node and the two ways of delivering to them. -/
namespace PeerRelay

structure ConnectionId where
  index : Int32
  deriving DecidableEq, Repr, Inhabited

namespace ConnectionId

instance : Ord ConnectionId := ⟨compareOn index⟩

instance : Std.TransOrd ConnectionId := inferInstanceAs (Std.TransCmp (compareOn index))

instance : Std.LawfulEqOrd ConnectionId where
  eq_of_compare {a b} h := by
    have same : compare a.index b.index = .eq := h
    cases a
    cases b
    simpa using same

def label (id : ConnectionId) : String := s!"conn-{id.index.toInt}"

end ConnectionId

abbrev ConnectionMap := Std.ExtTreeMap ConnectionId

inductive Channel where
  | reliable
  | unreliable
  deriving DecidableEq, Repr, Inhabited

namespace Channel

/-- Every index but one means reliable delivery. -/
def ofIndex (n : Int32) : Channel := if n = 1 then .unreliable else .reliable

def index : Channel → Int32
  | .reliable => 0
  | .unreliable => 1

end Channel

end PeerRelay
