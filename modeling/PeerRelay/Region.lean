import Std.Data.ExtTreeMap
import PeerRelay.Text

/-! Coarse places by which relay nodes are chosen. A region is written as its number or, in any
    case and with any punctuation, by its name or a short form of it. -/
namespace PeerRelay

inductive Region where
  /-- No preference; as a bucket, every room. -/
  | any
  | northAmerica
  | southAmerica
  | europe
  | asia
  | africa
  | oceania
  deriving DecidableEq, Repr, Inhabited

structure UnknownRegion where
  text : String
  deriving DecidableEq, Repr

def UnknownRegion.message (e : UnknownRegion) : String := s!"unknown region {e.text}"

namespace Region

def all : List Region :=
  [.any, .northAmerica, .southAmerica, .europe, .asia, .africa, .oceania]

def number : Region → Nat
  | .any => 0
  | .northAmerica => 1
  | .southAmerica => 2
  | .europe => 3
  | .asia => 4
  | .africa => 5
  | .oceania => 6

def name : Region → String
  | .any => "Any"
  | .northAmerica => "NorthAmerica"
  | .southAmerica => "SouthAmerica"
  | .europe => "Europe"
  | .asia => "Asia"
  | .africa => "Africa"
  | .oceania => "Oceania"

instance : Ord Region := ⟨compareOn number⟩

instance : Std.TransOrd Region := inferInstanceAs (Std.TransCmp (compareOn number))

theorem number_injective {a b : Region} (h : a.number = b.number) : a = b := by
  cases a <;> cases b <;> simp_all [number]

instance : Std.LawfulEqOrd Region where
  eq_of_compare {a b} h := by
    have same : compare a.number b.number = .eq := h
    exact number_injective (Std.LawfulEqCmp.eq_of_compare same)

def ofNumber? (n : Nat) : Option Region := all[n]?

@[simp] theorem ofNumber?_number (r : Region) : ofNumber? r.number = some r := by
  cases r <;> rfl

def ofNumber (n : Nat) : Except UnknownRegion Region :=
  match ofNumber? n with
  | some r => .ok r
  | none => .error ⟨toString n⟩

def ofName? : String → Option Region
  | "any" => some .any
  | "northamerica" | "na" => some .northAmerica
  | "southamerica" | "sa" => some .southAmerica
  | "europe" | "eu" => some .europe
  | "asia" => some .asia
  | "africa" => some .africa
  | "oceania" => some .oceania
  | _ => none

def simplified (s : String) : String :=
  Text.lowerAscii (String.ofList (s.toList.filter Char.isAlphanum))

def parse (s : String) : Except UnknownRegion Region :=
  let t := Text.trim s
  match Text.decimal? 255 t with
  | some n => ofNumber n
  | none =>
    match ofName? (simplified t) with
    | some r => .ok r
    | none => .error ⟨t⟩

end Region

end PeerRelay
