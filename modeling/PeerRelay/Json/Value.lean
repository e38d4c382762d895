/-! JSON values and their compact text. Strings escape the quote, the backslash and the controls
    and nothing else. A string literal whose escapes leave a surrogate alone spells no text; it is
    kept as such, so that a reader can skip it. -/
namespace PeerRelay.Json

inductive Value where
  | null
  | bool (b : Bool)
  | integer (n : Int)
  /-- A number written with a fraction or an exponent, or as minus zero. -/
  | real
  | string (spelling : Option String)
  | array (items : List Value)
  | object (members : List (Option String × Value))
  deriving Repr, Inhabited

def hexDigit4 (n : Nat) : List Char :=
  [Nat.digitChar (n / 0x1000 % 16), Nat.digitChar (n / 0x100 % 16), Nat.digitChar (n / 16 % 16),
   Nat.digitChar (n % 16)]

def escapeChar (c : Char) : List Char :=
  if c = '"' then ['\\', '"']
  else if c = '\\' then ['\\', '\\']
  else if c = '\x08' then ['\\', 'b']
  else if c = '\x0c' then ['\\', 'f']
  else if c = '\n' then ['\\', 'n']
  else if c = '\r' then ['\\', 'r']
  else if c = '\t' then ['\\', 't']
  else if c.toNat < 0x20 then '\\' :: 'u' :: hexDigit4 c.toNat
  else [c]

/-- The literal of a text; a spelling that is none is shown by a lone surrogate. -/
def stringChars : Option String → List Char
  | some s => '"' :: s.toList.flatMap escapeChar ++ ['"']
  | none => ['"', '\\', 'u', 'd', '8', '0', '0', '"']

def integerChars (n : Int) : List Char :=
  if n < 0 then '-' :: Nat.toDigits 10 n.natAbs else Nat.toDigits 10 n.natAbs

mutual

def Value.chars : Value → List Char
  | .null => ['n', 'u', 'l', 'l']
  | .bool true => ['t', 'r', 'u', 'e']
  | .bool false => ['f', 'a', 'l', 's', 'e']
  | .integer n => integerChars n
  | .real => ['-', '0']
  | .string s => stringChars s
  | .array items => '[' :: itemChars items ++ [']']
  | .object members => '\x7b' :: memberChars members ++ ['\x7d']

def itemChars : List Value → List Char
  | [] => []
  | [v] => v.chars
  | v :: w :: rest => v.chars ++ ',' :: itemChars (w :: rest)

def memberChars : List (Option String × Value) → List Char
  | [] => []
  | [(key, v)] => stringChars key ++ ':' :: v.chars
  | (key, v) :: m :: rest => stringChars key ++ ':' :: v.chars ++ ',' :: memberChars (m :: rest)

end

def Value.text (v : Value) : String := String.ofList v.chars

/-! Building values -/

def text (s : String) : Value := .string (some s)

def record (fields : List (String × Value)) : Value :=
  .object (fields.map fun (key, v) => (some key, v))

/-! Taking values apart -/

namespace Value

def text? : Value → Option String
  | .string s => s
  | _ => none

def bool? : Value → Option Bool
  | .bool b => some b
  | _ => none

def integer? (low high : Int) : Value → Option Int
  | .integer n => if low ≤ n ∧ n ≤ high then some n else none
  | _ => none

def nat? (limit : Nat) (v : Value) : Option Nat := (v.integer? 0 limit).map Int.toNat

def int32? (v : Value) : Option Int32 := (v.integer? (-0x80000000) 0x7FFFFFFF).map Int32.ofInt

def uint16? (v : Value) : Option UInt16 := (v.nat? 0xFFFF).map UInt16.ofNat

def uint64? (v : Value) : Option UInt64 := (v.nat? 0xFFFFFFFFFFFFFFFF).map UInt64.ofNat

/-- The value of a field: absent, given once, or, which is refused, given twice. -/
def field? (name : String) (members : List (Option String × Value)) : Option (Option Value) :=
  match members.filter fun m => m.1 == some name with
  | [] => some none
  | [m] => some (some m.2)
  | _ => none

/-- The fields of a record in the order of `names`: by name from an object, in which other members
    are ignored, or by place from an array. -/
def fields? (names : List String) : Value → Option (List (Option Value))
  | .object members =>
    if members.all fun m => m.1.isSome then names.mapM fun name => field? name members else none
  | .array items =>
    if items.length ≤ names.length then
      some (items.map some ++ List.replicate (names.length - items.length) none)
    else none
  | _ => none

end Value

end PeerRelay.Json
