import PeerRelay.Json.Value
import PeerRelay.Text

/-! Reading JSON text. The text holds one value with white space around it; there is no limit to
    the depth. -/
namespace PeerRelay.Json

def isBlank (c : Char) : Bool := c = ' ' || c = '\t' || c = '\n' || c = '\r'

def skipBlank (cs : List Char) : List Char := cs.dropWhile isBlank

/-! Strings -/

inductive Piece where
  | char (c : Char)
  | unit (u : UInt16)
  deriving DecidableEq, Repr

def shortEscape? : Char → Option Char
  | '"' => some '"'
  | '\\' => some '\\'
  | '/' => some '/'
  | 'b' => some '\x08'
  | 'f' => some '\x0c'
  | 'n' => some '\n'
  | 'r' => some '\r'
  | 't' => some '\t'
  | _ => none

def unit? (a b c d : Char) : Option UInt16 := do
  let high := 16 * (← Text.hexValue? a) + (← Text.hexValue? b)
  let low := 16 * (← Text.hexValue? c) + (← Text.hexValue? d)
  return UInt16.ofNat (0x100 * high + low)

def pieces? : List Char → Option (List Piece × List Char)
  | [] => none
  | '"' :: rest => some ([], rest)
  | '\\' :: 'u' :: a :: b :: c :: d :: rest => do
    let u ← unit? a b c d
    let (ps, rest) ← pieces? rest
    return (.unit u :: ps, rest)
  | '\\' :: e :: rest => do
    let c ← shortEscape? e
    let (ps, rest) ← pieces? rest
    return (.char c :: ps, rest)
  | c :: rest =>
    if c.toNat < 0x20 || c = '\\' then none
    else do
      let (ps, rest) ← pieces? rest
      return (.char c :: ps, rest)

def spell? : List Piece → Option (List Char)
  | [] => some []
  | .char c :: rest => (spell? rest).map (c :: ·)
  | .unit u :: rest =>
    if Text.isHighSurrogate u then
      match rest with
      | .unit v :: rest' =>
        if Text.isLowSurrogate v then (spell? rest').map (Text.pairChar u v :: ·) else none
      | _ => none
    else if Text.isLowSurrogate u then none
    else (spell? rest).map (Char.ofNat u.toNat :: ·)

def literal? (cs : List Char) : Option (Option String × List Char) := do
  let (ps, rest) ← pieces? cs
  return ((spell? ps).map String.ofList, rest)

/-! Numbers -/

def digitsAt (cs : List Char) : List Char × List Char :=
  (cs.takeWhile Char.isDigit, cs.dropWhile Char.isDigit)

def afterFraction? : List Char → Option (Bool × List Char)
  | '.' :: rest => if (digitsAt rest).1.isEmpty then none else some (true, (digitsAt rest).2)
  | cs => some (false, cs)

def afterExponent? (cs : List Char) : Option (Bool × List Char) :=
  match cs with
  | e :: rest =>
    if e = 'e' || e = 'E' then
      let digits := match rest with
        | '+' :: more => more
        | '-' :: more => more
        | more => more
      if (digitsAt digits).1.isEmpty then none else some (true, (digitsAt digits).2)
    else some (false, cs)
  | [] => some (false, cs)

def unsigned? (cs : List Char) : Option (Nat × Bool × List Char) :=
  let (digits, rest) := digitsAt cs
  if digits.isEmpty || (digits.head? == some '0' && 1 < digits.length) then none
  else do
    let (fraction, rest) ← afterFraction? rest
    let (exponent, rest) ← afterExponent? rest
    return (Text.digitsValue digits, fraction || exponent, rest)

def number? : List Char → Option (Value × List Char)
  | '-' :: cs => do
    let (n, isReal, rest) ← unsigned? cs
    return (if isReal || n = 0 then .real else .integer (-n), rest)
  | cs => do
    let (n, isReal, rest) ← unsigned? cs
    return (if isReal then .real else .integer n, rest)

/-! Values. The fuel bounds the number of nested calls; each consumes a character or ends. -/

mutual

def value? : Nat → List Char → Option (Value × List Char)
  | 0, _ => none
  | fuel + 1, cs =>
    match skipBlank cs with
    | 'n' :: 'u' :: 'l' :: 'l' :: rest => some (.null, rest)
    | 't' :: 'r' :: 'u' :: 'e' :: rest => some (.bool true, rest)
    | 'f' :: 'a' :: 'l' :: 's' :: 'e' :: rest => some (.bool false, rest)
    | '"' :: rest => do
      let (s, rest) ← literal? rest
      return (.string s, rest)
    | '[' :: rest =>
      match skipBlank rest with
      | ']' :: rest => some (.array [], rest)
      | rest => do
        let (items, rest) ← items? fuel rest
        return (.array items, rest)
    | '\x7b' :: rest =>
      match skipBlank rest with
      | '\x7d' :: rest => some (.object [], rest)
      | rest => do
        let (members, rest) ← members? fuel rest
        return (.object members, rest)
    | rest => number? rest

def items? : Nat → List Char → Option (List Value × List Char)
  | 0, _ => none
  | fuel + 1, cs => do
    let (v, rest) ← value? fuel cs
    match skipBlank rest with
    | ',' :: rest => do
      let (vs, rest) ← items? fuel rest
      return (v :: vs, rest)
    | ']' :: rest => return ([v], rest)
    | _ => none

def members? : Nat → List Char → Option (List (Option String × Value) × List Char)
  | 0, _ => none
  | fuel + 1, cs =>
    match skipBlank cs with
    | '"' :: rest => do
      let (key, rest) ← literal? rest
      match skipBlank rest with
      | ':' :: rest => do
        let (v, rest) ← value? fuel rest
        match skipBlank rest with
        | ',' :: rest => do
          let (ms, rest) ← members? fuel rest
          return ((key, v) :: ms, rest)
        | '\x7d' :: rest => return ([(key, v)], rest)
        | _ => none
      | _ => none
    | _ => none

end

def parseChars? (cs : List Char) : Option Value := do
  let (v, rest) ← value? (2 * cs.length + 2) cs
  if (skipBlank rest).isEmpty then some v else none

def parse? (s : String) : Option Value := parseChars? s.toList

end PeerRelay.Json
