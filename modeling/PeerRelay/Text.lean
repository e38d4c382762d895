import PeerRelay.Text.Printable

/-! Texts: what counts as white space, and the spellings of numbers, bytes, quotations and code
    units. White space is what has the Unicode property `White_Space`. -/
namespace PeerRelay.Text

def isBlank (c : Char) : Bool :=
  let n := c.toNat
  (0x9 ≤ n && n ≤ 0xD) || n = 0x20 || n = 0x85 || n = 0xA0 || n = 0x1680 ||
    (0x2000 ≤ n && n ≤ 0x200A) || n = 0x2028 || n = 0x2029 || n = 0x202F || n = 0x205F ||
    n = 0x3000

def trimChars (cs : List Char) : List Char :=
  ((cs.dropWhile isBlank).reverse.dropWhile isBlank).reverse

def trim (s : String) : String := String.ofList (trimChars s.toList)

def lowerAscii (s : String) : String := String.ofList (s.toList.map Char.toLower)

/-! Digits. A decimal number with an upper bound is digits, at least one, after an optional plus
    sign. -/

def digitsValue (ds : List Char) : Nat := ds.foldl (fun n d => 10 * n + (d.toNat - '0'.toNat)) 0

def decimalChars? (limit : Nat) (cs : List Char) : Option Nat :=
  if !cs.isEmpty && cs.all Char.isDigit && digitsValue cs ≤ limit then some (digitsValue cs)
  else none

def decimal? (limit : Nat) (s : String) : Option Nat :=
  match s.toList with
  | '+' :: rest => decimalChars? limit rest
  | cs => decimalChars? limit cs

def hexValue? (c : Char) : Option Nat :=
  if c.isDigit then some (c.toNat - '0'.toNat)
  else if 'a' ≤ c ∧ c ≤ 'f' then some (c.toNat - 'a'.toNat + 10)
  else if 'A' ≤ c ∧ c ≤ 'F' then some (c.toNat - 'A'.toNat + 10)
  else none

/-! Bytes as hexadecimal digits, two for each byte, in lowercase when written. -/

def hexPair (b : UInt8) : List Char :=
  [Nat.digitChar (b.toNat / 16), Nat.digitChar (b.toNat % 16)]

def hex (bytes : List UInt8) : String := String.ofList (bytes.flatMap hexPair)

def bytesOfHexChars? : List Char → Option (List UInt8)
  | [] => some []
  | [_] => none
  | a :: b :: rest => do
    let high ← hexValue? a
    let low ← hexValue? b
    return UInt8.ofNat (16 * high + low) :: (← bytesOfHexChars? rest)

def bytesOfHex? (s : String) : Option (List UInt8) := bytesOfHexChars? s.toList

/-! Texts quoted for messages: a double quote, a backslash and the common controls get a backslash
    escape, any other character that is not printable its code point in lowercase hex. -/

def escapeChar (c : Char) : List Char :=
  if c = '"' then ['\\', '"']
  else if c = '\\' then ['\\', '\\']
  else if c = '\n' then ['\\', 'n']
  else if c = '\r' then ['\\', 'r']
  else if c = '\t' then ['\\', 't']
  else if c.toNat = 0 then ['\\', '0']
  else if isPrintable c then [c]
  else ['\\', 'u', '\x7b'] ++ Nat.toDigits 16 c.toNat ++ ['\x7d']

def quoted (s : String) : String :=
  String.ofList ('"' :: s.toList.flatMap escapeChar ++ ['"'])

/-! Texts as sequences of 16-bit code units. A character of the basic plane is one unit, any other
    character a high surrogate followed by a low one; `ofUnits?` refuses a surrogate that stands
    alone. -/

def isHighSurrogate (u : UInt16) : Bool := 0xD800 ≤ u && u ≤ 0xDBFF

def isLowSurrogate (u : UInt16) : Bool := 0xDC00 ≤ u && u ≤ 0xDFFF

def charUnits (c : Char) : List UInt16 :=
  if c.toNat < 0x10000 then [UInt16.ofNat c.toNat]
  else
    [UInt16.ofNat (0xD800 + (c.toNat - 0x10000) / 0x400),
     UInt16.ofNat (0xDC00 + (c.toNat - 0x10000) % 0x400)]

def units (s : String) : List UInt16 := s.toList.flatMap charUnits

def pairChar (high low : UInt16) : Char :=
  Char.ofNat (0x10000 + 0x400 * (high.toNat - 0xD800) + (low.toNat - 0xDC00))

def charsOfUnits? : List UInt16 → Option (List Char)
  | [] => some []
  | u :: rest =>
    if isHighSurrogate u then
      match rest with
      | [] => none
      | v :: rest' =>
        if isLowSurrogate v then (charsOfUnits? rest').map (pairChar u v :: ·) else none
    else if isLowSurrogate u then none
    else (charsOfUnits? rest).map (Char.ofNat u.toNat :: ·)

def ofUnits? (us : List UInt16) : Option String := (charsOfUnits? us).map String.ofList

end PeerRelay.Text
