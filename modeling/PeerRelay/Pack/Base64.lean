/-! Base 64 with the standard alphabet. Reading is strict: the padding has to be there, and the
    bits that no byte uses have to be zero. -/
namespace PeerRelay.Base64

def digits : List Char :=
  "ABCDEFGHIJKLMNOPQRSTUVWXYZabcdefghijklmnopqrstuvwxyz0123456789+/".toList

def digit (n : Nat) : Char :=
  if n < 26 then Char.ofNat ('A'.toNat + n)
  else if n < 52 then Char.ofNat ('a'.toNat + (n - 26))
  else if n < 62 then Char.ofNat ('0'.toNat + (n - 52))
  else if n = 62 then '+'
  else '/'

def value? (c : Char) : Option Nat :=
  if 'A' ≤ c ∧ c ≤ 'Z' then some (c.toNat - 'A'.toNat)
  else if 'a' ≤ c ∧ c ≤ 'z' then some (c.toNat - 'a'.toNat + 26)
  else if '0' ≤ c ∧ c ≤ '9' then some (c.toNat - '0'.toNat + 52)
  else if c = '+' then some 62
  else if c = '/' then some 63
  else none

def encode : List UInt8 → List Char
  | [] => []
  | [a] =>
    let n := 0x10 * a.toNat
    [digit (n / 0x40), digit (n % 0x40), '=', '=']
  | [a, b] =>
    let n := 4 * (0x100 * a.toNat + b.toNat)
    [digit (n / 0x1000), digit (n / 0x40 % 0x40), digit (n % 0x40), '=']
  | a :: b :: c :: rest =>
    let n := 0x10000 * a.toNat + 0x100 * b.toNat + c.toNat
    digit (n / 0x40000) :: digit (n / 0x1000 % 0x40) :: digit (n / 0x40 % 0x40) ::
      digit (n % 0x40) :: encode rest

def oneByte? (p q : Nat) : Option (List UInt8) :=
  if q % 0x10 = 0 then some [UInt8.ofNat (p * 4 + q / 0x10)] else none

def twoBytes? (p q r : Nat) : Option (List UInt8) :=
  if r % 4 = 0 then
    some [UInt8.ofNat (4 * p + q / 0x10), UInt8.ofNat (0x10 * q + r / 4)]
  else none

def threeBytes (p q r s : Nat) : List UInt8 :=
  [UInt8.ofNat (4 * p + q / 0x10), UInt8.ofNat (0x10 * q + r / 4), UInt8.ofNat (0x40 * r + s)]

def decode? : List Char → Option (List UInt8)
  | [] => some []
  | [a, b, '=', '='] => do oneByte? (← value? a) (← value? b)
  | [a, b, c, '='] => do twoBytes? (← value? a) (← value? b) (← value? c)
  | a :: b :: c :: d :: rest => do
    let bytes := threeBytes (← value? a) (← value? b) (← value? c) (← value? d)
    return bytes ++ (← decode? rest)
  | _ => none

end PeerRelay.Base64
