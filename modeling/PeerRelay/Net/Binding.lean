import PeerRelay.Net.Address

/-! Where a socket is bound: an address, or a host and a port with a colon between them. Hosts are
    those that can be found without asking anybody: addresses, and this machine under its name. A
    version 4 address may also be given as one to four numbers with dots between them. -/
namespace PeerRelay.Net

/-! Hosts -/

def numeral? (base : Nat) (cs : List Char) : Option Nat := do
  let digits ← cs.mapM Text.hexValue?
  if !cs.isEmpty && digits.all (· < base) then some (digits.foldl (fun n d => base * n + d) 0)
  else none

/-- A number in decimal, in octal after a zero, or in hexadecimal after `0x`. -/
def number? : List Char → Option Nat
  | '0' :: 'x' :: digits => numeral? 16 digits
  | '0' :: 'X' :: digits => numeral? 16 digits
  | '0' :: d :: digits => numeral? 8 (d :: digits)
  | cs => numeral? 10 cs

/-- The value of numbers that together fill some bytes: each is one byte but the last, which fills
    those that remain. -/
def joinNumbers? : Nat → List Nat → Option Nat
  | bytes + 1, [last] => if last < 0x100 ^ (bytes + 1) then some last else none
  | bytes + 1, n :: rest =>
    if n < 0x100 then (joinNumbers? bytes rest).map (0x100 ^ bytes * n + ·) else none
  | _, _ => none

def ofNumber (n : Nat) : IpAddress :=
  .v4 (UInt8.ofNat (n / 0x1000000)) (UInt8.ofNat (n / 0x10000)) (UInt8.ofNat (n / 0x100))
    (UInt8.ofNat n)

def numberedHost? (cs : List Char) : Option IpAddress := do
  let numbers ← (splitAtChar '.' cs).mapM number?
  return ofNumber (← joinNumbers? 4 numbers)

def localHost? (host : String) : Option IpAddress :=
  if Text.lowerAscii host = "localhost" then some (.v4 127 0 0 1)
  else
    match numberedHost? host.toList with
    | some ip => some ip
    | none => (ipv6? host.toList).map .v6

/-! Addresses to bind -/

def splitAtLastColon (cs : List Char) : Option (List Char × List Char) :=
  let port := (cs.reverse.takeWhile (· != ':')).reverse
  if port.length < cs.length then some (cs.take (cs.length - port.length - 1), port) else none

def bindAddress? (lookup : String → Option IpAddress) (s : String) : Option SocketAddress :=
  match SocketAddress.parse? s with
  | some a => some a
  | none => do
    let (host, port) ← splitAtLastColon s.toList
    let port ← Text.decimal? 65535 (String.ofList port)
    let ip ← lookup (String.ofList host)
    return ip.withPort (UInt16.ofNat port)

/-- The low ports are kept for privileged programs. Port zero is none of them: it stands for any
    port that is free. -/
def isReserved (port : UInt16) : Bool := 0 < port && port < 1024

/-- Whether an ordinary program can bind an address on a machine whose own addresses are of
    version 4. -/
def canBind (a : SocketAddress) : Bool :=
  !isReserved a.port &&
    match a with
    | .v4 .. => true
    | .v6 groups .. => groups.all (· == 0)

def bindHere? (s : String) : Option SocketAddress := (bindAddress? localHost? s).filter canBind

end PeerRelay.Net
