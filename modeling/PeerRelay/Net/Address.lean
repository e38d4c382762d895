import PeerRelay.Text

/-! Internet addresses and their texts. A version 6 address is written in lowercase without leading
    zeros, its first longest run of at least two zero groups as `::`; an address that embeds a
    version 4 one shows that one in dotted form. The zone of a version 6 socket, if it has one,
    stands after a percent sign. -/
namespace PeerRelay.Net

inductive IpAddress where
  | v4 (a b c d : UInt8)
  | v6 (groups : Vector UInt16 8)
  deriving DecidableEq, Repr

/-- The zone of a version 6 address tells equal addresses of several networks apart; zero is
    none. -/
inductive SocketAddress where
  | v4 (a b c d : UInt8) (port : UInt16)
  | v6 (groups : Vector UInt16 8) (zone : UInt32) (port : UInt16)
  deriving DecidableEq, Repr

namespace SocketAddress

def ip : SocketAddress → IpAddress
  | .v4 a b c d _ => .v4 a b c d
  | .v6 groups _ _ => .v6 groups

def port : SocketAddress → UInt16
  | .v4 _ _ _ _ port => port
  | .v6 _ _ port => port

end SocketAddress

def IpAddress.withPort (port : UInt16) : IpAddress → SocketAddress
  | .v4 a b c d => .v4 a b c d port
  | .v6 groups => .v6 groups 0 port

/-! Texts of addresses -/

def dotted (a b c d : UInt8) : String := s!"{a.toNat}.{b.toNat}.{c.toNat}.{d.toNat}"

def groupText (g : UInt16) : String := String.ofList (Nat.toDigits 16 g.toNat)

def groupsText (gs : List UInt16) : String := ":".intercalate (gs.map groupText)

def zeroRun (gs : List UInt16) : Nat := (gs.takeWhile (· == 0)).length

/-- Start and length of the first longest run of zeros among the starts `0 … n - 1`. -/
def longestRun (gs : List UInt16) (n : Nat) : Nat × Nat :=
  (List.range n).foldl
    (fun best start =>
      let length := zeroRun (gs.drop start)
      if best.2 < length then (start, length) else best)
    (0, 0)

def compressedGroups (gs : List UInt16) : String :=
  let (start, length) := longestRun gs gs.length
  if 1 < length then groupsText (gs.take start) ++ "::" ++ groupsText (gs.drop (start + length))
  else groupsText gs

def highByte (g : UInt16) : UInt8 := UInt8.ofNat (g.toNat / 0x100)

def lowByte (g : UInt16) : UInt8 := UInt8.ofNat g.toNat

namespace IpAddress

def text : IpAddress → String
  | .v4 a b c d => dotted a b c d
  | .v6 groups =>
    match groups.toList with
    | [0, 0, 0, 0, 0, 0xFFFF, x, y] =>
      "::ffff:" ++ dotted (highByte x) (lowByte x) (highByte y) (lowByte y)
    | gs => compressedGroups gs

end IpAddress

def zoneText (zone : UInt32) : String := if zone = 0 then "" else s!"%{zone.toNat}"

def SocketAddress.text (s : SocketAddress) : String :=
  match s with
  | .v4 .. => s!"{s.ip.text}:{s.port.toNat}"
  | .v6 _ zone _ => s!"[{s.ip.text}{zoneText zone}]:{s.port.toNat}"

/-! Reading addresses -/

def octet? (cs : List Char) : Option UInt8 :=
  match cs with
  | '0' :: _ :: _ => none
  | _ =>
    if cs.length ≤ 3 then (Text.decimalChars? 255 cs).map UInt8.ofNat else none

def splitAtChar (sep : Char) : List Char → List (List Char)
  | [] => [[]]
  | c :: cs =>
    match splitAtChar sep cs with
    | [] => [[c]]
    | piece :: pieces => if c = sep then [] :: piece :: pieces else (c :: piece) :: pieces

def ipv4? (cs : List Char) : Option (UInt8 × UInt8 × UInt8 × UInt8) :=
  match splitAtChar '.' cs with
  | [a, b, c, d] => do return (← octet? a, ← octet? b, ← octet? c, ← octet? d)
  | _ => none

def group? (cs : List Char) : Option UInt16 :=
  if cs.isEmpty || 4 < cs.length then none
  else do
    let digits ← cs.mapM Text.hexValue?
    return UInt16.ofNat (digits.foldl (fun n d => 16 * n + d) 0)

def joinBytes (high low : UInt8) : UInt16 := UInt16.ofNat (0x100 * high.toNat + low.toNat)

/-- Groups between colons; the last piece may be a dotted address, which counts as two. -/
def groups? : List (List Char) → Option (List UInt16)
  | [] => some []
  | [last] =>
    match ipv4? last with
    | some (a, b, c, d) => some [joinBytes a b, joinBytes c d]
    | none => do return [← group? last]
  | piece :: pieces => do return (← group? piece) :: (← groups? pieces)

def colonGroups? (cs : List Char) : Option (List UInt16) :=
  if cs.isEmpty then some [] else groups? (splitAtChar ':' cs)

def splitAtDoubleColon : List Char → Option (List Char × List Char)
  | ':' :: ':' :: rest => some ([], rest)
  | c :: rest => (splitAtDoubleColon rest).map fun (before, after) => (c :: before, after)
  | [] => none

def vector8? (gs : List UInt16) : Option (Vector UInt16 8) :=
  if h : gs.toArray.size = 8 then some ⟨gs.toArray, h⟩ else none

def ipv6? (cs : List Char) : Option (Vector UInt16 8) :=
  match splitAtDoubleColon cs with
  | none => do vector8? (← colonGroups? cs)
  | some (before, after) => do
    if before.contains '.' then none
    let front ← colonGroups? before
    let back ← colonGroups? after
    if 8 ≤ front.length + back.length then none
    vector8? (front ++ List.replicate (8 - front.length - back.length) 0 ++ back)

namespace IpAddress

def parse? (s : String) : Option IpAddress :=
  match ipv4? s.toList with
  | some (a, b, c, d) => some (.v4 a b c d)
  | none => (ipv6? s.toList).map .v6

end IpAddress

def port? (cs : List Char) : Option UInt16 := (Text.decimalChars? 65535 cs).map UInt16.ofNat

def zone? : List Char → Option UInt32
  | [] => some 0
  | '%' :: digits => (Text.decimalChars? 0xFFFFFFFF digits).map UInt32.ofNat
  | _ => none

namespace SocketAddress

def parse? (s : String) : Option SocketAddress :=
  match s.toList with
  | '[' :: rest => do
    let inside := rest.takeWhile (· != ']')
    match rest.drop inside.length with
    | ']' :: ':' :: port =>
      let address := inside.takeWhile (· != '%')
      return .v6 (← ipv6? address) (← zone? (inside.drop address.length)) (← port? port)
    | _ => none
  | cs =>
    match splitAtChar ':' cs with
    | [host, port] => do
      let (a, b, c, d) ← ipv4? host
      return .v4 a b c d (← port? port)
    | _ => none

end SocketAddress

end PeerRelay.Net
