/-! Targets of requests: a path, which may follow a scheme and an authority and be followed by a
    query and a fragment; an authority alone; or an asterisk. Only the path chooses who answers. -/
namespace PeerRelay.Http

def maxTarget : Nat := 65534

def isDelimiter (c : Char) : Bool := c = '/' || c = '?' || c = '#'

def isPathChar (c : Char) : Bool := '!' ≤ c && !"#<>?`".toList.contains c

def isQueryChar (c : Char) : Bool := '!' ≤ c && !"\"#<>".toList.contains c

def isSchemeChar (c : Char) : Bool := c.isAlphanum || "+-.~".toList.contains c

def isAuthorityChar (c : Char) : Bool := c.isAlphanum || "!$&'()*+,-.;=_~".toList.contains c

/-- The parts of an authority read so far. Colons and percent signs are those of the part that is
    being read: a user ends at `@`, and a host in brackets at its `]`. -/
structure AuthorityScan where
  colons : Nat := 0
  hasPercent : Bool := false
  opened : Bool := false
  closed : Bool := false
  deriving DecidableEq, Repr

def AuthorityScan.step? (s : AuthorityScan) (c : Char) : Option AuthorityScan :=
  match c with
  | '@' => some { s with colons := 0, hasPercent := false }
  | '[' => if s.hasPercent || s.opened then none else some { s with opened := true }
  | ']' =>
    if s.opened && !s.closed then some { s with colons := 0, hasPercent := false, closed := true }
    else none
  | ':' => if s.colons < 8 then some { s with colons := s.colons + 1 } else none
  | '%' => some { s with hasPercent := true }
  | _ => if isAuthorityChar c then some s else none

/-- A user may stand before the host, and a port after it. Brackets enclose a host that holds
    colons. -/
def isAuthority (cs : List Char) : Bool :=
  match cs.foldlM AuthorityScan.step? {} with
  | none => false
  | some s =>
    !cs.isEmpty && cs.getLast? != some '@' && s.opened == s.closed && s.colons ≤ 1 && !s.hasPercent

def frontQuery : List Char → List Char
  | '?' :: rest => rest.takeWhile (· != '#')
  | _ => []

def frontPath? (cs : List Char) : Option String :=
  let path := cs.takeWhile fun c => c ≠ '?' && c ≠ '#'
  if path.all isPathChar && (frontQuery (cs.drop path.length)).all isQueryChar then
    some (if path.isEmpty then "/" else String.ofList path)
  else none

def afterScheme? (cs : List Char) : Option (List Char) :=
  let scheme := cs.takeWhile isSchemeChar
  match cs.drop scheme.length with
  | ':' :: '/' :: '/' :: rest => if scheme.length ≤ 64 then some rest else none
  | _ => none

/-- The path that a target names, if the target is well formed. An authority alone names none. -/
def targetPath? (target : String) : Option String :=
  if maxTarget < target.utf8ByteSize then none
  else
    match target.toList with
    | ['*'] => some "*"
    | '/' :: rest => frontPath? ('/' :: rest)
    | cs =>
      match afterScheme? cs with
      | none => if isAuthority cs then some "" else none
      | some rest =>
        let authority := rest.takeWhile fun c => !isDelimiter c
        if isAuthority authority then frontPath? (rest.drop authority.length) else none

end PeerRelay.Http
