/-!
# Web addresses

Which texts are usable as the part of a web address behind `http://`: an authority (a host, possibly
with user information before it and a port behind it), then a path, a query and a fragment.
-/

set_option autoImplicit false

namespace QuorumKeeper.Net

/-- What has been seen of an authority so far. With `atEnd` the last character was an at sign, and
with `isEmpty` there was none. -/
structure AuthorityScan where
  colons : Nat := 0
  opened : Bool := false
  closed : Bool := false
  percent : Bool := false
  atEnd : Bool := false
  isEmpty : Bool := true

namespace AuthorityScan

/-- The character may stand in an authority without a further rule. -/
def isPlain (c : Char) : Bool :=
  c.isAlphanum || "!$&'()*+,-.;=_~".toList.contains c

/-- One more character. -/
def step (s : AuthorityScan) (c : Char) : Option AuthorityScan :=
  let s := { s with isEmpty := false, atEnd := false }
  if c = ':' then
    if 8 ≤ s.colons then none else some { s with colons := s.colons + 1 }
  else if c = '[' then
    if s.percent || s.opened then none else some { s with opened := true }
  else if c = ']' then
    if !s.opened || s.closed then none
    else some { s with closed := true, colons := 0, percent := false }
  else if c = '@' then some { s with colons := 0, percent := false, atEnd := true }
  else if c = '%' then some { s with percent := true }
  else if isPlain c then some s
  else none

/-- What was seen is a complete authority. -/
def isComplete (s : AuthorityScan) : Bool :=
  s.opened == s.closed && s.colons ≤ 1 && !s.atEnd && !s.percent && !s.isEmpty

end AuthorityScan

/-- The character ends an authority. -/
def endsAuthority (c : Char) : Bool :=
  c = '/' || c = '?' || c = '#'

/-- The characters make up a usable authority. -/
def isAuthority (cs : List Char) : Bool :=
  match cs.foldlM AuthorityScan.step {} with
  | some s => s.isComplete
  | none => false

/-- The character may stand in a path. -/
def isPathChar (c : Char) : Bool :=
  let n := c.toNat
  n == 0x21 || (0x24 ≤ n && n ≤ 0x3B) || n == 0x3D || (0x40 ≤ n && n ≤ 0x5F) ||
    (0x61 ≤ n && n ≤ 0x7A) || n == 0x7C || n == 0x7E || 0x7F ≤ n || c = '"' || n == 0x7B ||
    n == 0x7D

/-- The character may stand in a query. -/
def isQueryChar (c : Char) : Bool :=
  let n := c.toNat
  n == 0x21 || (0x24 ≤ n && n ≤ 0x3B) || n == 0x3D || 0x3F ≤ n

/-- The characters make up a path, perhaps with a query, perhaps with a fragment. -/
def isPathAndQuery (cs : List Char) : Bool :=
  let cs := cs.takeWhile (· != '#')
  (cs.takeWhile (· != '?')).all isPathChar && ((cs.dropWhile (· != '?')).drop 1).all isQueryChar

/-- The longest web address in bytes. -/
def maxUriLength : Nat := 65534

/-- The text can stand behind `http://` in a web address. -/
def isUriTail (text : String) : Bool :=
  text.utf8ByteSize + 7 ≤ maxUriLength &&
    isAuthority (text.toList.takeWhile (!endsAuthority ·)) &&
    isPathAndQuery (text.toList.dropWhile (!endsAuthority ·))

end QuorumKeeper.Net
