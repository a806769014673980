import EventRelay.Text.Utf8

/-!
# Collector addresses

A text is split into a scheme, an authority, a path and a query. The fragment is dropped. Two
readings differ only in the characters that a path or a query may hold: the strict one is confined
to ASCII, the lenient one also takes the characters beyond it.
-/

namespace EventRelay

/-- A split address. -/
structure Uri where
  /-- The scheme, if there is one. -/
  scheme : Option String
  /-- Host, port and user; empty for a bare path. -/
  authority : String
  /-- The path as written. -/
  path : String
  /-- The query after the question mark, if there is one. -/
  query : Option String
  deriving DecidableEq, Repr

/-- Why a text is no address. -/
inductive UriFault
  /-- More than 65534 bytes. -/
  | tooLong
  /-- No text. -/
  | empty
  /-- A character that may not stand at its place. -/
  | character
  /-- A scheme name of more than 64 characters. -/
  | schemeTooLong
  /-- Brackets, colons, at signs or percent signs are misplaced. -/
  | authority
  /-- Parts are missing or stand where they may not. -/
  | format
  deriving DecidableEq, Repr

/-- The explanation given to a reader. -/
def UriFault.message : UriFault → String
  | .tooLong => "uri too long"
  | .empty => "empty string"
  | .character => "invalid uri character"
  | .schemeTooLong => "scheme too long"
  | .authority => "invalid authority"
  | .format => "invalid format"

namespace Uri

/-- Which characters a path or a query may hold. -/
inductive Charset
  /-- ASCII only. -/
  | strict
  /-- ASCII, the delete character and everything beyond. -/
  | lenient
  deriving DecidableEq, Repr

/-- The greatest size of an address in bytes. -/
def maxBytes : Nat := 65534

/-- The greatest length of a scheme name. -/
def maxScheme : Nat := 64

/-- Characters of a scheme name. -/
def isSchemeChar (c : Char) : Bool :=
  c.isAlphanum || c = '+' || c = '-' || c = '.' || c = '~'

/-- Characters of an authority that have no part in its checks. -/
def isAuthorityChar (c : Char) : Bool :=
  c.isAlphanum || "!$&'()*+,-.;=_~".toList.contains c

/-- The code points that a path and a query share. -/
def isSharedChar (charset : Charset) (n : Nat) : Bool :=
  n = 0x21 || (0x24 ≤ n && n ≤ 0x3b) || n = 0x3d || (charset = .lenient && 0x7f ≤ n)

/-- Characters of a path. -/
def isPathChar (charset : Charset) (c : Char) : Bool :=
  let n := c.toNat
  isSharedChar charset n || (0x40 ≤ n && n ≤ 0x5f) || (0x61 ≤ n && n ≤ 0x7a) || n = 0x7c ||
    n = 0x7e || n = 0x22 || n = 0x7b || n = 0x7d

/-- Characters of a query. -/
def isQueryChar (charset : Charset) (c : Char) : Bool :=
  let n := c.toNat
  isSharedChar charset n || (0x3f ≤ n && n ≤ 0x7e)

/-- Whether a text starts with the given lower-case word in any case. -/
def startsWithFold (word : List Char) (cs : List Char) : Bool :=
  (cs.take word.length).map Char.toLower = word

/-- The scheme and what follows its `://`. -/
def splitScheme (cs : List Char) : Except UriFault (Option String × List Char) :=
  if startsWithFold "http://".toList cs then .ok (some "http", cs.drop 7)
  else if startsWithFold "https://".toList cs then .ok (some "https", cs.drop 8)
  else
    let name := cs.takeWhile isSchemeChar
    match cs.drop name.length with
    | ':' :: '/' :: '/' :: rest =>
      if cs.length ≤ 3 then .ok (none, cs)
      else if maxScheme < name.length then .error .schemeTooLong
      else .ok (some (String.ofList name), rest)
    | _ => .ok (none, cs)

/-- What has been seen of an authority. -/
structure AuthorityScan where
  /-- Colons that may still set off a port. -/
  colons : Nat := 0
  /-- An opening bracket was seen. -/
  opened : Bool := false
  /-- A closing bracket was seen. -/
  closed : Bool := false
  /-- A percent sign that nothing has excused. -/
  percent : Bool := false
  /-- The last character was an at sign. -/
  atLast : Bool := false
  deriving DecidableEq, Repr

/-- One character of an authority. An at sign and a closing bracket excuse the colons and percent
signs before them. -/
def AuthorityScan.next (s : AuthorityScan) (c : Char) : Except UriFault AuthorityScan :=
  if c = ':' then
    if 8 ≤ s.colons then .error .authority
    else .ok { s with colons := s.colons + 1, atLast := false }
  else if c = '[' then
    if s.percent || s.opened then .error .authority
    else .ok { s with opened := true, atLast := false }
  else if c = ']' then
    if !s.opened || s.closed then .error .authority
    else .ok { s with closed := true, colons := 0, percent := false, atLast := false }
  else if c = '@' then .ok { s with colons := 0, percent := false, atLast := true }
  else if c = '%' then .ok { s with percent := true, atLast := false }
  else if isAuthorityChar c then .ok { s with atLast := false }
  else .error .character

/-- Whether the authority may end here. -/
def AuthorityScan.complete (s : AuthorityScan) : Bool :=
  s.opened == s.closed && s.colons ≤ 1 && !s.atLast && !s.percent

/-- The characters that end an authority. -/
def endsAuthority (c : Char) : Bool := c = '/' || c = '?' || c = '#'

/-- Checks an authority, which runs up to the first slash, question mark or number sign. -/
def checkAuthority (authority : List Char) : Except UriFault Unit := do
  let scan ← authority.foldlM AuthorityScan.next {}
  if scan.complete then .ok () else .error .authority

/-- Splits and checks path and query; the fragment is dropped. -/
def splitPath (charset : Charset) (cs : List Char) :
    Except UriFault (List Char × Option (List Char)) :=
  let path := cs.takeWhile fun c => c ≠ '?' && c ≠ '#'
  let rest := cs.drop path.length
  if !path.all (isPathChar charset) then .error .character
  else
    match rest with
    | '?' :: more =>
      let query := more.takeWhile (· ≠ '#')
      if query.all (isQueryChar charset) then .ok (path, some query) else .error .character
    | _ => .ok (path, none)

/-- Splits an address and checks its parts. -/
def parse (charset : Charset) (s : String) : Except UriFault Uri := do
  let cs := s.toList
  if maxBytes < Text.byteLength cs then .error .tooLong
  else
    match cs with
    | [] => .error .empty
    | '/' :: _ =>
      let (path, query) ← splitPath charset cs
      return ⟨none, "", String.ofList path, query.map String.ofList⟩
    | _ =>
      let (scheme, rest) ← splitScheme cs
      let authority := rest.takeWhile fun c => !endsAuthority c
      checkAuthority authority
      let rest := rest.drop authority.length
      match scheme with
      | none =>
        if rest = [] then return ⟨none, String.ofList authority, "", none⟩ else .error .format
      | some scheme =>
        if authority = [] then .error .format
        else
          let (path, query) ← splitPath charset rest
          return ⟨some scheme, String.ofList authority, String.ofList path, query.map String.ofList⟩

/-- The path that a request asks for: an empty path is the root. -/
def requestPath (u : Uri) : String :=
  if u.path = "" then (if u.scheme.isNone && u.query.isNone && u.authority ≠ "" then "" else "/")
  else u.path

/-- Path and query. -/
def target (u : Uri) : String :=
  u.requestPath ++ (match u.query with
    | none => ""
    | some q => "?" ++ q)

/-- The address as text. -/
def text (u : Uri) : String :=
  (match u.scheme with
    | none => ""
    | some s => s ++ "://") ++ u.authority ++ u.target

end Uri

end EventRelay
