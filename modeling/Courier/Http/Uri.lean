/-!
Request targets. A text is read as an absolute URI, as a lone authority, as a path or as `*`; a
fragment is dropped.
-/

namespace Courier

structure Uri where
  scheme : Option String
  authority : Option String
  path : String
  query : Option String
  deriving DecidableEq, Repr

namespace Uri

inductive Fault where
  | tooLong
  | empty
  | schemeTooLong
  | invalidCharacter
  | invalidAuthority
  | invalidFormat
  deriving DecidableEq, Repr

def Fault.message : Fault → String
  | .tooLong => "uri too long"
  | .empty => "empty string"
  | .schemeTooLong => "scheme too long"
  | .invalidCharacter => "invalid uri character"
  | .invalidAuthority => "invalid authority"
  | .invalidFormat => "invalid format"

def greatestLength : Nat := 65534

def greatestSchemeLength : Nat := 64

/-- The text of a URI, without the fragment it may have been read with. -/
def render (u : Uri) : String :=
  (match u.scheme with | some s => s ++ "://" | none => "")
    ++ u.authority.getD "" ++ u.path
    ++ (match u.query with | some q => "?" ++ q | none => "")

def isSchemeChar (c : Char) : Bool :=
  c.isAlphanum || c == '+' || c == '-' || c == '.' || c == '~'

/-- The characters that end an authority. -/
def endsAuthority (c : Char) : Bool := c == '/' || c == '?' || c == '#'

def isAuthorityChar (c : Char) : Bool :=
  c.isAlphanum || "!$&'()*+,-.:;=@[]_~%".toList.contains c

def isPathChar (c : Char) : Bool :=
  let n := c.toNat
  n == 0x21 || (0x24 ≤ n && n ≤ 0x3B) || n == 0x3D || (0x40 ≤ n && n ≤ 0x5F)
    || (0x61 ≤ n && n ≤ 0x7A) || n == 0x7C || n == 0x7E
    || c == '"' || c == '\x7b' || c == '\x7d' || 0x80 ≤ n

def isQueryChar (c : Char) : Bool :=
  let n := c.toNat
  n == 0x21 || (0x24 ≤ n && n ≤ 0x3B) || n == 0x3D || (0x3F ≤ n && n ≤ 0x7E) || 0x80 ≤ n

/-- Splits off the scheme and its `://`. The two web schemes are known in any case and are written
in lower case; any other is kept as it is. -/
def splitScheme (cs : List Char) : Except Fault (Option String × List Char) :=
  if (cs.take 7).map Char.toLower = "http://".toList then .ok (some "http", cs.drop 7)
  else if (cs.take 8).map Char.toLower = "https://".toList then .ok (some "https", cs.drop 8)
  else
    let scheme := cs.takeWhile isSchemeChar
    match cs.dropWhile isSchemeChar with
    | ':' :: '/' :: '/' :: rest =>
      if scheme.isEmpty && rest.isEmpty then .ok (none, cs)
      else if greatestSchemeLength < scheme.length then .error .schemeTooLong
      else .ok (some (String.ofList scheme), rest)
    | _ => .ok (none, cs)

/-- What matters of an authority up to some place in it. -/
structure AuthorityScan where
  /-- Colons since the last `@` or `]`. -/
  colons : Nat
  opened : Bool
  closed : Bool
  /-- Whether a `%` stands after the last `@` or `]`. -/
  percent : Bool
  /-- Whether the last character is `@`. -/
  endsAt : Bool

namespace AuthorityScan

def start : AuthorityScan := ⟨0, false, false, false, false⟩

def mostColons : Nat := 8

def step (s : AuthorityScan) (c : Char) : Except Fault AuthorityScan :=
  let s := { s with endsAt := false }
  if !isAuthorityChar c then .error .invalidCharacter
  else if c = ':' then
    if mostColons ≤ s.colons then .error .invalidAuthority
    else .ok { s with colons := s.colons + 1 }
  else if c = '[' then
    if s.percent || s.opened then .error .invalidAuthority
    else .ok { s with opened := true }
  else if c = ']' then
    if !s.opened || s.closed then .error .invalidAuthority
    else .ok { s with closed := true, colons := 0, percent := false }
  else if c = '@' then .ok { s with colons := 0, percent := false, endsAt := true }
  else if c = '%' then .ok { s with percent := true }
  else .ok s

/-- An authority may not end with an open bracket, two colons, an `@` or a loose `%`. -/
def finish (s : AuthorityScan) : Except Fault Unit :=
  if s.opened != s.closed || 1 < s.colons || s.endsAt || s.percent then .error .invalidAuthority
  else .ok ()

end AuthorityScan

/-- Checks an authority character by character. -/
def checkAuthority (cs : List Char) : Except Fault Unit := do
  let s ← cs.foldlM AuthorityScan.step AuthorityScan.start
  s.finish

/-- Reads a path and what follows it. -/
def readTail (cs : List Char) : Except Fault (String × Option String) :=
  let path := cs.takeWhile fun c => c != '?' && c != '#'
  if !path.all isPathChar then .error .invalidCharacter
  else
    match cs.dropWhile fun c => c != '?' && c != '#' with
    | '?' :: rest =>
      let query := rest.takeWhile (· != '#')
      if query.all isQueryChar then .ok (String.ofList path, some (String.ofList query))
      else .error .invalidCharacter
    | _ => .ok (String.ofList path, none)

/-- A path may not be empty where an authority stands before it. -/
def rooted (path : String) : String := if path.isEmpty then "/" else path

/-- Reads a text that starts with no slash: an absolute URI or an authority alone. -/
def readFull (cs : List Char) : Except Fault Uri := do
  let (scheme, rest) ← splitScheme cs
  let authority := rest.takeWhile (!endsAuthority ·)
  let tail := rest.dropWhile (!endsAuthority ·)
  checkAuthority authority
  match scheme with
  | none =>
    if tail.isEmpty then
      return ⟨none, some (String.ofList authority), "", none⟩
    else throw .invalidFormat
  | some scheme =>
    if authority.isEmpty then throw .invalidFormat
    let (path, query) ← readTail tail
    return ⟨some scheme, some (String.ofList authority), rooted path, query⟩

def parse (text : String) : Except Fault Uri :=
  if greatestLength < text.utf8ByteSize then .error .tooLong
  else
    match text.toList with
    | [] => .error .empty
    | ['/'] => .ok ⟨none, none, "/", none⟩
    | ['*'] => .ok ⟨none, none, "*", none⟩
    | [c] =>
      if endsAuthority c then .error .invalidCharacter
      else do
        checkAuthority [c]
        return ⟨none, some (String.ofList [c]), "", none⟩
    | '/' :: rest => do
      let (path, query) ← readTail ('/' :: rest)
      return ⟨none, none, path, query⟩
    | cs => readFull cs

/-- What stands after the last `@` of an authority. -/
def afterUser (authority : List Char) : List Char :=
  (authority.reverse.takeWhile (· != '@')).reverse

/-- The host, with the brackets of an address and without user and port. -/
def host? (u : Uri) : Option String :=
  u.authority.map fun a =>
    match afterUser a.toList with
    | '[' :: rest => String.ofList ('[' :: rest.takeWhile (· != ']') ++ [']'])
    | cs => String.ofList (cs.takeWhile (· != ':'))

/-- The number after the last colon, if it is a port. -/
def port? (u : Uri) : Option Nat :=
  u.authority.bind fun a =>
    let after := (a.toList.reverse.takeWhile (· != ':')).reverse
    let digits := match after with
      | '+' :: rest => rest
      | cs => cs
    if !a.toList.contains ':' || digits.isEmpty || !digits.all Char.isDigit then none
    else
      let n := digits.foldl (fun n c => 10 * n + (c.toNat - 48)) 0
      if n < 65536 then some n else none

end Uri

end Courier
