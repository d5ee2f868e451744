import Courier.Text.Cut
/-!
Parameters of a media type, as in `text/plain; charset=utf-8`.
-/

namespace Courier.MediaType

def isTokenChar (c : Char) : Bool :=
  33 ≤ c.toNat && c.toNat ≤ 126 && !("()<>@,;:\\\"/[]?=".toList.contains c)

def isBlank (c : Char) : Bool := c == ' ' || c == '\t'

/-- Reads a quoted string after its opening quote; `read` holds its characters, last first. -/
def readQuoted (read : List Char) : List Char → Option (List Char × List Char)
  | [] => none
  | c :: rest =>
    if c = '"' then some (read.reverse, rest)
    else if c = '\\' then
      match rest with
      | [] => none
      | d :: rest => readQuoted (d :: read) rest
    else readQuoted (c :: read) rest

/-- Reads a parameter value: a token or a quoted string. -/
def readValue : List Char → Option (List Char × List Char)
  | '"' :: rest => readQuoted [] rest
  | cs =>
    let token := cs.takeWhile isTokenChar
    if token.isEmpty then none else some (token, cs.dropWhile isTokenChar)

/-- Whether a value may end here. -/
def endsValue : List Char → Bool
  | [] => true
  | c :: _ => c == ';' || isBlank c

/-- Looks through the parameters from the next `;` on; there are fewer than `bound`. -/
def findParameter (name : List Char) : Nat → List Char → Option (List Char)
  | 0, _ => none
  | bound + 1, cs => do
    let (_, rest) ← Text.cut? [';'] cs
    let rest := rest.dropWhile isBlank
    let key := rest.takeWhile isTokenChar
    let rest ← Text.after? ['='] (rest.dropWhile isTokenChar)
    let (value, rest) ← readValue rest
    if !endsValue rest then none
    if key.map Char.toLower = name then return value
    findParameter name bound rest

/-- The value of a parameter, whose name is given in lower case. -/
def parameter? (name text : String) : Option String :=
  (findParameter name.toList (text.length + 1) text.toList).map String.ofList

end Courier.MediaType
