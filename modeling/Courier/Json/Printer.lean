import Courier.Decimal.Style
import Courier.Json.Basic
import Courier.Text.Hex
/-!
JSON documents as text, without blanks.
-/

namespace Courier.Json

def escapeChar (c : Char) : List Char :=
  if c = '"' then ['\\', '"']
  else if c = '\\' then ['\\', '\\']
  else if c = '\x08' then ['\\', 'b']
  else if c = '\x0c' then ['\\', 'f']
  else if c = '\n' then ['\\', 'n']
  else if c = '\r' then ['\\', 'r']
  else if c = '\t' then ['\\', 't']
  else if c.toNat < 32 then ['\\', 'u', '0', '0'] ++ Hex.lower (UInt8.ofNat c.toNat)
  else [c]

/-- A text in quotes, with quotes, backslashes and control characters escaped. -/
def quote (text : String) : String :=
  String.ofList ('"' :: text.toList.flatMap escapeChar ++ ['"'])

def Number.render : Number → String
  | .natural n => n.repr
  | .negative n => "-" ++ n.repr
  | .double sign x => (Decimal.Binary.finite sign x).render .json .double

mutual
def render : Json → String
  | .null => "null"
  | .bool b => if b then "true" else "false"
  | .number n => n.render
  | .string text => quote text
  | .array items => "[" ++ String.intercalate "," (renderItems items) ++ "]"
  | .object members => "\x7b" ++ String.intercalate "," (renderMembers members) ++ "\x7d"
  termination_by structural j => j

def renderItems : List Json → List String
  | [] => []
  | j :: rest => render j :: renderItems rest
  termination_by structural js => js

def renderMembers : List (String × Json) → List String
  | [] => []
  | (name, j) :: rest => (quote name ++ ":" ++ render j) :: renderMembers rest
  termination_by structural ms => ms
end

end Courier.Json
