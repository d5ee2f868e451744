import Courier.Text.Hex
import Courier.Text.Printable
/-!
Texts in quotes, for descriptions that people read.
-/

namespace Courier.Text

/-- The digits of a code point in lower-case hexadecimal, at most `n` of them. -/
def hexDigits : Nat → Nat → List Char → List Char
  | 0, _, done => done
  | n + 1, code, done =>
    if code < 16 then Hex.lowerDigit code :: done
    else hexDigits n (code / 16) (Hex.lowerDigit (code % 16) :: done)

/-- A character that cannot be shown is written by its code point. -/
def showChar (c : Char) : List Char :=
  if c = '\x00' then ['\\', '0']
  else if c = '\t' then ['\\', 't']
  else if c = '\r' then ['\\', 'r']
  else if c = '\n' then ['\\', 'n']
  else if c = '\\' then ['\\', '\\']
  else if c = '"' then ['\\', '"']
  else if isPrintable c then [c]
  else ['\\', 'u', '\x7b'] ++ hexDigits 6 c.toNat [] ++ ['\x7d']

def quoted (text : String) : String :=
  String.ofList ('"' :: text.toList.flatMap showChar ++ ['"'])

/-- A list of shown things in brackets. -/
def listed (items : List String) : String :=
  "[" ++ String.intercalate ", " items ++ "]"

/-- A thing by its name and fields, as in `Name { a: 1, b: 2 }`; with `more`, unnamed fields
remain. -/
def described (name : String) (fields : List (String × String)) (more : Bool) : String :=
  let shown := fields.map fun f => f.1 ++ ": " ++ f.2
  let shown := if more then shown ++ [".."] else shown
  if shown.isEmpty then name
  else name ++ " \x7b " ++ String.intercalate ", " shown ++ " \x7d"

def optional (shown : Option String) : String :=
  match shown with
  | none => "None"
  | some text => "Some(" ++ text ++ ")"

end Courier.Text
