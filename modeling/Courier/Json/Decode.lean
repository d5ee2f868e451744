import Courier.Json.Printer
import Courier.Json.Reader
import Courier.Text.Quoted
/-!
JSON text read straight into a list of strings or a byte, with complaints about values of the wrong
kind.
-/

namespace Courier.Json

/-- What was found where something else was expected. -/
inductive Found where
  | null
  | bool (b : Bool)
  | number (n : Number)
  | string (text : String)
  | list
  | object

def Found.describe : Found → String
  | .null => "null"
  | .bool b => "boolean `" ++ (if b then "true" else "false") ++ "`"
  | .number (.double sign x) =>
    "floating point `" ++ (Number.double sign x).render ++ "`"
  | .number n => "integer `" ++ n.render ++ "`"
  | .string text => "string " ++ Text.quoted text
  | .list => "sequence"
  | .object => "map"

def wrongKind (found : Found) (expected : String) : Cause :=
  .other ("invalid type: " ++ found.describe ++ ", expected " ++ expected)

def wrongValue (found : Found) (expected : String) : Cause :=
  .other ("invalid value: " ++ found.describe ++ ", expected " ++ expected)

/-- Complains about the value that starts with `b`. A scalar is read first, and what is wrong inside
it comes before its being of the wrong kind. -/
def mismatch {α : Type} (expected : String) (b : UInt8) (rest : Bytes) : Except Fault α :=
  if b = 91 then fail (wrongKind .list expected) (b :: rest)
  else if b = 123 then fail (wrongKind .object expected) (b :: rest)
  else do
    let (v, rest) ← valueWith 0 none (b :: rest)
    let found := match v with
      | .null => Found.null
      | .bool b => .bool b
      | .number n => .number n
      | .string text => .string text
      | .array _ => .list
      | .object _ => .object
    fail (wrongKind found expected) rest

def stringItem : Reader String := fun rest =>
  match skipBlanks rest with
  | [] => failNext .endInValue []
  | b :: rest => if b = 34 then readString rest else mismatch "a string" b rest

/-- Reads a list of strings. -/
def strings (text : Bytes) : Except Error (List String) :=
  readAll (fun rest =>
    match skipBlanks rest with
    | [] => failNext .endInValue []
    | b :: rest =>
      if b = 91 then readItems stringItem (text.length + 1) [] rest
      else mismatch "a sequence" b rest) text

/-- Reads a number from 0 to 255. -/
def byte (text : Bytes) : Except Error Nat :=
  readAll (fun rest =>
    match skipBlanks rest with
    | [] => failNext .endInValue []
    | b :: rest =>
      if b = 45 || isDigit b then do
        let (n, rest) ← readNumber b rest
        match n with
        | .natural k =>
          if k < 256 then .ok (k, rest) else fail (wrongValue (.number n) "u8") rest
        | .negative _ => fail (wrongValue (.number n) "u8") rest
        | .double .. => fail (wrongKind (.number n) "u8") rest
      else mismatch "u8" b rest) text

end Courier.Json
