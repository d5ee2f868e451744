import Courier.Json.Error
import Courier.Json.Printer
/-!
Typed data offered for JSON encoding.

A datum says what kind of thing is encoded. It is either turned into a document, where a repeated
member keeps its first place and takes the last value, or written out directly, where members are
written as they come.
-/

namespace Courier.Json

open Courier.Decimal

inductive Datum where
  | unit
  | absent
  | present (inner : Datum)
  | bool (b : Bool)
  | char (c : Char)
  | text (s : String)
  | bytes (content : Bytes)
  | int (n : Int)
  | single (x : Binary)
  | double (x : Binary)
  | list (items : List Datum)
  | map (entries : List (Datum × Datum))
  | record (fields : List (String × Datum))
  /-- A name around one datum, which JSON does not show. -/
  | wrapper (inner : Datum)
  | tag (name : String)
  | taggedOne (name : String) (inner : Datum)
  | taggedList (name : String) (items : List Datum)
  | taggedRecord (name : String) (fields : List (String × Datum))
  /-- Data that refuses to be encoded and says why. -/
  | refusal (reason : String)
  deriving Repr, Inhabited

namespace Datum

def finiteKey (style : Style) (f : Format) (x : Binary) : Except Error String :=
  if x.isFinite then .ok (x.render style f) else .error ⟨.keyNotFinite, none⟩

/-- The text of a datum used as the name of a member. Only a direct writer looks into what is
present. -/
def key (direct : Bool) : Datum → Except Error String
  | .text s => .ok s
  | .char c => .ok c.toString
  | .bool b => .ok (if b then "true" else "false")
  | .int n => .ok (toString n)
  | .single x => finiteKey .jsonSingle .single x
  | .double x => finiteKey .json .double x
  | .tag name => .ok name
  | .wrapper inner => key direct inner
  | .present inner => if direct then key direct inner else .error ⟨.keyNotString, none⟩
  | .refusal reason => .error (.ofText reason)
  | .unit | .absent | .bytes _ | .list _ | .map _ | .record _ | .taggedOne .. | .taggedList ..
  | .taggedRecord .. => .error ⟨.keyNotString, none⟩
  termination_by structural d => d

def ofByte (b : UInt8) : Json := .number (.natural b.toNat)

mutual
/-- The document that stands for the datum. Single precision numbers are widened. -/
def toJson : Datum → Except Error Json
  | .unit | .absent => .ok .null
  | .present inner | .wrapper inner => toJson inner
  | .bool b => .ok (.bool b)
  | .char c => .ok (.string c.toString)
  | .text s => .ok (.string s)
  | .bytes content => .ok (.array (content.map ofByte))
  | .int n =>
    match Number.ofInt? n with
    | some n => .ok (.number n)
    | none => .error ⟨.numberOutOfRange, none⟩
  | .single x => .ok (Json.ofBinary (x.convert .double))
  | .double x => .ok (Json.ofBinary x)
  | .list items => do return .array (← toJsonItems items)
  | .map entries => do return Json.ofMembers (← toJsonEntries entries)
  | .record fields => do return Json.ofMembers (← toJsonFields fields)
  | .tag name => .ok (.string name)
  | .taggedOne name inner => do return .object [(name, ← toJson inner)]
  | .taggedList name items => do return .object [(name, .array (← toJsonItems items))]
  | .taggedRecord name fields => do
    return .object [(name, Json.ofMembers (← toJsonFields fields))]
  | .refusal reason => .error (.ofText reason)
  termination_by structural d => d

def toJsonItems : List Datum → Except Error (List Json)
  | [] => .ok []
  | d :: rest => do
    let j ← toJson d
    return j :: (← toJsonItems rest)
  termination_by structural ds => ds

def toJsonEntries : List (Datum × Datum) → Except Error (List (String × Json))
  | [] => .ok []
  | (k, d) :: rest => do
    let name ← key false k
    let j ← toJson d
    return (name, j) :: (← toJsonEntries rest)
  termination_by structural es => es

def toJsonFields : List (String × Datum) → Except Error (List (String × Json))
  | [] => .ok []
  | (name, d) :: rest => do
    let j ← toJson d
    return (name, j) :: (← toJsonFields rest)
  termination_by structural fs => fs
end

def writeBinary (style : Style) (f : Format) (x : Binary) : String :=
  if x.isFinite then x.render style f else "null"

def bracket (items : List String) : String := "[" ++ String.intercalate "," items ++ "]"

def brace (members : List String) : String :=
  "\x7b" ++ String.intercalate "," members ++ "\x7d"

mutual
/-- The JSON text of the datum. -/
def write : Datum → Except Error String
  | .unit | .absent => .ok "null"
  | .present inner | .wrapper inner => write inner
  | .bool b => .ok (if b then "true" else "false")
  | .char c => .ok (quote c.toString)
  | .text s => .ok (quote s)
  | .bytes content => .ok (bracket (content.map fun b => b.toNat.repr))
  | .int n => .ok (toString n)
  | .single x => .ok (writeBinary .jsonSingle .single x)
  | .double x => .ok (writeBinary .json .double x)
  | .list items => do return bracket (← writeItems items)
  | .map entries => do return brace (← writeEntries entries)
  | .record fields => do return brace (← writeFields fields)
  | .tag name => .ok (quote name)
  | .taggedOne name inner => do return brace [quote name ++ ":" ++ (← write inner)]
  | .taggedList name items => do return brace [quote name ++ ":" ++ bracket (← writeItems items)]
  | .taggedRecord name fields => do
    return brace [quote name ++ ":" ++ brace (← writeFields fields)]
  | .refusal reason => .error (.ofText reason)
  termination_by structural d => d

def writeItems : List Datum → Except Error (List String)
  | [] => .ok []
  | d :: rest => do
    let text ← write d
    return text :: (← writeItems rest)
  termination_by structural ds => ds

def writeEntries : List (Datum × Datum) → Except Error (List String)
  | [] => .ok []
  | (k, d) :: rest => do
    let name ← key true k
    let text ← write d
    return (quote name ++ ":" ++ text) :: (← writeEntries rest)
  termination_by structural es => es

def writeFields : List (String × Datum) → Except Error (List String)
  | [] => .ok []
  | (name, d) :: rest => do
    let text ← write d
    return (quote name ++ ":" ++ text) :: (← writeFields rest)
  termination_by structural fs => fs
end

end Datum

end Courier.Json
