import Courier.Decimal.Binary
/-!
JSON documents. A number is kept as the reader found it: a natural or negative integer of 64 bits,
or else a double. Members of an object keep their order and have different names.
-/

namespace Courier

namespace Json

inductive Number where
  | natural (n : Nat)
  | negative (magnitude : Nat)
  | double (negative : Bool) (magnitude : Decimal.Finite)
  deriving DecidableEq, Repr

/-- The integers that a number holds exactly: from `-2 ^ 63` up to `2 ^ 64 - 1`. -/
def Number.ofInt? (n : Int) : Option Number :=
  match n with
  | .ofNat n => if n < 0x10000000000000000 then some (.natural n) else none
  | .negSucc k => if k < 0x8000000000000000 then some (.negative (k + 1)) else none

end Json

inductive Json where
  | null
  | bool (b : Bool)
  | number (n : Json.Number)
  | string (text : String)
  | array (items : List Json)
  | object (members : List (String × Json))
  deriving Repr, Inhabited

namespace Json

/-- Sets a member: a name that is already there keeps its place and takes the new value. -/
def setMember (members : List (String × Json)) (name : String) (value : Json) :
    List (String × Json) :=
  if members.any (·.1 == name) then
    members.map fun m => if m.1 == name then (name, value) else m
  else members ++ [(name, value)]

/-- An object of the given members, the last of each name counting. -/
def ofMembers (members : List (String × Json)) : Json :=
  .object (members.foldl (fun done m => setMember done m.1 m.2) [])

/-- A double as JSON, which has no way to write one that is not finite. -/
def ofBinary : Decimal.Binary → Json
  | .finite negative x => .number (.double negative x)
  | _ => .null

end Json

end Courier
