import Courier.Body.Value
import Courier.Decimal.Style
import Courier.Json.Datum
/-!
Body values made from numbers, JSON documents and typed data.
-/

namespace Courier.Value

def ofDouble (x : Decimal.Binary) : Value := .scalar (x.render .scalar .double)

def ofSingle (x : Decimal.Binary) : Value := .scalar (x.render .scalar .single)

mutual
/-- A JSON document as a body value: every scalar by its text, strings without quotes. -/
def ofJson : Json → Value
  | .null => null
  | .bool b => ofBool b
  | .number n => .scalar n.render
  | .string text => .scalar text
  | .array items => .sequence (ofJsonItems items)
  | .object members => .record (ofJsonMembers members)
  termination_by structural j => j

def ofJsonItems : List Json → List Value
  | [] => []
  | j :: rest => ofJson j :: ofJsonItems rest
  termination_by structural js => js

def ofJsonMembers : List (String × Json) → List (String × Value)
  | [] => []
  | (name, j) :: rest => (name, ofJson j) :: ofJsonMembers rest
  termination_by structural ms => ms
end

/-- Typed data as a body value. What cannot be encoded is reported under the name of its type. -/
def ofDatum (typeName : String) (d : Json.Datum) : Except EncodeError Value :=
  match d.toJson with
  | .ok j => .ok (ofJson j)
  | .error e => .error ⟨"", typeName ++ " (" ++ e.message ++ ")"⟩

end Courier.Value
