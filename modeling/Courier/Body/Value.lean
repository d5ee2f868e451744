import Courier.Body.KeyPath
import Courier.Text.Utf8
/-!
The values a request body is made of.
-/

namespace Courier

def FilePart.defaultContentType : String := "application/octet-stream"

/-- A file to upload. The field name is used only where no key names the file. -/
structure FilePart where
  fieldName : String
  fileName : String
  contentType : String := FilePart.defaultContentType
  bytes : Bytes
  deriving DecidableEq, Repr

/-- A body document. A record keeps its fields in order and may repeat a name. -/
inductive Value where
  | scalar (text : String)
  | file (part : FilePart)
  | sequence (items : List Value)
  | record (fields : List (String × Value))
  /-- A value of some type that no body can hold. -/
  | unsupported (typeName : String)
  deriving Repr, Inhabited

namespace Value

/-- Nothing is written as the empty text. -/
def null : Value := .scalar ""

def ofBool (b : Bool) : Value := .scalar (if b then "true" else "false")

def ofInt (n : Int) : Value := .scalar (toString n)

def ofOption : Option Value → Value
  | none => null
  | some v => v

def isRecord : Value → Bool
  | .record _ => true
  | _ => false

def isNull : Value → Bool
  | .scalar text => text.isEmpty
  | _ => false

mutual
/-- Equal documents have equal leaves in equal places, and records list their fields alike. -/
def decEq : (a b : Value) → Decidable (a = b)
  | .scalar s, .scalar t => decidable_of_iff (s = t) (by simp)
  | .file s, .file t => decidable_of_iff (s = t) (by simp)
  | .unsupported s, .unsupported t => decidable_of_iff (s = t) (by simp)
  | .sequence s, .sequence t =>
    match decEqItems s t with
    | isTrue h => isTrue (by rw [h])
    | isFalse h => isFalse (by simpa using h)
  | .record s, .record t =>
    match decEqFields s t with
    | isTrue h => isTrue (by rw [h])
    | isFalse h => isFalse (by simpa using h)
  | .scalar _, .file _ | .scalar _, .sequence _ | .scalar _, .record _ | .scalar _, .unsupported _
  | .file _, .scalar _ | .file _, .sequence _ | .file _, .record _ | .file _, .unsupported _
  | .sequence _, .scalar _ | .sequence _, .file _ | .sequence _, .record _
  | .sequence _, .unsupported _
  | .record _, .scalar _ | .record _, .file _ | .record _, .sequence _ | .record _, .unsupported _
  | .unsupported _, .scalar _ | .unsupported _, .file _ | .unsupported _, .sequence _
  | .unsupported _, .record _ => isFalse (by simp)
  termination_by structural a => a

def decEqItems : (a b : List Value) → Decidable (a = b)
  | [], [] => isTrue rfl
  | [], _ :: _ => isFalse (by simp)
  | _ :: _, [] => isFalse (by simp)
  | x :: xs, y :: ys =>
    match decEq x y, decEqItems xs ys with
    | isTrue h, isTrue hs => isTrue (by rw [h, hs])
    | isFalse h, _ => isFalse (by simp [h])
    | _, isFalse hs => isFalse (by simp [hs])
  termination_by structural a => a

def decEqFields : (a b : List (String × Value)) → Decidable (a = b)
  | [], [] => isTrue rfl
  | [], _ :: _ => isFalse (by simp)
  | _ :: _, [] => isFalse (by simp)
  | (m, x) :: xs, (n, y) :: ys =>
    match decEq x y, decEqFields xs ys with
    | isTrue h, isTrue hs =>
      if hn : m = n then isTrue (by rw [hn, h, hs]) else isFalse (by simp [hn])
    | isFalse h, _ => isFalse (by simp [h])
    | _, isFalse hs => isFalse (by simp [hs])
  termination_by structural a => a
end

instance : DecidableEq Value := decEq

end Value

end Courier
