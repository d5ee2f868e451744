/-!
Where a value stands in a document: the fields and positions that lead to it from the root.
-/

namespace Courier

inductive Segment where
  | field (name : String)
  | index (position : Nat)
  deriving DecidableEq, Repr

/-- A field is written as it is and a position in square brackets. -/
def Segment.render : Segment → String
  | .field name => name
  | .index position => "[" ++ position.repr ++ "]"

/-- The segments from the root down. -/
abbrev KeyPath := List Segment

namespace KeyPath

def root : KeyPath := []

def field (path : KeyPath) (name : String) : KeyPath := path ++ [.field name]

def index (path : KeyPath) (position : Nat) : KeyPath := path ++ [.index position]

def isRoot (path : KeyPath) : Bool := path.isEmpty

/-- The key that names the value in a body: its segments one after the other, with nothing between. -/
def render (path : KeyPath) : String :=
  String.join (path.map Segment.render)

@[simp] theorem render_nil : render [] = "" := rfl

end KeyPath

/-- A body cannot hold a value of this kind, which stands at this key. -/
structure EncodeError where
  key : String
  typeName : String
  deriving DecidableEq, Repr

def EncodeError.unsupported (path : KeyPath) (typeName : String) : EncodeError :=
  ⟨path.render, typeName⟩

def EncodeError.message (e : EncodeError) : String :=
  "unsupported value type `" ++ e.typeName ++ "` at key `" ++ e.key ++ "`"

end Courier
