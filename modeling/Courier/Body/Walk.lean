import Courier.Body.Value
/-!
The leaves of a document and the walk that hands them to a sink.

Leaves come in the order of the document, each with the path that leads to it: `Value.leaves` lists
them, and `Value.walk` gives them to a sink one by one until an operation fails. What no body can
hold is a leaf too, and it stops the walk.
-/

namespace Courier

inductive Leaf where
  | scalar (text : String)
  | file (part : FilePart)
  | unsupported (typeName : String)
  deriving DecidableEq, Repr

namespace Value

mutual
def leavesAt (path : KeyPath) : Value → List (KeyPath × Leaf)
  | .scalar text => [(path, .scalar text)]
  | .file part => [(path, .file part)]
  | .unsupported typeName => [(path, .unsupported typeName)]
  | .sequence items => leavesOfItems path 0 items
  | .record fields => leavesOfFields path fields
  termination_by structural v => v

def leavesOfItems (path : KeyPath) (position : Nat) : List Value → List (KeyPath × Leaf)
  | [] => []
  | v :: rest => leavesAt (path.index position) v ++ leavesOfItems path (position + 1) rest
  termination_by structural vs => vs

def leavesOfFields (path : KeyPath) : List (String × Value) → List (KeyPath × Leaf)
  | [] => []
  | (name, v) :: rest => leavesAt (path.field name) v ++ leavesOfFields path rest
  termination_by structural fs => fs
end

/-- Every leaf of the document with its path, in document order. -/
def leaves (v : Value) : List (KeyPath × Leaf) := leavesAt KeyPath.root v

end Value

/-- A step that works on a state and may fail; the state it leaves survives the failure. -/
abbrev Effect (σ : Type) := ExceptT EncodeError (StateM σ)

/-- What receives the leaves of a document. -/
structure Sink (σ : Type) where
  scalar : KeyPath → String → Effect σ Unit
  file : KeyPath → FilePart → Effect σ Unit

namespace Sink

variable {σ : Type}

/-- Hands one leaf over. A leaf that no body can hold never reaches the sink. -/
def accept (sink : Sink σ) (path : KeyPath) : Leaf → Effect σ Unit
  | .scalar text => sink.scalar path text
  | .file part => sink.file path part
  | .unsupported typeName => throw (.unsupported path typeName)

mutual
def walkAt (sink : Sink σ) (path : KeyPath) : Value → Effect σ Unit
  | .scalar text => sink.accept path (.scalar text)
  | .file part => sink.accept path (.file part)
  | .unsupported typeName => sink.accept path (.unsupported typeName)
  | .sequence items => walkItems sink path 0 items
  | .record fields => walkFields sink path fields
  termination_by structural v => v

def walkItems (sink : Sink σ) (path : KeyPath) (position : Nat) : List Value → Effect σ Unit
  | [] => pure ()
  | v :: rest => do
    walkAt sink (path.index position) v
    walkItems sink path (position + 1) rest
  termination_by structural vs => vs

def walkFields (sink : Sink σ) (path : KeyPath) : List (String × Value) → Effect σ Unit
  | [] => pure ()
  | (name, v) :: rest => do
    walkAt sink (path.field name) v
    walkFields sink path rest
  termination_by structural fs => fs
end

/-- Walks the document, and answers with how the walk ended and the state the sink was left in. -/
def walk (sink : Sink σ) (v : Value) (start : σ) : Except EncodeError Unit × σ :=
  (walkAt sink KeyPath.root v).run.run start

/-- A sink that keeps what it is given, and refuses everything once it holds `limit` leaves. -/
def recorder (limit : Option Nat) : Sink (Array (KeyPath × Leaf)) where
  scalar path text := keep path (.scalar text)
  file path part := keep path (.file part)
where
  keep (path : KeyPath) (leaf : Leaf) : Effect (Array (KeyPath × Leaf)) Unit := do
    let held ← get
    if limit = some held.size then
      throw (.unsupported path "Stopped")
    set (held.push (path, leaf))

end Sink

end Courier
