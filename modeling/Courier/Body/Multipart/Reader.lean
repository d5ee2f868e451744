import Courier.Body.Multipart
import Courier.Text.Cut
/-!
Multipart bodies read back. A reader knows the boundary and nothing else: a part ends where the next
delimiter line begins.
-/

namespace Courier.Multipart

/-- A part as it is read: its name, for a file its name and type, and its content. -/
structure Part where
  name : String
  file : Option (String × String)
  content : Bytes
  deriving DecidableEq, Repr

def delimiter (b : Boundary) : Bytes := Utf8.encode ("--" ++ b.text)

def lineEnd : Bytes := Utf8.encode "\r\n"

def quoteMark : Bytes := Utf8.encode "\""

/-- Reads the header lines of a part, without the empty line after them. -/
def readHeader (head : Bytes) : Option (String × Option (String × String)) := do
  let rest ← Text.after? (Utf8.encode "Content-Disposition: form-data; name=\"") head
  let (name, rest) ← Text.cut? quoteMark rest
  let name ← Utf8.decode? name
  if rest.isEmpty then return (name, none)
  let rest ← Text.after? (Utf8.encode "; filename=\"") rest
  let (fileName, rest) ← Text.cut? quoteMark rest
  let contentType ← Text.after? (Utf8.encode "\r\nContent-Type: ") rest
  return (name, some (← Utf8.decode? fileName, ← Utf8.decode? contentType))

/-- Reads parts from behind a delimiter on; there are fewer than `bound`. -/
def readParts (b : Boundary) : Nat → List Part → Bytes → Option (List Part)
  | 0, _, _ => none
  | bound + 1, done, bytes =>
    if bytes = Utf8.encode "--" then some done.reverse
    else do
      let rest ← Text.after? lineEnd bytes
      let (head, rest) ← Text.cut? (lineEnd ++ lineEnd) rest
      let (name, file) ← readHeader head
      let (content, rest) ← Text.cut? (lineEnd ++ delimiter b) rest
      readParts b bound (⟨name, file, content⟩ :: done) rest

/-- The parts of a multipart body with this boundary. -/
def decode? (b : Boundary) (body : Bytes) : Option (List Part) := do
  let rest ← Text.after? (delimiter b) body
  readParts b (body.length + 1) [] rest

end Courier.Multipart
