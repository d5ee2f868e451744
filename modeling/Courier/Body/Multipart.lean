import Courier.Body.Walk
/-!
Multipart bodies. Each leaf becomes a part between delimiter lines: a header that names the part,
for a file also its name and type, an empty line and the content, which is written as it is.
-/

namespace Courier

/-- The text that separates the parts of a body. -/
structure Boundary where
  text : String
  deriving DecidableEq, Repr

namespace Boundary

def alphanumerics : List Char :=
  "ABCDEFGHIJKLMNOPQRSTUVWXYZabcdefghijklmnopqrstuvwxyz0123456789".toList

def randomMark : String := "restwire-"

def randomLength : Nat := 32

/-- Draws `n` letters and digits. -/
def drawChars : Nat → StdGen → List Char × StdGen
  | 0, gen => ([], gen)
  | n + 1, gen =>
    let (i, gen) := randNat gen 0 (alphanumerics.length - 1)
    let (rest, gen) := drawChars n gen
    (alphanumerics.getD i 'A' :: rest, gen)

/-- Draws a fresh boundary, long enough that no content holds it by chance. -/
def draw (gen : StdGen) : Boundary × StdGen :=
  let (chars, gen) := drawChars randomLength gen
  (⟨randomMark ++ String.ofList chars⟩, gen)

/-- Has the shape of a drawn boundary: the mark, then letters and digits in the drawn number. -/
def isDrawn (b : Boundary) : Bool :=
  b.text.startsWith randomMark
    && (b.text.toList.drop randomMark.length).length == randomLength
    && (b.text.toList.drop randomMark.length).all (alphanumerics.contains ·)

end Boundary

namespace Multipart

def contentType (b : Boundary) : String :=
  "multipart/form-data; boundary=" ++ b.text

/-- The delimiter and the header line of a part, up to and with its name. -/
def openPart (b : Boundary) (name : String) : String :=
  "--" ++ b.text ++ "\r\nContent-Disposition: form-data; name=\"" ++ name ++ "\""

def scalarPart (b : Boundary) (name text : String) : Bytes :=
  Utf8.encode (openPart b name ++ "\r\n\r\n" ++ text ++ "\r\n")

def filePart (b : Boundary) (name : String) (file : FilePart) : Bytes :=
  Utf8.encode (openPart b name ++ "; filename=\"" ++ file.fileName ++ "\"\r\nContent-Type: "
    ++ file.contentType ++ "\r\n\r\n") ++ (file.bytes ++ Utf8.encode "\r\n")

/-- A file that is the whole document has no key, so its own field name names it. -/
def fileName (path : KeyPath) (file : FilePart) : String :=
  if path.isRoot then file.fieldName else path.render

/-- Keeps the parts written so far, last first. -/
def sink (b : Boundary) : Sink (List Bytes) where
  scalar path text := modify (scalarPart b path.render text :: ·)
  file path file := modify (filePart b (fileName path file) file :: ·)

def closing (b : Boundary) : Bytes := Utf8.encode ("--" ++ b.text ++ "--")

/-- The multipart body of a document, or the first leaf that no body can hold. -/
def encode (b : Boundary) (v : Value) : Except EncodeError Bytes :=
  match (sink b).walk v [] with
  | (.ok (), parts) => .ok ((closing b :: parts).reverse.flatten)
  | (.error e, _) => .error e

end Multipart

end Courier
