import Courier.Body.Walk
import Courier.Text.Percent
/-!
Form bodies. Each scalar leaf becomes a pair `key=value`, and pairs are joined by `&`. Keys are
written as they are; in values every byte but letters and digits is escaped, so a value holds no
delimiter and a pair can be told apart at its last `=`.
-/

namespace Courier.Form

def contentType : String := "application/x-www-form-urlencoded"

def encodeText (text : String) : String := Percent.encode Percent.isAlphanumeric text

/-- Adds a pair to the text written so far. -/
def writePair (out : String) (key value : String) : String :=
  let out := if out.isEmpty then out else out.push '&'
  (out ++ key).push '=' ++ encodeText value

def sink : Sink String where
  scalar path text := modify fun out => writePair out path.render text
  file path _ := throw (.unsupported path "FilePart")

/-- The form body of a document, or the first leaf that a form cannot hold. -/
def encode (v : Value) : Except EncodeError String :=
  match sink.walk v "" with
  | (.ok (), out) => .ok out
  | (.error e, _) => .error e

/-- The form body as bytes. -/
def encodeBytes (v : Value) : Except EncodeError Bytes :=
  (encode v).map Utf8.encode

/-- Reads a pair: the key up to the last `=`, the value after it. -/
def decodePair? (piece : List Char) : Option (String × String) :=
  match piece.reverse.dropWhile (· != '=') with
  | [] => none
  | _ :: key =>
    let value := (piece.reverse.takeWhile (· != '=')).reverse
    (Percent.decode? (String.ofList value)).map fun text => (String.ofList key.reverse, text)

/-- The pairs of a form body. The empty body has none. -/
def decode? (body : String) : Option (List (String × String)) :=
  if body.isEmpty then some [] else (body.toList.splitOn '&').mapM decodePair?

end Courier.Form
