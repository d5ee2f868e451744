import Courier.Body.Form
import Courier.Body.Multipart
import Courier.Client.Options
import Courier.Http.Message
import Courier.Json.Datum
/-!
Requests in the making. Every step changes the draft or, if it fails, leaves it as it was and is
remembered; of several failures the first is kept.
-/

namespace Courier

structure Draft where
  method : String
  path : String
  params : List (String × String) := []
  query : List (String × String) := []
  headers : Headers := Headers.empty
  body : Bytes := []
  options : Options := {}
  fault : Option CallError := none
  deriving DecidableEq, Repr

namespace Draft

/-- What can be asked of a draft. -/
inductive Step where
  | param (name value : String)
  | query (name value : String)
  | queryOpt (name : String) (value : Option String)
  | header (name value : String)
  | body (contentType : HeaderValue) (content : Bytes)
  | form (v : Value)
  | multipart (boundary : Boundary) (v : Value)
  | json (d : Json.Datum)
  | document (j : Json)
  | options (o : Options)
  | timeout (limit : Duration)

/-- Remembers a failure unless there was one before. -/
def fail (d : Draft) (e : CallError) : Draft :=
  match d.fault with
  | none => { d with fault := some e }
  | some _ => d

def addQuery (d : Draft) (name value : String) : Draft :=
  { d with query := d.query ++ [(name, value)] }

/-- Sets the body together with what it is. -/
def setBody (d : Draft) (contentType : HeaderValue) (content : Bytes) : Draft :=
  { d with headers := d.headers.insert .contentType contentType, body := content }

/-- A content type known to be a header value. -/
def knownType (text : String) : HeaderValue := ⟨Utf8.encode text⟩

def jsonType : HeaderValue := knownType "application/json"

def formType : HeaderValue := knownType Form.contentType

def setForm (d : Draft) (v : Value) : Draft :=
  match Form.encodeBytes v with
  | .ok content => d.setBody formType content
  | .error e => d.fail (.body e)

/-- The boundary has to fit in a header before the body is looked at. -/
def setMultipart (d : Draft) (boundary : Boundary) (v : Value) : Draft :=
  match HeaderValue.ofText? (Multipart.contentType boundary) with
  | none => d.fail (.request (.boundary boundary.text))
  | some contentType =>
    match Multipart.encode boundary v with
    | .ok content => d.setBody contentType content
    | .error e => d.fail (.body e)

def setJson (d : Draft) (datum : Json.Datum) : Draft :=
  match datum.write with
  | .ok text => d.setBody jsonType (Utf8.encode text)
  | .error e => d.fail (.encode (.json e))

def setHeader (d : Draft) (name value : String) : Draft :=
  match readField name value with
  | .ok (n, v) => { d with headers := d.headers.insert n v }
  | .error fault => d.fail (.request (.header fault))

def apply (d : Draft) : Step → Draft
  | .param name value => { d with params := d.params ++ [(name, value)] }
  | .query name value => d.addQuery name value
  | .queryOpt _ none => d
  | .queryOpt name (some value) => d.addQuery name value
  | .header name value => d.setHeader name value
  | .body contentType content => d.setBody contentType content
  | .form v => d.setForm v
  | .multipart boundary v => d.setMultipart boundary v
  | .json datum => d.setJson datum
  | .document j => d.setBody jsonType (Utf8.encode j.render)
  | .options o => { d with options := o }
  | .timeout limit => { d with options := d.options.setTimeout limit }

def describePairs (pairs : List (String × String)) : String :=
  Text.listed (pairs.map fun p => "(" ++ Text.quoted p.1 ++ ", " ++ Text.quoted p.2 ++ ")")

def describe (d : Draft) : String :=
  Text.described "RequestBuilder"
    [("method", d.method), ("path", Text.quoted d.path), ("path_params", describePairs d.params),
     ("query", describePairs d.query), ("headers", d.headers.describe),
     ("body_len", d.body.length.repr), ("options", d.options.describe),
     ("error", Text.optional (d.fault.map CallError.describe))] false

end Draft

end Courier
