import Courier.Body.KeyPath
import Courier.Http.Header
import Courier.Http.Status
import Courier.Http.Uri
import Courier.Json.Error
import Courier.Time.Duration
/-!
What can end a call without a response.
-/

namespace Courier

/-- Why a request cannot be assembled. -/
inductive RequestFault where
  | header (fault : HeaderFault)
  | boundary (text : String)
  | missingParameter (placeholder path : String)
  | url (text : String) (fault : Uri.Fault)
  | baseUrl (text : String) (fault : Uri.Fault)
  | relativeBase (text : String)
  | other (text : String)
  deriving DecidableEq, Repr

def RequestFault.message : RequestFault → String
  | .header fault => fault.message
  | .boundary text => "invalid multipart boundary: " ++ text
  | .missingParameter placeholder path =>
    "missing path parameter for " ++ placeholder ++ " in " ++ path
  | .url text fault => "invalid URL " ++ text ++ ": " ++ fault.message
  | .baseUrl text fault => "invalid base URL " ++ text ++ ": " ++ fault.message
  | .relativeBase text => "base URL must be absolute: " ++ text
  | .other text => text

/-- Why a body cannot be written as JSON. -/
inductive EncodeFault where
  | json (e : Json.Error)
  | other (text : String)
  deriving DecidableEq, Repr

def EncodeFault.message : EncodeFault → String
  | .json e => "JSON encoding failed: " ++ e.message
  | .other text => text

/-- Why a response body cannot be read. -/
inductive DecodeFault where
  | json (e : Json.Error)
  | notText (fault : Utf8.Fault)
  | other (text : String)
  deriving DecidableEq, Repr

def DecodeFault.message : DecodeFault → String
  | .json e => "JSON decoding failed: " ++ e.message
  | .notText fault => "response body is not UTF-8: " ++ fault.message
  | .other text => text

inductive CallError where
  | transport (text : String)
  | body (e : EncodeError)
  | encode (fault : EncodeFault)
  | decode (fault : DecodeFault)
  | request (fault : RequestFault)
  | status (status : Status) (body : Bytes)
  | timeout (limit : Duration)
  | cancelled
  deriving DecidableEq, Repr

namespace CallError

def message : CallError → String
  | .transport text => "transport error: " ++ text
  | .body e => "body encoding error: " ++ e.message
  | .encode fault => "encode error: " ++ fault.message
  | .decode fault => "decode error: " ++ fault.message
  | .request fault => "invalid request: " ++ fault.message
  | .status s _ => "unexpected status " ++ s.render
  | .timeout limit => "request timed out after " ++ limit.render
  | .cancelled => "request cancelled"

/-- The kind of an error, by name. -/
def kind : CallError → String
  | .transport _ => "Transport"
  | .body _ => "Body"
  | .encode _ => "Encode"
  | .decode _ => "Decode"
  | .request _ => "InvalidRequest"
  | .status .. => "Status"
  | .timeout _ => "Timeout"
  | .cancelled => "Cancelled"

def status? : CallError → Option Status
  | .status s _ => some s
  | _ => none

def isTimeout : CallError → Bool
  | .timeout _ => true
  | _ => false

def isCancelled : CallError → Bool
  | .cancelled => true
  | _ => false

def describeByte (b : UInt8) : List Char :=
  if b < 127 then
    if b = 0 || 32 ≤ b || b = 9 || b = 10 || b = 13 then Text.showChar (Char.ofNat b.toNat)
    else '\\' :: 'x' :: Hex.lower b
  else '\\' :: 'x' :: Hex.lower b

def describe (e : CallError) : String :=
  match e with
  | .transport text => e.kind ++ "(" ++ Text.quoted text ++ ")"
  | .body err => e.kind ++ "(" ++ Text.described "UnsupportedValueType"
      [("key", Text.quoted err.key), ("type_name", Text.quoted err.typeName)] false ++ ")"
  | .encode fault => e.kind ++ "(" ++ Text.quoted fault.message ++ ")"
  | .decode fault => e.kind ++ "(" ++ Text.quoted fault.message ++ ")"
  | .request fault => e.kind ++ "(" ++ Text.quoted fault.message ++ ")"
  | .status s content => Text.described e.kind [("status", s.code.repr),
      ("body", "b\"" ++ String.ofList (content.flatMap describeByte) ++ "\"")] false
  | .timeout limit => e.kind ++ "(" ++ limit.render ++ ")"
  | .cancelled => e.kind

end CallError

end Courier
