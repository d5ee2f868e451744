import Courier.Http.Error
import Courier.Json.Decode
/-!
Requests and responses, with their bodies in full.
-/

namespace Courier

structure Request where
  method : String
  uri : Uri
  headers : Headers := Headers.empty
  body : Bytes := []
  deriving DecidableEq, Repr

namespace Request

/-- Replaces the body and says what it is. -/
def withBody (r : Request) (contentType : HeaderValue) (body : Bytes) : Request :=
  { r with headers := r.headers.insert .contentType contentType, body := body }

def setHeader (r : Request) (name : HeaderName) (v : HeaderValue) : Request :=
  { r with headers := r.headers.insert name v }

def appendHeader (r : Request) (name : HeaderName) (v : HeaderValue) : Request :=
  { r with headers := r.headers.append name v }

def eraseHeader (r : Request) (name : HeaderName) : Request :=
  { r with headers := r.headers.erase name }

end Request

structure Response where
  status : Status
  headers : Headers := Headers.empty
  body : Bytes := []
  deriving DecidableEq, Repr

/-- How a call ends. -/
abbrev Outcome := Except CallError Response

namespace Response

def isSuccess (r : Response) : Bool := r.status.isSuccess

/-- A response that is no success becomes an error, which keeps its body. -/
def errorForStatus (r : Response) : Outcome :=
  if r.isSuccess then .ok r else .error (.status r.status r.body)

def text (r : Response) : Except CallError String :=
  (Utf8.decode r.body).mapError fun fault => .decode (.notText fault)

def json (r : Response) : Except CallError Json :=
  (Json.parse r.body).mapError fun e => .decode (.json e)

def jsonStrings (r : Response) : Except CallError (List String) :=
  (Json.strings r.body).mapError fun e => .decode (.json e)

def jsonByte (r : Response) : Except CallError Nat :=
  (Json.byte r.body).mapError fun e => .decode (.json e)

end Response

end Courier
