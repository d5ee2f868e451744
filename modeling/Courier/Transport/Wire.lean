import Courier.Http.Message
/-!
One request and its response as they pass over a connection, in HTTP/1.1.
-/

namespace Courier.Transport

/-- Who answers: a listener at an address, with the bytes it sends before it closes. -/
structure Server where
  address : String
  reply : Bytes

/-- A request as the other side sees it. -/
structure Seen where
  line : String
  headers : List Bytes
  body : Bytes

inductive Fault where
  | connect
  | send
  | relativeTarget
  | body
  deriving DecidableEq, Repr

def Fault.message : Fault → String
  | .connect => "request failed: client error (Connect)"
  | .send => "request failed: client error (SendRequest)"
  | .relativeTarget => "request failed: client error (UserAbsoluteUriRequired)"
  | .body => "failed to read response body: error reading a body from connection"

def Fault.toError (f : Fault) : CallError := .transport f.message

/-! ### The request -/

def hostName : HeaderName := ⟨"host"⟩

def lengthName : HeaderName := ⟨"content-length"⟩

def encodingName : HeaderName := ⟨"transfer-encoding"⟩

/-- Sets a header that is not there yet. -/
def addMissing (h : Headers) (name : HeaderName) (text : String) : Headers :=
  if (h.values name).isEmpty then h.append name ⟨Utf8.encode text⟩ else h

/-- The authority without the user. -/
def address (u : Uri) : String := String.ofList (Uri.afterUser (u.authority.getD "").toList)

def target (u : Uri) : String :=
  Uri.rooted u.path ++ (match u.query with | some q => "?" ++ q | none => "")

/-- What a request looks like on the wire: the host and the length of a body are said if nobody said
them before. -/
def present (r : Request) : Seen :=
  let h := addMissing r.headers hostName (address r.uri)
  let h := if r.body.isEmpty then h else addMissing h lengthName r.body.length.repr
  { line := r.method ++ " " ++ target r.uri ++ " HTTP/1.1",
    headers := h.fields.map fun f => Utf8.encode (f.1.text ++ ": ") ++ f.2.bytes,
    body := r.body }

/-! ### The response -/

/-- The bytes up to a line feed and those after it. -/
def splitLine (bytes : Bytes) : Option (Bytes × Bytes) :=
  match bytes.dropWhile (· != 10) with
  | [] => none
  | _ :: rest => some (bytes.takeWhile (· != 10), rest)

/-- A line without the carriage return at its end. -/
def dropReturn (line : Bytes) : Bytes :=
  if line.getLast? = some 13 then line.dropLast else line

def isSpace (b : UInt8) : Bool := b == 32 || b == 9

def trimSpace (bytes : Bytes) : Bytes :=
  ((bytes.dropWhile isSpace).reverse.dropWhile isSpace).reverse

/-- A header line: a name, a colon and a value between blanks. -/
def readHeaderLine (line : Bytes) : Option (HeaderName × HeaderValue) := do
  let name ← (Utf8.decode? (line.takeWhile (· != 58))).bind HeaderName.ofText?
  match line.dropWhile (· != 58) with
  | [] => none
  | _ :: rest => return (name, ← HeaderValue.ofBytes? (trimSpace rest))

/-- Reads header lines up to an empty one; there are fewer than `bound`. -/
def readHeaders : Nat → Headers → Bytes → Option (Headers × Bytes)
  | 0, _, _ => none
  | bound + 1, h, bytes => do
    let (line, rest) ← splitLine bytes
    let line := dropReturn line
    if line.isEmpty then return (h, rest)
    let (name, v) ← readHeaderLine line
    readHeaders bound (h.append name v) rest

structure Head where
  /-- Whether the response is in the older version of the protocol, which has no chunks. -/
  old : Bool
  status : Status
  headers : Headers

def digit? (b : UInt8) : Option Nat := if 48 ≤ b && b ≤ 57 then some (b.toNat - 48) else none

/-- Reads `HTTP/1.x`, a blank, three digits and perhaps a reason. -/
def readStatusLine (line : Bytes) : Option (Bool × Status) := do
  let mark := Utf8.encode "HTTP/1."
  if !mark.isPrefixOf line then none
  match line.drop mark.length with
  | v :: s :: a :: b :: c :: rest =>
    if (v != 48 && v != 49) || s != 32 then none
    let code := (← digit? a) * 100 + (← digit? b) * 10 + (← digit? c)
    if code < 100 then none
    match rest with
    | [] => return (v == 48, ⟨code⟩)
    | s :: reason =>
      if s == 32 && reason.all HeaderValue.isValueByte then return (v == 48, ⟨code⟩) else none
  | _ => none

def skipEmptyLines : Bytes → Bytes
  | 13 :: 10 :: rest => skipEmptyLines rest
  | 10 :: rest => skipEmptyLines rest
  | bytes => bytes

def readHead (bytes : Bytes) : Option (Head × Bytes) := do
  let (line, rest) ← splitLine (skipEmptyLines bytes)
  let (old, status) ← readStatusLine (dropReturn line)
  let (headers, rest) ← readHeaders (rest.length + 1) Headers.empty rest
  return (⟨old, status, headers⟩, rest)

/-- Reads the head of the response proper. One that only tells of progress is passed over. -/
def readFinalHead : Nat → Bytes → Option (Head × Bytes)
  | 0, _ => none
  | bound + 1, bytes => do
    let (head, rest) ← readHead bytes
    if head.status.code < 200 && head.status.code != 101 then readFinalHead bound rest
    else return (head, rest)

/-- Where a body ends. -/
inductive Framing where
  | absent
  | length (n : Nat)
  | chunked
  | untilClose
  deriving DecidableEq, Repr

def splitCommas (bytes : Bytes) : List Bytes := (bytes.splitOn 44).map trimSpace

def decimal? (bytes : Bytes) : Option Nat := do
  if bytes.isEmpty then none
  let n ← bytes.foldlM (fun n b => return 10 * n + (← digit? b)) 0
  if n < 0x10000000000000000 then some n else none

/-- The length that all its statements agree on. -/
def agreedLength? (values : List HeaderValue) : Option Nat := do
  match ← (values.flatMap fun v => splitCommas v.bytes).mapM decimal? with
  | [] => none
  | n :: rest => if rest.all (· == n) then some n else none

def isChunked (values : List HeaderValue) : Bool :=
  match values.getLast? with
  | none => false
  | some v =>
    match (splitCommas v.bytes).getLast? with
    | none => false
    | some last => (Utf8.decode? last).map String.toLower == some "chunked"

/-- How the body of a response is delimited; nothing if the head contradicts itself. -/
def framing? (method : String) (head : Head) : Option Framing :=
  let code := head.status.code
  let encodings := head.headers.values encodingName
  let lengths := head.headers.values lengthName
  if code = 101 || code = 204 || code = 304 || method == "HEAD" then some .absent
  else if !encodings.isEmpty then
    if head.old then none
    else if isChunked encodings then some .chunked else some .untilClose
  else if !lengths.isEmpty then (agreedLength? lengths).map .length
  else some .untilClose

def hexDigit? (b : UInt8) : Option Nat := Hex.digit? (Char.ofNat b.toNat)

/-- The size of a chunk from its line, which ends in a carriage return. -/
def chunkSize? (line : Bytes) : Option Nat := do
  if line.getLast? ≠ some 13 then none
  let line := line.dropLast
  let digits := line.takeWhile fun b => (hexDigit? b).isSome
  if digits.isEmpty then none
  let n := digits.foldl (fun n b => 16 * n + (hexDigit? b).getD 0) 0
  match (line.dropWhile fun b => (hexDigit? b).isSome).dropWhile isSpace with
  | [] => if n < 0x10000000000000000 then some n else none
  | b :: _ => if b == 59 && n < 0x10000000000000000 then some n else none

/-- Reads chunks up to the empty one and what trails it; there are fewer than `bound`. -/
def readChunks : Nat → List Bytes → Bytes → Option Bytes
  | 0, _, _ => none
  | bound + 1, done, bytes => do
    let (line, rest) ← splitLine bytes
    let n ← chunkSize? line
    if n = 0 then
      let _ ← readHeaders (rest.length + 1) Headers.empty rest
      return done.reverse.flatten
    let chunk := rest.take n
    match rest.drop n with
    | 13 :: 10 :: rest => readChunks bound (chunk :: done) rest
    | _ => none

def readBody (rest : Bytes) : Framing → Option Bytes
  | .absent => some []
  | .length n => if n ≤ rest.length then some (rest.take n) else none
  | .chunked => readChunks (rest.length + 1) [] rest
  | .untilClose => some rest

/-- Reads the response to a request. With `lenient`, a body that cannot be read counts as empty. -/
def receive (lenient : Bool) (method : String) (reply : Bytes) : Except Fault Response :=
  match readFinalHead (reply.length + 1) reply with
  | none => .error .send
  | some (head, rest) =>
    match framing? method head with
    | none => .error .send
    | some framing =>
      match readBody rest framing with
      | some body => .ok ⟨head.status, head.headers, body⟩
      | none => if lenient then .ok ⟨head.status, head.headers, []⟩ else .error .body

/-- One exchange with whoever listens. A target needs a scheme and an authority, and only plain
connections to the server's own address are answered. -/
def exchange (server : Option Server) (lenient : Bool) (r : Request) :
    Outcome × Option Seen :=
  if r.uri.scheme.isNone || r.uri.authority.isNone then
    (.error Fault.relativeTarget.toError, none)
  else
    match server with
    | none => (.error Fault.connect.toError, none)
    | some s =>
      if r.uri.scheme ≠ some "http" || address r.uri ≠ s.address then
        (.error Fault.connect.toError, none)
      else ((receive lenient r.method s.reply).mapError Fault.toError, some (present r))

end Courier.Transport
