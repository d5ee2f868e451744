import Courier.Chain.Interceptor
import Courier.Client.Draft
import Courier.Client.Target
/-!
Clients: their settings, the requests they assemble and the calls they make.
-/

namespace Courier

structure Client where
  baseUrl : String
  headers : Headers
  timeout : Option Duration
  chain : Chain
  exchange : Exchange

namespace Client

/-- Settings from which a client is built. -/
structure Config where
  baseUrl : String
  headers : Headers := Headers.empty
  timeout : Option Duration := none
  chain : Chain := Chain.empty
  /-- Nothing here means the exchange over the network. -/
  exchange : Option Exchange := none

namespace Config

def setHeader (c : Config) (name value : String) : Except HeaderFault Config := do
  let (n, v) ← readField name value
  return { c with headers := c.headers.insert n v }

def setTimeout (c : Config) (limit : Duration) : Config := { c with timeout := some limit }

def addInterceptor (c : Config) (link : Interceptor) : Config :=
  { c with chain := c.chain.push link }

def describe (c : Config) : String :=
  Text.described "ClientBuilder"
    [("base_url", Text.quoted c.baseUrl), ("default_headers", c.headers.describe),
     ("default_timeout", Text.optional (c.timeout.map Duration.render)),
     ("interceptors", c.chain.describe), ("transport", toString c.exchange.isSome)] false

/-- Without the slashes at its end. -/
def trimmed (url : String) : String :=
  String.ofList (url.toList.reverse.dropWhile (· == '/')).reverse

/-- A client for an absolute base URL; `network` is the exchange used when none is set. -/
def build (c : Config) (network : Exchange) : Except CallError Client :=
  let base := trimmed c.baseUrl
  match Uri.parse base with
  | .error fault => .error (.request (.baseUrl base fault))
  | .ok uri =>
    if uri.scheme.isNone || uri.authority.isNone then .error (.request (.relativeBase base))
    else .ok ⟨base, c.headers, c.timeout, c.chain, c.exchange.getD network⟩

end Config

def describe (c : Client) : String :=
  Text.described "Client"
    [("base_url", Text.quoted c.baseUrl), ("default_headers", c.headers.describe),
     ("default_timeout", Text.optional (c.timeout.map Duration.render)),
     ("interceptors", c.chain.describe)] true

/-- Sends a request through the chain. Past the time limit the call is given up. -/
def dispatch (c : Client) (request : Request) (timeout : Option Duration) : Call :=
  .emit (.opened request.method request.uri) <|
    match timeout with
    | none => c.chain.proceed c.exchange request
    | some limit =>
      ((c.chain.proceed c.exchange request).within limit.ticks).bind fun outcome =>
        .done (outcome.getD (.error (.timeout limit)))

/-- Sends a ready request under the client's own time limit. -/
def execute (c : Client) (request : Request) : Call := c.dispatch request c.timeout

/-- The request a draft stands for and the time limit of its call. The first failure of the draft
comes before all others; headers of the draft go over those of the client, and those of the options
over both. -/
def assemble (c : Client) (d : Draft) : Except CallError (Request × Option Duration) :=
  match d.fault with
  | some e => .error e
  | none =>
    match Target.build c.baseUrl d.path d.params d.query with
    | .error fault => .error (.request fault)
    | .ok url =>
      match Uri.parse url with
      | .error fault => .error (.request (.url url fault))
      | .ok uri =>
        .ok (⟨d.method, uri, (c.headers.extend d.headers).extend d.options.headers, d.body⟩,
          d.options.timeout.or c.timeout)

def build (c : Client) (d : Draft) : Except CallError Request :=
  (c.assemble d).map (·.1)

def send (c : Client) (d : Draft) : Call :=
  match c.assemble d with
  | .error e => .done (.error e)
  | .ok (request, timeout) => c.dispatch request timeout

/-- When a call is given up from outside. -/
inductive Abort where
  | never
  /-- Before the call has begun. -/
  | before
  /-- At some time, after what the call does then. -/
  | after (span : Duration)
  /-- While the call waits, for the time of this number, and so long after it began to. -/
  | during (wait : Nat) (span : Duration)

/-- Sends a draft unless the call is given up first. Once it has begun it is given up only where it
waits. -/
def sendAbortable (c : Client) (d : Draft) : Abort → Call
  | .never => c.send d
  | .before => .done (.error .cancelled)
  | .after span => ((c.send d).within span.ticks).bind orCancelled
  | .during wait span => ((c.send d).cut wait span.ticks).bind orCancelled
where
  orCancelled (outcome : Option Outcome) : Call :=
    .done (outcome.getD (.error .cancelled))

/-- Calls are watched for a million seconds. -/
def horizon : Duration := .ofSeconds 1000000

/-- A call as it is watched: without an outcome if nothing ends it in time. -/
def watched (call : Call) : Flow Event (Option Outcome) := call.within horizon.ticks

end Client

end Courier
