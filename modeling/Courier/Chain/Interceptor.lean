import Courier.Chain.Flow
import Courier.Http.Message
/-!
Interceptors and their chains.

An interceptor takes a request and the rest of the chain. It may change the request, hand it on or
answer itself, and change the outcome on the way back. The exchange stands at the end of the chain.
-/

namespace Courier

/-- What can be seen of calls as they run. -/
inductive Event where
  /-- A layer got the request, with so many interceptors after it. -/
  | entered (label : String) (remaining : Nat) (request : Request)
  /-- A layer gave back the outcome. -/
  | left (label : String) (outcome : Outcome)
  /-- The exchange got the request, as its call of this number. -/
  | exchanged (number : Nat) (request : Request)
  /-- A client set out with a request. -/
  | opened (method : String) (uri : Uri)
  | sending (method : String) (uri : Uri) (bodyLength : Nat)
  | completed (method : String) (uri : Uri) (status : Status)
  | failed (method : String) (uri : Uri) (error : CallError)
  deriving Repr

abbrev Call := Flow Event Outcome

/-- What takes a request to the other side. -/
abbrev Exchange := Request → Call

/-- The rest of a chain, with its length. -/
structure Next where
  remaining : Nat
  run : Request → Call

/-- How the rest of a chain with this many interceptors is shown. -/
def Next.shown (remaining : Nat) : String :=
  Text.described "Next" [("remaining", remaining.repr)] true

abbrev Interceptor := Request → Next → Call

structure Chain where
  links : List Interceptor

namespace Chain

def empty : Chain := ⟨[]⟩

/-- The chain with one more interceptor, which comes last before the exchange. -/
def push (c : Chain) (link : Interceptor) : Chain := ⟨c.links ++ [link]⟩

def ofList (links : List Interceptor) : Chain := ⟨links⟩

def length (c : Chain) : Nat := c.links.length

def isEmpty (c : Chain) : Bool := c.links.isEmpty

def describe (c : Chain) : String :=
  Text.described "InterceptorChain" [("count", c.length.repr)] false

/-- Hands the request to the first interceptor with the rest of the chain, or to the exchange when
no interceptor is left. -/
def forward (exchange : Exchange) : List Interceptor → Request → Call
  | [], request => exchange request
  | link :: rest, request => link request ⟨rest.length, forward exchange rest⟩

def proceed (c : Chain) (exchange : Exchange) (request : Request) : Call :=
  forward exchange c.links request

end Chain

namespace Interceptor

/-- Sets a header on every request. -/
def header (name : HeaderName) (value : HeaderValue) : Interceptor := fun request next =>
  next.run (request.setHeader name value)

/-- Tells of every request as it comes and of its outcome, both under the method and target that the
request came with. -/
def tracing : Interceptor := fun request next => do
  Flow.say (.sending request.method request.uri request.body.length)
  let outcome ← next.run request
  match outcome with
  | .ok response => Flow.say (.completed request.method request.uri response.status)
  | .error e => Flow.say (.failed request.method request.uri e)
  return outcome

def tracingName : String := "TracingInterceptor"

end Interceptor

end Courier
