import Courier.Chain.Interceptor
/-!
Interceptors made of steps: those before the request is handed on, the choice whether to hand it on,
and those after.
-/

namespace Courier

namespace Layer

inductive Before where
  | alter (change : Request → Request)
  | wait (span : Duration)
  | pause

inductive Turn where
  | forward
  | answer (outcome : Outcome)

inductive After where
  | revise (change : Outcome → Outcome)
  | wait (span : Duration)

end Layer

structure Layer where
  label : String
  before : List Layer.Before := []
  turn : Layer.Turn := .forward
  after : List Layer.After := []

namespace Layer

/-- The name under which a layer is shown. -/
def typeName : String := "FnInterceptor"

def runBefore (request : Request) : List Before → Flow Event Request
  | [] => .done request
  | .alter change :: rest => runBefore (change request) rest
  | .wait span :: rest => .sleep span.ticks (runBefore request rest)
  | .pause :: rest => .pause (runBefore request rest)

def runAfter (outcome : Outcome) : List After → Flow Event Outcome
  | [] => .done outcome
  | .revise change :: rest => runAfter (change outcome) rest
  | .wait span :: rest => .sleep span.ticks (runAfter outcome rest)

def intercept (l : Layer) : Interceptor := fun request next => do
  Flow.say (.entered l.label next.remaining request)
  let request ← runBefore request l.before
  let outcome ← match l.turn with
    | .forward => next.run request
    | .answer outcome => pure outcome
  let outcome ← runAfter outcome l.after
  Flow.say (.left l.label outcome)
  return outcome

end Layer

end Courier
