import Courier.Chain.Interceptor
/-!
Exchanges that answer by a script instead of over a network.
-/

namespace Courier

namespace Script

inductive Reply where
  /-- Answers with the body of the request. -/
  | echo
  | answer (outcome : Outcome)
  | silence

end Script

/-- How one call is answered: after a delay, if there is one. -/
structure Script where
  delay : Duration := ⟨0⟩
  reply : Script.Reply := .echo

namespace Script

def answer (s : Script) (request : Request) : Call :=
  .sleep s.delay.ticks <| match s.reply with
    | .echo => .done (.ok { status := .ok, body := request.body })
    | .answer outcome => .done outcome
    | .silence => .never

/-- The script of a call: the last one serves all calls after it. -/
def select : List Script → Nat → Script
  | [], _ => {}
  | [s], _ => s
  | s :: _, 0 => s
  | _ :: rest, n + 1 => select rest n

/-- Numbers its calls in the order in which they come and answers each by its script. -/
def exchange (scripts : List Script) : Exchange := fun request =>
  .draw fun n => .emit (.exchanged n request) ((select scripts n).answer request)

end Script

end Courier
