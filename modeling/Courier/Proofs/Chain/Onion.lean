import Courier.Chain.Layer
import Courier.Chain.Script
import Courier.Proofs.Chain.Ending
/-!
Chains nest like the skins of an onion.

A link is an interceptor that hands the request on at most once. Requests go in from the first link
to the last and outcomes come back from the last to the first, each link seeing the request as those
before it left it. The exchange is reached once if every link hands on, and not at all otherwise.
`proceed_onion` is the main result.
-/

namespace Courier

/-- The events that tell where a request is: at a link, on its way back, at the exchange. -/
def Event.isMark : Event → Bool
  | .entered .. => true
  | .left .. => true
  | .exchanged .. => true
  | _ => false

/-- The interceptor, seen from outside: the request as it comes and the outcome as it goes. -/
def Interceptor.observed (label : String) (i : Interceptor) : Interceptor := fun request next => do
  Flow.say (.entered label next.remaining request)
  let outcome ← i request next
  Flow.say (.left label outcome)
  return outcome

/-- The exchange, seen from outside: its calls are numbered and show the request. -/
def Exchange.announced (answer : Nat → Exchange) : Exchange := fun request =>
  .draw fun n => .emit (.exchanged n request) (answer n request)

/-- Ends with this result and leaves no mark of its own. It may wait and write a log. -/
def Flow.Settles {α : Type} (f : Flow Event α) (result : α) : Prop :=
  ∀ drawn, f.Ends Event.isMark drawn [] drawn result

/-- An interceptor that hands the request on at most once. -/
structure Link where
  label : String
  /-- The request it hands on, which may depend on how many interceptors are left. -/
  rewrite : Nat → Request → Request
  /-- Its own outcome, where it does not hand the request on. -/
  answer : Nat → Request → Option Outcome
  /-- What it makes of the outcome that it got or gave itself. -/
  revise : Nat → Request → Outcome → Outcome
  before : Nat → Request → Flow Event Request
  after : Nat → Request → Outcome → Flow Event Outcome
  before_settles : ∀ remaining request,
    (before remaining request).Settles (rewrite remaining request)
  after_settles : ∀ remaining request outcome,
    (after remaining request outcome).Settles (revise remaining request outcome)

namespace Link

/-- Hands the rewritten request on, or answers in place of the rest of the chain. -/
def turn (l : Link) (request : Request) (next : Next) (rewritten : Request) : Call :=
  match l.answer next.remaining request with
  | some outcome => .done outcome
  | none => next.run rewritten

def intercept (l : Link) : Interceptor := fun request next => do
  let rewritten ← l.before next.remaining request
  let outcome ← l.turn request next rewritten
  l.after next.remaining request outcome

def observed (l : Link) : Interceptor := l.intercept.observed l.label

/-- One link adds its entry before what happens inside it and its exit behind. -/
theorem observed_ends (l : Link) {request : Request} {next : Next} {drawn drawn' : Nat}
    {events : List Event} {outcome : Outcome}
    (inside : (l.turn request next (l.rewrite next.remaining request)).Ends Event.isMark drawn
      events drawn' outcome) :
    (l.observed request next).Ends Event.isMark drawn
      (.entered l.label next.remaining request ::
        (events ++ [.left l.label (l.revise next.remaining request outcome)]))
      drawn' (l.revise next.remaining request outcome) := by
  let revised := l.revise next.remaining request outcome
  have run : (l.intercept request next).Ends Event.isMark drawn events drawn' revised := by
    have back := inside.bind (l.after_settles next.remaining request outcome drawn')
    have around := (l.before_settles next.remaining request drawn).bind
      (g := fun rewritten => (l.turn request next rewritten).bind
        (l.after next.remaining request)) back
    rw [List.nil_append, List.append_nil] at around
    exact around
  have exit : (Flow.emit (.left l.label revised) (.done revised)).Ends Event.isMark drawn'
      [.left l.label revised] drawn' revised :=
    (Flow.ends_done revised).emit
  exact (run.bind (g := fun outcome => .emit (.left l.label outcome) (.done outcome)) exit).emit

end Link

namespace Layer

/-- What the steps before make of a request. -/
def altered (request : Request) : List Before → Request
  | [] => request
  | .alter change :: rest => altered (change request) rest
  | .wait _ :: rest => altered request rest
  | .pause :: rest => altered request rest

/-- What the steps after make of an outcome. -/
def revised (outcome : Outcome) : List After → Outcome
  | [] => outcome
  | .revise change :: rest => revised (change outcome) rest
  | .wait _ :: rest => revised outcome rest

theorem runBefore_settles (steps : List Before) (request : Request) :
    (runBefore request steps).Settles (altered request steps) := by
  intro drawn
  induction steps generalizing request with
  | nil => exact Flow.ends_done request
  | cons step rest ih =>
    cases step with
    | alter change => exact ih (change request)
    | wait span => exact (ih request).sleep span.ticks
    | pause => exact (ih request).pause

theorem runAfter_settles (steps : List After) (outcome : Outcome) :
    (runAfter outcome steps).Settles (revised outcome steps) := by
  intro drawn
  induction steps generalizing outcome with
  | nil => exact Flow.ends_done outcome
  | cons step rest ih =>
    cases step with
    | revise change => exact ih (change outcome)
    | wait span => exact (ih outcome).sleep span.ticks

/-- A layer hands the request on at most once. -/
def link (l : Layer) : Link where
  label := l.label
  rewrite _ request := altered request l.before
  answer _ _ :=
    match l.turn with
    | .forward => none
    | .answer outcome => some outcome
  revise _ _ outcome := revised outcome l.after
  before _ request := runBefore request l.before
  after _ _ outcome := runAfter outcome l.after
  before_settles _ := runBefore_settles l.before
  after_settles _ _ := runAfter_settles l.after

/-- A layer is its link, seen from outside. -/
theorem intercept_eq_observed (l : Layer) : l.intercept = l.link.observed := by
  funext request next
  let close : Outcome → Call := fun outcome => .emit (.left l.label outcome) (.done outcome)
  have regrouped : l.link.observed request next =
      .emit (.entered l.label next.remaining request)
        ((runBefore request l.before).bind fun rewritten =>
          (l.link.turn request next rewritten).bind fun outcome =>
            (runAfter outcome l.after).bind close) := by
    show Flow.emit _ (Flow.bind (Flow.bind _ fun _ => Flow.bind _ _) close) = _
    simp only [Flow.bind_assoc]
    rfl
  rw [regrouped]
  cases turn : l.turn with
  | forward =>
    simp only [intercept, Link.turn, link, turn]
    rfl
  | answer outcome =>
    simp only [intercept, Link.turn, link, turn]
    rfl

end Layer

namespace Onion

/-- How many links come after a position. -/
def remaining (links : List Link) (i : Nat) : Nat := links.length - (i + 1)

/-- The request that comes to a position, as the links before it rewrote it. -/
def requestAt (links : List Link) (request : Request) : Nat → Request
  | 0 => request
  | i + 1 =>
    match links[i]? with
    | some l => l.rewrite (remaining links i) (requestAt links request i)
    | none => requestAt links request i

/-- The request as it comes to the exchange. -/
def requestWithin (links : List Link) (request : Request) : Request :=
  requestAt links request links.length

/-- The outcome that the link at a position gives itself, if it does not hand the request on. -/
def answerAt (links : List Link) (request : Request) (i : Nat) : Option Outcome :=
  links[i]?.bind fun l => l.answer (remaining links i) (requestAt links request i)

/-- The first position that does not hand the request on. -/
def stop (links : List Link) (request : Request) : Option Nat :=
  (List.range links.length).find? fun i => (answerAt links request i).isSome

/-- How many links the request comes to. -/
def reach (links : List Link) (request : Request) : Nat :=
  match stop links request with
  | some i => i + 1
  | none => links.length

/-- The outcome that turns the way round: that of the exchange, or of the link that stopped. -/
def innermost (links : List Link) (request : Request) (reply : Outcome) : Outcome :=
  ((stop links request).bind (answerAt links request)).getD reply

/-- The links that the request comes to go in, in their order. -/
def entries (links : List Link) (request : Request) : List Event :=
  (links.take (reach links request)).mapIdx fun i l =>
    .entered l.label (remaining links i) (requestAt links request i)

/-- What each link that the request comes to makes of the outcome that comes back. -/
def revisions (links : List Link) (request : Request) : List (Outcome → Outcome) :=
  (links.take (reach links request)).mapIdx fun i l =>
    l.revise (remaining links i) (requestAt links request i)

/-- The outcome that a position gives back, as the links from the last one to it revised it. -/
def outcomeAt (links : List Link) (request : Request) (reply : Outcome) (i : Nat) : Outcome :=
  ((revisions links request).drop i).foldr (fun revise outcome => revise outcome)
    (innermost links request reply)

/-- The links that the request comes to go out, the last one first. -/
def exits (links : List Link) (request : Request) (reply : Outcome) : List Event :=
  ((links.take (reach links request)).mapIdx fun i l =>
    .left l.label (outcomeAt links request reply i)).reverse

section cons

variable (l : Link) (links : List Link) (request : Request)

@[simp] theorem remaining_cons_zero : remaining (l :: links) 0 = links.length := by
  simp [remaining]

@[simp] theorem remaining_cons_succ (i : Nat) :
    remaining (l :: links) (i + 1) = remaining links i := by
  simp [remaining]

@[simp] theorem requestAt_zero : requestAt links request 0 = request := rfl

@[simp] theorem requestWithin_nil : requestWithin [] request = request := rfl

/-- Behind the first link, the rest of the chain gets the request as that link rewrote it. -/
@[simp] theorem requestAt_cons_succ (i : Nat) :
    requestAt (l :: links) request (i + 1) =
      requestAt links (l.rewrite links.length request) i := by
  induction i with
  | zero => simp [requestAt]
  | succ i ih =>
    rw [requestAt, ih, remaining_cons_succ, List.getElem?_cons_succ]
    rfl

@[simp] theorem answerAt_cons_zero :
    answerAt (l :: links) request 0 = l.answer links.length request := by
  simp [answerAt]

@[simp] theorem answerAt_cons_succ (i : Nat) :
    answerAt (l :: links) request (i + 1) =
      answerAt links (l.rewrite links.length request) i := by
  simp [answerAt]

variable {l request}

theorem stop_cons_answer {outcome : Outcome} (own : l.answer links.length request = some outcome) :
    stop (l :: links) request = some 0 := by
  simp [stop, List.range_succ_eq_map, own]

theorem stop_cons_forward (on : l.answer links.length request = none) :
    stop (l :: links) request =
      (stop links (l.rewrite links.length request)).map (· + 1) := by
  have later : ((fun i => (answerAt (l :: links) request i).isSome) ∘ Nat.succ) =
      fun i => (answerAt links (l.rewrite links.length request) i).isSome := by
    funext i
    exact congrArg Option.isSome (answerAt_cons_succ l links request i)
  rw [stop, List.length_cons, List.range_succ_eq_map, List.find?_cons_of_neg (by simp [on]),
    List.find?_map, later]
  rfl

variable {links}

/-- A first link that answers is all there is of the chain. -/
theorem innermost_cons_answer {outcome reply : Outcome}
    (own : l.answer links.length request = some outcome) :
    innermost (l :: links) request reply = outcome := by
  simp [innermost, stop_cons_answer links own, own]

theorem take_reach_cons_answer {outcome : Outcome}
    (own : l.answer links.length request = some outcome) :
    (l :: links).take (reach (l :: links) request) = [l] := by
  simp [reach, stop_cons_answer links own]

theorem innermost_cons_forward {reply : Outcome} (on : l.answer links.length request = none) :
    innermost (l :: links) request reply =
      innermost links (l.rewrite links.length request) reply := by
  have later : (answerAt (l :: links) request ∘ (· + 1)) =
      answerAt links (l.rewrite links.length request) :=
    funext (answerAt_cons_succ l links request)
  rw [innermost, stop_cons_forward links on, Option.bind_map, later, innermost]

theorem take_reach_cons_forward (on : l.answer links.length request = none) :
    (l :: links).take (reach (l :: links) request) =
      l :: links.take (reach links (l.rewrite links.length request)) := by
  rw [reach, reach, stop_cons_forward links on]
  cases stop links (l.rewrite links.length request) <;> rfl

theorem entries_cons_forward (on : l.answer links.length request = none) :
    entries (l :: links) request =
      .entered l.label links.length request ::
        entries links (l.rewrite links.length request) := by
  simp [entries, take_reach_cons_forward on, List.mapIdx_cons]

theorem revisions_cons_forward (on : l.answer links.length request = none) :
    revisions (l :: links) request =
      l.revise links.length request :: revisions links (l.rewrite links.length request) := by
  simp [revisions, take_reach_cons_forward on, List.mapIdx_cons]

theorem outcomeAt_cons_succ {reply : Outcome} (on : l.answer links.length request = none)
    (i : Nat) :
    outcomeAt (l :: links) request reply (i + 1) =
      outcomeAt links (l.rewrite links.length request) reply i := by
  simp [outcomeAt, revisions_cons_forward on, innermost_cons_forward on]

theorem outcomeAt_cons_zero {reply : Outcome} (on : l.answer links.length request = none) :
    outcomeAt (l :: links) request reply 0 =
      l.revise links.length request
        (outcomeAt links (l.rewrite links.length request) reply 0) := by
  simp [outcomeAt, revisions_cons_forward on, innermost_cons_forward on]

theorem exits_cons_forward {reply : Outcome} (on : l.answer links.length request = none) :
    exits (l :: links) request reply =
      exits links (l.rewrite links.length request) reply ++
        [.left l.label (outcomeAt (l :: links) request reply 0)] := by
  simp [exits, take_reach_cons_forward on, List.mapIdx_cons, outcomeAt_cons_succ on]

end cons

/-- What is seen of a chain around an exchange. Only if no link stops the request does the exchange
stand in the middle with what is seen of it, and only then does it have to end. -/
theorem forward_ends (exchange : Exchange) (links : List Link) {request : Request}
    {drawn drawn' : Nat} {own : List Event} {reply : Outcome}
    (completes : stop links request = none →
      (exchange (requestWithin links request)).Ends Event.isMark drawn own drawn' reply) :
    (Chain.forward exchange (links.map Link.observed) request).Ends Event.isMark drawn
      (entries links request ++ (if (stop links request).isNone then own else []) ++
        exits links request reply)
      (if (stop links request).isNone then drawn' else drawn)
      (outcomeAt links request reply 0) := by
  induction links generalizing request with
  | nil =>
    simpa [entries, exits, outcomeAt, revisions, innermost, stop, Chain.forward]
      using completes rfl
  | cons l links ih =>
    let next : Next := ⟨links.length, Chain.forward exchange (links.map Link.observed)⟩
    let rewritten := l.rewrite links.length request
    have first : Chain.forward exchange ((l :: links).map Link.observed) request =
        l.observed request next := by
      simp [Chain.forward, next]
    rw [first]
    cases turn : l.answer links.length request with
    | some outcome =>
      have answers : l.turn request next rewritten = .done outcome := by
        simp only [Link.turn, next, turn]
      have inside : (l.turn request next rewritten).Ends Event.isMark drawn [] drawn outcome := by
        rw [answers]
        exact Flow.ends_done outcome
      have seen := l.observed_ends inside
      simpa [entries, exits, outcomeAt, revisions, innermost_cons_answer turn,
        take_reach_cons_answer turn, stop_cons_answer links turn, next] using seen
    | none =>
      have hands : l.turn request next rewritten = next.run rewritten := by
        simp only [Link.turn, next, turn]
      have rest_completes : stop links rewritten = none →
          (exchange (requestWithin links rewritten)).Ends Event.isMark drawn own drawn' reply := by
        intro on
        have completed := completes (by rw [stop_cons_forward links turn, on]; rfl)
        rwa [requestWithin, List.length_cons, requestAt_cons_succ] at completed
      have inside := ih rest_completes
      rw [show Chain.forward exchange _ _ = next.run _ from rfl, ← hands] at inside
      have seen := l.observed_ends inside
      rw [entries_cons_forward turn, exits_cons_forward turn, outcomeAt_cons_zero turn,
        stop_cons_forward links turn]
      simpa [next, rewritten] using seen

/-- A request goes in through the links in their order, up to the first that does not hand it on, and
the outcome comes back through the same links in the opposite order. The exchange is called once if
every link hands on, and never otherwise. Each link sees how many are left and the request as those
before it rewrote it. The result is the innermost outcome as the links on the way back revised it. -/
theorem proceed_onion (answer : Nat → Exchange) (links : List Link) (request : Request)
    {drawn drawn' : Nat} {own : List Event} {reply : Outcome}
    (completes : stop links request = none →
      (answer drawn (requestWithin links request)).Ends Event.isMark (drawn + 1) own drawn'
        reply) :
    ((Chain.ofList (links.map Link.observed)).proceed (Exchange.announced answer) request).Ends
      Event.isMark drawn
      (entries links request ++
        (if (stop links request).isNone then
          .exchanged drawn (requestWithin links request) :: own else []) ++
        exits links request reply)
      (if (stop links request).isNone then drawn' else drawn)
      (outcomeAt links request reply 0) := by
  have announces : stop links request = none →
      (Exchange.announced answer (requestWithin links request)).Ends Event.isMark drawn
        (.exchanged drawn (requestWithin links request) :: own) drawn' reply := by
    intro on
    exact (completes on).emit.draw
  exact forward_ends (Exchange.announced answer) links announces

private def asking : Request := { method := "GET", uri := ⟨none, none, "/", none⟩ }

private def putting : Request := { asking with method := "PUT" }

private def puts : Layer :=
  { label := "puts", before := [.alter fun r => { r with method := "PUT" }, .wait ⟨5⟩] }

private def refuses : Layer := { label := "refuses", turn := .answer (.error .cancelled) }

private def recovers : Layer :=
  { label := "recovers", after := [.wait ⟨1⟩, .revise fun _ => .ok { status := .ok }] }

private def down : Script := { reply := .answer (.error (.transport "down")) }

private def silent : Script := { reply := .silence }

/-- Around an exchange that fails, and with a link that refuses around one that never ends. -/
theorem proceed_onion_recovers :
    ((Chain.ofList [recovers.intercept, puts.intercept]).proceed (Script.exchange [down])
        asking).Ends Event.isMark 0
      [.entered "recovers" 1 asking, .entered "puts" 0 asking, .exchanged 0 putting,
        .left "puts" (.error (.transport "down")), .left "recovers" (.ok { status := .ok })]
      1 (.ok { status := .ok }) ∧
    ((Chain.ofList [puts.intercept, recovers.intercept, refuses.intercept, puts.intercept]).proceed
        (Script.exchange [silent]) asking).Ends Event.isMark 0
      [.entered "puts" 3 asking, .entered "recovers" 2 putting, .entered "refuses" 1 putting,
        .left "refuses" (.error .cancelled), .left "recovers" (.ok { status := .ok }),
        .left "puts" (.ok { status := .ok })]
      0 (.ok { status := .ok }) := by
  simp only [Layer.intercept_eq_observed]
  constructor
  · have fails : (down.answer putting).Ends Event.isMark 1 [] 1 (.error (.transport "down")) :=
      Flow.Ends.sleep (Flow.ends_done _) 0
    exact proceed_onion (fun _ => down.answer) [recovers.link, puts.link] asking fun _ => fails
  · have stops : stop [puts.link, recovers.link, refuses.link, puts.link] asking = some 2 := rfl
    have skipped : stop [puts.link, recovers.link, refuses.link, puts.link] asking = none →
        (silent.answer putting).Ends Event.isMark 1 [] 1 (.error .cancelled) := by
      rw [stops]
      exact nofun
    exact proceed_onion (fun _ => silent.answer)
      [puts.link, recovers.link, refuses.link, puts.link] asking skipped

end Onion

end Courier
