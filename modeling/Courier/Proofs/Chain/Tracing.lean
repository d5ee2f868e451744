import Courier.Proofs.Chain.Relay
/-!
Tracing changes nothing but the log.

A chain is made of tracing links and others, which may do anything of their own, hand the request on
at most once, for a limited time if they like, and do not ask how many links are left. Without its
tracing links it ends at the same time with the same result and shows the same events. Each tracing
link that the request comes to adds one event before what the rest of the chain shows, and one behind
if the rest comes to an end before it is given up. `tracing_transparent` is the main result.
-/

namespace Courier

open Courier.Flow (Moment)

namespace Relay

/-- The request that is handed on and when, if the call comes to that before it is given up. -/
def reach (m : Moment) : Relay → Option (Request × Moment)
  | .own _ => none
  | .forward request => some (request, m)
  | .before first rest =>
    match (first.runFrom m).ending with
    | none => none
    | some (time, a) => (rest a).reach (m.upTo time (first.runFrom m).drawn)
  | .after inner _ => inner.reach m
  | .limited ticks inner _ => inner.reach (m.within ticks)

/-- Does not give up on the rest of the chain. -/
def Patient : Relay → Prop
  | .own _ => True
  | .forward _ => True
  | .before _ rest => ∀ a, (rest a).Patient
  | .after inner _ => inner.Patient
  | .limited _ _ _ => False

/-- What stays true of a moment as time passes is true when the request is handed on, if the relay sets
no limit or it stays true under limits as well. -/
theorem reach_keeps (holds : Moment → Prop)
    (passes : ∀ m time drawn, holds m → holds (m.upTo time drawn)) {relay : Relay}
    (limits : relay.Patient ∨ ∀ m ticks, holds m → holds (m.within ticks))
    {m later : Moment} {request : Request} (start : holds m)
    (reached : relay.reach m = some (request, later)) : holds later := by
  induction relay generalizing m with
  | own call => cases reached
  | forward request =>
    cases reached
    exact start
  | before first rest ih =>
    rw [reach] at reached
    split at reached
    · cases reached
    next time a _ => exact ih a (limits.imp (fun patient => patient a) id) (passes _ _ _ start) reached
  | after inner last ih =>
    rw [reach] at reached
    exact ih limits start reached
  | limited ticks inner last ih =>
    rw [reach] at reached
    have within := limits.resolve_left id
    exact ih (.inr within) (within m ticks start) reached

theorem reach_limited {relay : Relay} {m later : Moment} {request : Request}
    (limited : m.left ≠ none) (reached : relay.reach m = some (request, later)) :
    later.left ≠ none :=
  reach_keeps (·.left ≠ none) Moment.upTo_limited
    (.inr fun m ticks _ => m.within_limited ticks) limited reached

end Relay

/-- A link of a chain: one that traces, or another that deals with each request by a relay. -/
inductive Stage where
  | tracing
  | other (plan : Request → Relay)

namespace Stage

def intercept : Stage → Interceptor
  | .tracing => Interceptor.tracing
  | .other plan => fun request next => (plan request).run next

def isTracing : Stage → Bool
  | .tracing => true
  | .other _ => false

/-- Does not give up on the rest of the chain, whatever the request. -/
def Patient : Stage → Prop
  | .tracing => True
  | .other plan => ∀ request, (plan request).Patient

/-- The chain of all stages. -/
def traced (stages : List Stage) : Chain := .ofList (stages.map intercept)

/-- The chain without the links that trace. -/
def bare (stages : List Stage) : Chain := traced (stages.filter (!·.isTracing))

end Stage

/-- A request that has come to a tracing link, when it came there, and what the rest of the chain did
with it, up to where it was given up if it was. -/
structure Visit where
  moment : Moment
  request : Request
  inner : Flow.Run Event Outcome

namespace Visit

def sending (visit : Visit) : Nat × Event :=
  (visit.moment.time, .sending visit.request.method visit.request.uri visit.request.body.length)

/-- What is told of an outcome, under the method and target that the request came with. -/
def told (request : Request) : Outcome → Event
  | .ok response => .completed request.method request.uri response.status
  | .error e => .failed request.method request.uri e

/-- Nothing is told of the outcome of a call that does not end. -/
def outcome (visit : Visit) : List (Nat × Event) :=
  visit.inner.ending.toList.map fun ending => (ending.1, told visit.request ending.2)

end Visit

namespace Stage

/-- The visits that a request makes to the tracing links of a chain, in the order of the chain. It
comes to a link if every other link before it hands it on. -/
def visits (exchange : Exchange) : List Stage → Request → Moment → List Visit
  | [], _, _ => []
  | .tracing :: rest, request, m =>
    ⟨m, request, ((traced rest).proceed exchange request).runFrom m⟩ ::
      visits exchange rest request m
  | .other plan :: rest, request, m =>
    ((plan request).reach m).elim [] fun reached => visits exchange rest reached.1 reached.2

theorem visits_keep (holds : Moment → Prop)
    (passes : ∀ m time drawn, holds m → holds (m.upTo time drawn)) {stages : List Stage}
    (limits : (∀ stage ∈ stages, stage.Patient) ∨ ∀ m ticks, holds m → holds (m.within ticks))
    {exchange : Exchange} {request : Request} {m : Moment} (start : holds m) :
    ∀ visit ∈ visits exchange stages request m, holds visit.moment := by
  induction stages generalizing request m with
  | nil => exact List.forall_mem_nil _
  | cons stage rest ih =>
    have later := limits.imp (fun each stage mem => each stage (List.mem_cons_of_mem _ mem)) id
    cases stage with
    | tracing =>
      intro visit mem
      cases mem with
      | head => exact start
      | tail _ mem => exact ih later start visit mem
    | other plan =>
      have own := limits.imp (fun each => each _ List.mem_cons_self request) id
      rw [visits]
      cases reached : (plan request).reach m with
      | none => exact List.forall_mem_nil _
      | some next => exact ih later (Relay.reach_keeps holds passes own start reached)

/-- Where no link gives up, no visit is under a limit. -/
theorem visits_free {stages : List Stage} (patient : ∀ stage ∈ stages, stage.Patient)
    (exchange : Exchange) (request : Request) (now drawn : Nat) :
    ∀ visit ∈ visits exchange stages request ⟨now, drawn, none⟩, visit.moment.left = none := by
  refine visits_keep (·.left = none) ?_ (.inl patient) rfl
  intro m time drawn free
  rw [Moment.upTo, free, Option.map_none]

theorem visits_limited {exchange : Exchange} {stages : List Stage} {request : Request} {m : Moment}
    (limited : m.left ≠ none) :
    ∀ visit ∈ visits exchange stages request m, visit.moment.left ≠ none :=
  visits_keep (·.left ≠ none) Moment.upTo_limited
    (.inr fun m ticks _ => m.within_limited ticks) limited

/-- The second log is the first one with the events of the visits: each visit has its two around all
that the rest of the chain shows, the later visits among it. Nothing comes behind a visit that does
not end, unless it was given up. -/
inductive Nested : List Visit → List (Nat × Event) → List (Nat × Event) → Prop where
  | same (log : List (Nat × Event)) : Nested [] log log
  | visit (visit : Visit) {visits : List Visit} {inside : List (Nat × Event)}
      (before after : List (Nat × Event))
      (stuck : visit.moment.left = none → visit.inner.ending = none → after = []) :
      Nested visits inside visit.inner.events →
      Nested (visit :: visits) (before ++ (inside ++ after))
        (before ++ (visit.sending :: visit.inner.events ++ visit.outcome ++ after))

/-- Every visit has ended that nothing in front of it could give up. -/
def Ended (visits : List Visit) : Prop :=
  ∀ visit ∈ visits, visit.moment.left = none → visit.inner.ending.isSome

namespace Nested

variable {visits : List Visit} {log log' : List (Nat × Event)}

theorem behind (h : Nested visits log log') (first : List (Nat × Event)) :
    Nested visits (first ++ log) (first ++ log') := by
  cases h with
  | same => exact .same _
  | visit visit before after stuck inner =>
    rw [← List.append_assoc first, ← List.append_assoc first]
    exact .visit visit (first ++ before) after stuck inner

/-- More can come only where no visit is stuck. -/
theorem followed (h : Nested visits log log') (ended : Ended visits) (last : List (Nat × Event)) :
    Nested visits (log ++ last) (log' ++ last) := by
  cases h with
  | same => exact .same _
  | visit visit before after stuck inner =>
    have on : visit.moment.left = none → visit.inner.ending = none → after ++ last = [] := by
      intro free none
      have some := ended visit List.mem_cons_self free
      rw [none] at some
      cases some
    simpa only [List.append_assoc] using Nested.visit visit before (after ++ last) on inner

/-- Visits leave no trace among events of another kind. -/
theorem filter_eq (h : Nested visits log log') {keep : Nat × Event → Bool}
    (other : ∀ visit : Visit, keep visit.sending = false ∧ ∀ e ∈ visit.outcome, keep e = false) :
    log'.filter keep = log.filter keep := by
  induction h with
  | same => rfl
  | visit visit before after _ _ ih =>
    have told : visit.outcome.filter keep = [] :=
      List.filter_eq_nil_iff.mpr fun e mem => Bool.eq_false_iff.mp ((other visit).2 e mem)
    simp only [List.filter_append, List.cons_append, List.filter_cons, (other visit).1, told, ih,
      List.append_nil, Bool.false_eq_true, if_false]

end Nested

theorem isExchange_visit (visit : Visit) :
    visit.sending.2.isExchange = false ∧ ∀ e ∈ visit.outcome, e.2.isExchange = false := by
  refine ⟨rfl, ?_⟩
  intro e mem
  obtain ⟨⟨time, outcome⟩, -, rfl⟩ := List.mem_map.mp mem
  cases outcome <;> rfl

/-- How a run compares with the run without tracing. -/
structure Agrees {α : Type} (visits : List Visit) (bare traced : Flow.Run Event α) : Prop where
  ending : traced.ending = bare.ending
  drawn : traced.drawn = bare.drawn
  events : Nested visits bare.events traced.events
  ended : traced.ending.isSome → Ended visits

namespace Agrees

variable {α β : Type} {visits : List Visit}

theorem refl (run : Flow.Run Event α) : Agrees [] run run :=
  ⟨rfl, rfl, .same _, fun _ _ mem => nomatch mem⟩

/-- What is done before comes in front of both. -/
theorem before {bare traced : Flow.Run Event α} (h : Agrees visits bare traced)
    (own : List (Nat × Event)) :
    Agrees visits { bare with events := own ++ bare.events }
      { traced with events := own ++ traced.events } :=
  ⟨h.ending, h.drawn, h.events.behind own, h.ended⟩

theorem bind {f g : Flow Event α} {m : Moment} (h : Agrees visits (f.runFrom m) (g.runFrom m))
    (after : α → Flow Event β) :
    Agrees visits ((f.bind after).runFrom m) ((g.bind after).runFrom m) := by
  have ended := h.ended
  simp only [Flow.runFrom_bind, h.ending, h.drawn] at ended ⊢
  cases ending : (f.runFrom m).ending with
  | none => exact ⟨rfl, rfl, h.events, nofun⟩
  | some last =>
    rw [ending] at ended
    exact ⟨rfl, rfl, h.events.followed (ended rfl) _, fun _ => ended rfl⟩

/-- Where both are given up, all visits were under a limit, and may be left without an outcome. -/
theorem within {f g : Flow Event α} {m : Moment} {ticks : Nat}
    (h : Agrees visits (f.runFrom (m.within ticks)) (g.runFrom (m.within ticks)))
    (limited : ∀ visit ∈ visits, visit.moment.left ≠ none) :
    Agrees visits ((f.within ticks).runFrom m) ((g.within ticks).runFrom m) := by
  rw [Flow.runFrom_within, Flow.runFrom_within, h.ending, h.drawn]
  exact ⟨rfl, rfl, h.events, fun _ visit mem free => absurd free (limited visit mem)⟩

end Agrees

theorem runFrom_tracing (request : Request) (next : Next) (m : Moment) :
    let visit : Visit := ⟨m, request, (next.run request).runFrom m⟩
    (Interceptor.tracing request next).runFrom m =
      ⟨visit.sending :: visit.inner.events ++ visit.outcome, visit.inner.drawn,
        visit.inner.ending⟩ := by
  intro visit
  have tells : Interceptor.tracing request next =
      .emit visit.sending.2 ((next.run request).bind fun outcome =>
        .emit (Visit.told request outcome) (.done outcome)) := by
    show Flow.emit _ (Flow.bind (next.run request) _) = _
    congr 2
    funext outcome
    cases outcome <;> rfl
  rw [tells, Flow.runFrom_emit, Flow.runFrom_bind]
  simp only [visit, Visit.outcome]
  cases ((next.run request).runFrom m).ending with
  | none => simp [Visit.sending]
  | some last => simp [Visit.sending, Flow.runFrom_emit, Flow.runFrom_done, Moment.upTo]

theorem Agrees.traced {visits : List Visit} {bare : Flow.Run Event Outcome} (request : Request)
    (next : Next) {m : Moment} (h : Agrees visits bare ((next.run request).runFrom m)) :
    Agrees (⟨m, request, (next.run request).runFrom m⟩ :: visits) bare
      ((Interceptor.tracing request next).runFrom m) := by
  rw [runFrom_tracing]
  refine ⟨h.ending, h.drawn, ?_, ?_⟩
  · have around := Nested.visit ⟨m, request, (next.run request).runFrom m⟩ [] []
      (fun _ _ => rfl) h.events
    simpa only [List.nil_append, List.append_nil] using around
  · intro ends visit mem
    cases mem with
    | head => exact fun _ => ends
    | tail _ later => exact h.ended ends visit later

/-- The rest of a chain, as the link in front of it sees it. -/
def nextOf (exchange : Exchange) (c : Chain) : Next := ⟨c.length, c.proceed exchange⟩

/-- A relay does the same around both. Where it gives up on them, it does so at the same time. -/
theorem relay_agrees {exchange : Exchange} {stages : List Stage}
    (rest : ∀ request m, Agrees (visits exchange stages request m)
      (((bare stages).proceed exchange request).runFrom m)
      (((traced stages).proceed exchange request).runFrom m))
    (relay : Relay) (m : Moment) :
    Agrees ((relay.reach m).elim [] fun reached => visits exchange stages reached.1 reached.2)
      ((relay.run (nextOf exchange (bare stages))).runFrom m)
      ((relay.run (nextOf exchange (traced stages))).runFrom m) := by
  induction relay generalizing m with
  | own call =>
    rw [Relay.run, Relay.run, Relay.reach]
    exact .refl _
  | forward request =>
    rw [Relay.run, Relay.run, Relay.reach]
    exact rest request m
  | before first later ih =>
    rw [Relay.run, Relay.run, Flow.runFrom_bind, Flow.runFrom_bind, Relay.reach]
    cases (first.runFrom m).ending with
    | none => exact .refl _
    | some last => exact (ih last.2 _).before _
  | after inner last ih =>
    rw [Relay.run, Relay.run, Relay.reach]
    exact (ih m).bind last
  | limited ticks inner last ih =>
    rw [Relay.run, Relay.run, Relay.reach]
    have cut : ∀ visit ∈ (inner.reach (m.within ticks)).elim [] fun reached =>
        visits exchange stages reached.1 reached.2, visit.moment.left ≠ none := by
      cases reached : inner.reach (m.within ticks) with
      | none => exact List.forall_mem_nil _
      | some later =>
        exact visits_limited (Relay.reach_limited (m.within_limited ticks) reached)
    exact ((ih (m.within ticks)).within cut).bind last

/-- Link by link: a tracing link puts its events around what the rest shows, and any other link does
the same around both. -/
theorem proceed_agrees (exchange : Exchange) (stages : List Stage) (request : Request) (m : Moment) :
    Agrees (visits exchange stages request m)
      (((bare stages).proceed exchange request).runFrom m)
      (((traced stages).proceed exchange request).runFrom m) := by
  induction stages generalizing request m with
  | nil => exact .refl _
  | cons stage rest ih =>
    have first : (traced (stage :: rest)).proceed exchange request =
        stage.intercept request (nextOf exchange (traced rest)) := rfl
    rw [first]
    cases stage with
    | tracing => exact Agrees.traced request (nextOf exchange (traced rest)) (ih request m)
    | other plan => exact relay_agrees ih (plan request) m

end Stage

namespace Client

/-- What a client does around its chain, as a link in front of it would. Its time limit gives up on the
chain as that of any other link does. -/
def opening (timeout : Option Duration) (request : Request) : Relay :=
  .before (Flow.say (.opened request.method request.uri)) fun _ =>
    match timeout with
    | none => .forward request
    | some limit =>
      .limited limit.ticks (.forward request) fun outcome =>
        .done (outcome.getD (.error (.timeout limit)))

theorem dispatch_eq_opening (c : Client) (request : Request) (timeout : Option Duration) :
    c.dispatch request timeout =
      (opening timeout request).run (Stage.nextOf c.exchange c.chain) := by
  cases timeout <;> rfl

end Client

namespace Stage

/-- A chain ends at the same time with the same result as it would without its tracing links, and calls
the exchange as often, at the same times and with the same requests. All that tracing adds to the log
is one event before and one behind what the rest of the chain shows, for each tracing link that the
request comes to, with the request as it comes there. The one behind is left out if the rest does not
end in the time that the links in front allow it. Where the chain ends, so does every visit that no
such limit is on, and that is every visit if no link sets a limit. With a client's own time limit in
front of the chain all this is the same. -/
theorem tracing_transparent (exchange : Exchange) (stages : List Stage) (request : Request)
    (now drawn : Nat) :
    let start : Moment := ⟨now, drawn, none⟩
    let run := ((traced stages).proceed exchange request).run now drawn
    let untraced := ((bare stages).proceed exchange request).run now drawn
    let met := visits exchange stages request start
    run.ending = untraced.ending ∧ run.drawn = untraced.drawn ∧
    run.events.filter (·.2.isExchange) = untraced.events.filter (·.2.isExchange) ∧
    Nested met untraced.events run.events ∧
    (run.ending.isSome → Ended met) ∧
    ((∀ stage ∈ stages, stage.Patient) → ∀ visit ∈ met, visit.moment.left = none) ∧
    ∀ (c : Client) (timeout : Option Duration),
      Agrees (visits c.exchange (.other (Client.opening timeout) :: stages) request start)
        (({ c with chain := bare stages }.dispatch request timeout).run now drawn)
        (({ c with chain := traced stages }.dispatch request timeout).run now drawn) := by
  intro start run untraced met
  have agrees := proceed_agrees exchange stages request start
  refine ⟨agrees.ending, agrees.drawn, agrees.events.filter_eq isExchange_visit, agrees.events,
    agrees.ended, fun patient => visits_free patient exchange request now drawn, ?_⟩
  intro c timeout
  rw [Client.dispatch_eq_opening, Client.dispatch_eq_opening]
  exact relay_agrees (proceed_agrees c.exchange stages) (Client.opening timeout request) start

private def wanted : Request := { method := "GET", uri := ⟨none, none, "/", none⟩, body := [1, 2] }

private def renames (request : Request) : Relay :=
  .after (.forward { request with method := "PUT" }) fun outcome => .sleep 2 (.done outcome)

private def declines (_ : Request) : Relay := .own (.done (.error .cancelled))

private def watched : List Stage := [.tracing, .other renames, .tracing, .other declines, .tracing]

/-- Two visits, the second with another method, and a third tracing link that is not reached. -/
theorem tracing_transparent_declined :
    (((traced watched).proceed (fun _ => .never) wanted).run 0 0).events =
        [(0, .sending "GET" wanted.uri 2), (0, .sending "PUT" wanted.uri 2),
          (0, .failed "PUT" wanted.uri .cancelled), (2, .failed "GET" wanted.uri .cancelled)] ∧
      ∀ visit ∈ visits (fun _ => .never) watched wanted ⟨0, 0, none⟩,
        visit.moment.left = none ∧ visit.inner.ending.isSome := by
  have patient : ∀ stage ∈ watched, stage.Patient := by
    simp [watched, Stage.Patient, renames, declines, Relay.Patient]
  obtain ⟨-, -, -, -, ended, free, -⟩ := tracing_transparent (fun _ => .never) watched wanted 0 0
  exact ⟨rfl, fun visit mem => ⟨free patient visit mem, ended rfl visit mem (free patient visit mem)⟩⟩

private def hurries (request : Request) : Relay :=
  .limited 5 (.forward request) fun outcome => .done (outcome.getD (.error .cancelled))

private def hasty : Client :=
  { baseUrl := "http://localhost", headers := .empty, timeout := some (.ofMilliseconds 5),
    chain := traced [.tracing], exchange := Script.exchange [{ reply := .silence }] }

/-- A tracing link does not tell of the outcome of each call that it has told the start of: behind a
link that hands the request on once and waits for five ticks, or in a client with such a time limit,
the call ends without. -/
theorem outcome_untold_when_given_up :
    (Stage.other hurries).intercept.Relays Flow.Move.own ∧
    (((traced [.other hurries, .tracing]).proceed (fun _ => .never) wanted).run 0 0).ending =
      some (5, .error .cancelled) ∧
    (((traced [.other hurries, .tracing]).proceed (fun _ => .never) wanted).run 0 0).events =
      [(0, .sending "GET" wanted.uri 2)] ∧
    ((hasty.execute wanted).run 0 0).ending = some (5, .error (.timeout (.ofMilliseconds 5))) ∧
    ((hasty.execute wanted).run 0 0).events =
      [(0, .opened "GET" wanted.uri), (0, .sending "GET" wanted.uri 2),
        (0, .exchanged 0 wanted)] := by
  refine ⟨?_, rfl, rfl, rfl, rfl⟩
  intro request next
  exact ⟨hurries request, ⟨trivial, fun _ => trivial⟩, rfl⟩

end Stage

end Courier
