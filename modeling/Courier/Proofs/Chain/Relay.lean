import Courier.Chain.Layer
import Courier.Client.Basic
import Courier.Proofs.Chain.Deadline
import Courier.Proofs.Chain.Onion
/-!
Interceptors that use the rest of the chain at most once.

`Relay` says how a call may be put together around the rest of a chain: it does things of its own,
hands a request on once and perhaps for a limited time, and does more of its own. Whatever the rest of
the chain keeps to, a chain of interceptors whose calls are such keeps to as well (`Next.Relays`), and
it comes to the exchange at most once.
-/

namespace Courier

/-- Whether the event is a call of the exchange. -/
def Event.isExchange : Event → Bool
  | .exchanged .. => true
  | _ => false

/-- How many of the events are calls of the exchange. -/
def exchangeCalls (events : List (Nat × Event)) : Nat := events.countP (·.2.isExchange)

namespace Flow

variable {α β : Type}

/-- Does not call the exchange. -/
def Move.own : Move Event → Prop
  | .emit e => e.isExchange = false
  | _ => True

/-- However it is run, it calls the exchange at most so many times. -/
def Calls (most : Nat) (f : Flow Event α) : Prop :=
  ∀ now drawn, exchangeCalls (f.run now drawn).events ≤ most

theorem Only.calls {f : Flow Event α} (h : f.Only Move.own) : f.Calls 0 := by
  intro now drawn
  have none : exchangeCalls (f.run now drawn).events = 0 := by
    apply List.countP_eq_zero.mpr
    intro e mem
    have other : e.2.isExchange = false := h.events now drawn e mem
    simp [other]
  exact Nat.le_of_eq none

theorem Calls.bind {f : Flow Event α} {g : α → Flow Event β} {m n : Nat} (first : f.Calls m)
    (rest : ∀ a, (g a).Calls n) : (f.bind g).Calls (m + n) := by
  intro now drawn
  have before := first now drawn
  rw [run_bind]
  cases ending : (f.run now drawn).ending with
  | none => exact Nat.le_trans before (Nat.le_add_right m n)
  | some last =>
    have behind := rest last.2 last.1 (f.run now drawn).drawn
    simp only [exchangeCalls, List.countP_append] at before behind ⊢
    exact Nat.add_le_add before behind

theorem Calls.within {f : Flow Event α} {n : Nat} (h : f.Calls n) (limit : Nat) :
    (f.within limit).Calls n := by
  intro now drawn
  exact Nat.le_trans (run_within_events f limit now drawn).sublist.countP_le (h now drawn)

end Flow

open Courier.Flow (Move)

/-- How a call is put together around the rest of a chain, which it hands a request on to at most
once. -/
inductive Relay : Type 1 where
  | own (call : Call)
  | forward (request : Request)
  | before {α : Type} (first : Flow Event α) (rest : α → Relay)
  | after (inner : Relay) (last : Outcome → Call)
  /-- Goes on without an outcome if there is none in time. -/
  | limited (ticks : Nat) (inner : Relay) (last : Option Outcome → Call)

namespace Relay

/-- The call, with the rest of the chain put in its place. -/
def run (next : Next) : Relay → Call
  | .own call => call
  | .forward request => next.run request
  | .before first rest => first.bind fun a => (rest a).run next
  | .after inner last => (inner.run next).bind last
  | .limited ticks inner last => ((inner.run next).within ticks).bind last

/-- Makes only allowed moves of its own. -/
def Only (allowed : Move Event → Prop) : Relay → Prop
  | .own call => call.Only allowed
  | .forward _ => True
  | .before first rest => first.Only allowed ∧ ∀ a, (rest a).Only allowed
  | .after inner last => inner.Only allowed ∧ ∀ outcome, (last outcome).Only allowed
  | .limited _ inner last => inner.Only allowed ∧ ∀ outcome, (last outcome).Only allowed

end Relay

/-- A call that hands a request on at most once, and makes only allowed moves of its own. -/
def Next.Relays (allowed : Move Event → Prop) (next : Next) (call : Call) : Prop :=
  ∃ relay : Relay, relay.Only allowed ∧ relay.run next = call

namespace Next.Relays

variable {allowed : Move Event → Prop} {next : Next} {call : Call}

theorem own (mine : call.Only allowed) : next.Relays allowed call := ⟨.own call, mine, rfl⟩

theorem forward (request : Request) : next.Relays allowed (next.run request) :=
  ⟨.forward request, trivial, rfl⟩

theorem before {α : Type} {first : Flow Event α} {rest : α → Call} (mine : first.Only allowed)
    (relays : ∀ a, next.Relays allowed (rest a)) : next.Relays allowed (first.bind rest) := by
  obtain ⟨relay, each⟩ := Classical.axiomOfChoice relays
  have same : (fun a => (relay a).run next) = rest := funext fun a => (each a).2
  exact ⟨.before first relay, ⟨mine, fun a => (each a).1⟩, congrArg first.bind same⟩

theorem after {last : Outcome → Call} (relays : next.Relays allowed call)
    (mine : ∀ outcome, (last outcome).Only allowed) : next.Relays allowed (call.bind last) := by
  obtain ⟨inner, only, rfl⟩ := relays
  exact ⟨.after inner last, ⟨only, mine⟩, rfl⟩

end Next.Relays

/-- An interceptor that hands each request on at most once. -/
def Interceptor.Relays (allowed : Move Event → Prop) (i : Interceptor) : Prop :=
  ∀ request next, Next.Relays allowed next (i request next)

section relays

variable {allowed wider : Move Event → Prop} {next : Next} {call : Call}

theorem Next.Relays.only (h : next.Relays allowed call) (wide : ∀ m, allowed m → wider m)
    (rest : ∀ request, (next.run request).Only wider) : call.Only wider := by
  obtain ⟨relay, only, rfl⟩ := h
  induction relay with
  | own call => exact only.mono wide
  | forward request => exact rest request
  | before first later ih => exact (only.1.mono wide).bind fun a => ih a (only.2 a)
  | after inner last ih => exact (ih only.1).bind fun outcome => (only.2 outcome).mono wide
  | limited ticks inner last ih =>
    exact ((ih only.1).within ticks).bind fun outcome => (only.2 outcome).mono wide

theorem Next.Relays.calls (h : next.Relays allowed call) (own : ∀ m, allowed m → m.own)
    (rest : ∀ request, (next.run request).Calls 1) : call.Calls 1 := by
  have none : ∀ {α : Type} {f : Flow Event α}, f.Only allowed → f.Calls 0 :=
    fun mine => (mine.mono own).calls
  obtain ⟨relay, only, rfl⟩ := h
  induction relay with
  | own call => exact fun now drawn => Nat.le_succ_of_le (none only now drawn)
  | forward request => exact rest request
  | before first later ih =>
    have both := (none only.1).bind fun a => ih a (only.2 a)
    rwa [Nat.zero_add] at both
  | after inner last ih => exact (ih only.1).bind fun outcome => none (only.2 outcome)
  | limited ticks inner last ih =>
    exact ((ih only.1).within ticks).bind fun outcome => none (only.2 outcome)

end relays

section chain

variable {allowed wider : Move Event → Prop} {links : List Interceptor}

theorem forward_only {exchange : Exchange} (relays : ∀ link ∈ links, link.Relays allowed)
    (wide : ∀ m, allowed m → wider m) (last : ∀ request, (exchange request).Only wider)
    (request : Request) : (Chain.forward exchange links request).Only wider := by
  induction links generalizing request with
  | nil => exact last request
  | cons link rest ih =>
    have first := relays link List.mem_cons_self
    exact (first request _).only wide
      (ih fun link mem => relays link (List.mem_cons_of_mem _ mem))

theorem forward_calls {exchange : Exchange} (relays : ∀ link ∈ links, link.Relays allowed)
    (own : ∀ m, allowed m → m.own) (last : ∀ request, (exchange request).Calls 1)
    (request : Request) : (Chain.forward exchange links request).Calls 1 := by
  induction links generalizing request with
  | nil => exact last request
  | cons link rest ih =>
    have first := relays link List.mem_cons_self
    exact (first request _).calls own
      (ih fun link mem => relays link (List.mem_cons_of_mem _ mem))

end chain

/-- An exchange that shows each of its calls once comes to one call for each request. -/
theorem announced_calls {answer : Nat → Exchange}
    (own : ∀ n request, (answer n request).Only Move.own) (request : Request) :
    (Exchange.announced answer request).Calls 1 := by
  intro now drawn
  have none := (own drawn request).calls now (drawn + 1)
  have split : exchangeCalls ((Exchange.announced answer request).run now drawn).events =
      exchangeCalls ((answer drawn request).run now (drawn + 1)).events + 1 :=
    List.countP_cons_of_pos rfl
  omega

/-- The client's interceptors hand on at most once, and they and its exchange make only allowed
moves of their own. The exchange answers its calls by their number. -/
structure Client.Keeps (c : Client) (allowed : Move Event → Prop) (answer : Nat → Exchange) :
    Prop where
  links : ∀ link ∈ c.chain.links, link.Relays allowed
  exchange : c.exchange = Exchange.announced answer
  answers : ∀ n request, (answer n request).Only allowed

namespace Client.Keeps

variable {c : Client} {allowed : Move Event → Prop} {answer : Nat → Exchange}

theorem proceed_calls (h : c.Keeps allowed answer) (own : ∀ m, allowed m → m.own)
    (request : Request) : (c.chain.proceed c.exchange request).Calls 1 := by
  have last : ∀ request, (c.exchange request).Calls 1 := by
    rw [h.exchange]
    exact announced_calls fun n request => (h.answers n request).mono own
  exact forward_calls h.links own last request

/-- Whatever the limit, a request comes to the exchange at most once. -/
theorem dispatch_calls (h : c.Keeps allowed answer) (own : ∀ m, allowed m → m.own)
    (request : Request) (timeout : Option Duration) : (c.dispatch request timeout).Calls 1 := by
  have once := h.proceed_calls own request
  have inner : ∀ call : Call, call.Calls 1 →
      (Flow.emit (.opened request.method request.uri) call).Calls 1 :=
    fun call h now drawn => h now drawn
  cases timeout with
  | none => exact inner _ once
  | some limit =>
    have ends : ∀ outcome : Option Outcome,
        (Flow.done (outcome.getD (.error (.timeout limit))) : Call).Calls 0 :=
      fun _ _ _ => Nat.le_refl 0
    exact inner _ ((once.within limit.ticks).bind ends)

end Client.Keeps

namespace Interceptor

variable {allowed : Move Event → Prop}

theorem header_relays (name : HeaderName) (value : HeaderValue) :
    (header name value).Relays allowed :=
  fun request _ => .forward (request.setHeader name value)

/-- Tells of the request once before and once after it hands the request on. -/
theorem tracing_relays (tells : ∀ e : Event, e.isExchange = false → allowed (.emit e)) :
    tracing.Relays allowed := by
  intro request next
  have first : (Flow.say (.sending request.method request.uri request.body.length)).Only allowed :=
    ⟨tells _ rfl, trivial⟩
  refine .before first fun _ => .after (.forward request) fun outcome => ?_
  cases outcome with
  | ok response => exact ⟨tells _ rfl, trivial⟩
  | error e => exact ⟨tells _ rfl, trivial⟩

end Interceptor

namespace Layer

variable {allowed : Move Event → Prop}

theorem runBefore_only (steps : List Before) (request : Request)
    (pauses : .pause ∈ steps → allowed .pause) : (runBefore request steps).Only allowed := by
  induction steps generalizing request with
  | nil => trivial
  | cons step rest ih =>
    have later : .pause ∈ rest → allowed .pause :=
      fun mem => pauses (List.mem_cons_of_mem _ mem)
    cases step with
    | alter change => exact ih (change request) later
    | wait span => exact ih request later
    | pause => exact ⟨pauses List.mem_cons_self, ih request later⟩

theorem runAfter_only (steps : List After) (outcome : Outcome) :
    (runAfter outcome steps).Only allowed := by
  induction steps generalizing outcome with
  | nil => trivial
  | cons step rest ih =>
    cases step with
    | revise change => exact ih (change outcome)
    | wait span => exact ih outcome

/-- A layer hands the request on at most once, between its own two events. -/
theorem intercept_relays (l : Layer) (pauses : .pause ∈ l.before → allowed .pause)
    (tells : ∀ e : Event, e.isExchange = false → allowed (.emit e)) :
    l.intercept.Relays allowed := by
  intro request next
  have entry : (Flow.say (.entered l.label next.remaining request)).Only allowed :=
    ⟨tells _ rfl, trivial⟩
  have back : ∀ outcome, Flow.Only allowed
      ((runAfter outcome l.after).bind fun outcome =>
        .emit (.left l.label outcome) (.done outcome)) :=
    fun outcome => (runAfter_only l.after outcome).bind fun outcome => ⟨tells _ rfl, trivial⟩
  refine .before entry fun _ => .before (runBefore_only l.before request pauses) fun rewritten => ?_
  cases l.turn with
  | forward => exact .after (.forward rewritten) back
  | answer outcome =>
    have own : (Flow.done outcome : Call).Only allowed := trivial
    exact .after (.own own) back

end Layer

theorem Script.answer_only {allowed : Move Event → Prop} (s : Script) (request : Request) :
    (s.answer request).Only allowed := by
  unfold Script.answer
  cases s.reply <;> trivial

end Courier
