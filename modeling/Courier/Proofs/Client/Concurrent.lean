import Courier.Proofs.Chain.Join
import Courier.Proofs.Chain.Relay
/-!
Calls of one client that run beside each other.

The calls share the client, its chain and its exchange, the clock and the numbers that the exchange
gives its calls. If the exchange answers by the request alone, each call goes as it goes alone, in
whatever order the calls take their steps: `calls_do_not_interfere` is the main result, and
`joined_calls` is the same for calls that are joined into one flow. The numbers are the one thing that
others can change, so events are compared without them.
-/

namespace Courier

open Courier.Flow (Move)

/-- The event without the number that the exchange gave the call. -/
def Event.unnumbered : Event → Event
  | .exchanged _ request => .exchanged 0 request
  | e => e

theorem Event.isExchange_unnumbered (e : Event) : e.unnumbered.isExchange = e.isExchange := by
  cases e <;> rfl

theorem exchangeCalls_seen {α : Type} (r : Flow.Run Event α) :
    exchangeCalls (r.seen Event.unnumbered) = exchangeCalls r.events := by
  unfold exchangeCalls Flow.Run.seen
  rw [List.countP_map]
  apply List.countP_congr
  intro e _
  exact iff_of_eq (congrArg (· = true) (Event.isExchange_unnumbered e.2))

section blind

variable {allowed : Move Event → Prop}

theorem Next.Relays.blind {next : Next} {call : Call} (h : next.Relays allowed call)
    (drawless : ∀ m, allowed m → m.drawless)
    (rest : ∀ request, (next.run request).Blind Event.unnumbered) :
    call.Blind Event.unnumbered := by
  have own : ∀ {α : Type} {f : Flow Event α}, f.Only allowed → f.Blind Event.unnumbered :=
    fun mine => (mine.mono drawless).blind
  obtain ⟨relay, only, rfl⟩ := h
  induction relay with
  | own call => exact own only
  | forward request => exact rest request
  | before first later ih => exact (own only.1).bind fun a => ih a (only.2 a)
  | after inner last ih => exact (ih only.1).bind fun outcome => own (only.2 outcome)
  | limited ticks inner last ih =>
    exact ((ih only.1).within ticks).bind fun outcome => own (only.2 outcome)

theorem forward_blind {exchange : Exchange} {links : List Interceptor}
    (relays : ∀ link ∈ links, link.Relays allowed) (drawless : ∀ m, allowed m → m.drawless)
    (last : ∀ request, (exchange request).Blind Event.unnumbered) (request : Request) :
    (Chain.forward exchange links request).Blind Event.unnumbered := by
  induction links generalizing request with
  | nil => exact last request
  | cons link rest ih =>
    have first := relays link List.mem_cons_self
    exact (first request _).blind drawless
      (ih fun link mem => relays link (List.mem_cons_of_mem _ mem))

/-- An exchange that answers by the request alone uses its numbers for nothing but the count. -/
theorem announced_blind {answer : Exchange} {request : Request}
    (blind : (answer request).Blind Event.unnumbered) :
    (Exchange.announced (fun _ => answer) request).Blind Event.unnumbered :=
  fun _ => ⟨blind, rfl⟩

end blind

namespace Client

/-- A call that a client can be asked to make. -/
inductive Order where
  | execute (request : Request)
  | send (draft : Draft)

def call (c : Client) : Order → Call
  | .execute request => c.execute request
  | .send draft => c.send draft

/-- A call is settled before it starts, or it is the dispatch of a request. -/
theorem call_cases (c : Client) (order : Order) :
    (∃ outcome, c.call order = .done outcome) ∨
      ∃ request timeout, c.call order = c.dispatch request timeout := by
  cases order with
  | execute request => exact .inr ⟨request, c.timeout, rfl⟩
  | send draft =>
    simp only [call, send]
    cases c.assemble draft with
    | error e => exact .inl ⟨.error e, rfl⟩
    | ok assembled => exact .inr ⟨assembled.1, assembled.2, rfl⟩

namespace Keeps

variable {c : Client} {allowed : Move Event → Prop}

theorem call_calls {answer : Nat → Exchange} (keeps : c.Keeps allowed answer)
    (own : ∀ m, allowed m → m.own) (order : Order) : (c.call order).Calls 1 := by
  obtain ⟨outcome, settled⟩ | ⟨request, timeout, sent⟩ := c.call_cases order
  · rw [settled]
    exact fun _ _ => Nat.zero_le 1
  · rw [sent]
    exact keeps.dispatch_calls own request timeout

theorem dispatch_blind {answer : Exchange} (keeps : c.Keeps allowed fun _ => answer)
    (drawless : ∀ m, allowed m → m.drawless) (request : Request) (timeout : Option Duration) :
    (c.dispatch request timeout).Blind Event.unnumbered := by
  have last : ∀ request, (c.exchange request).Blind Event.unnumbered := by
    intro request
    rw [keeps.exchange]
    exact announced_blind ((keeps.answers 0 request).mono drawless).blind
  have chain : (c.chain.proceed c.exchange request).Blind Event.unnumbered :=
    forward_blind keeps.links drawless last request
  cases timeout with
  | none => exact chain
  | some limit => exact (chain.within limit.ticks).bind fun _ => trivial

theorem call_blind {answer : Exchange} (keeps : c.Keeps allowed fun _ => answer)
    (drawless : ∀ m, allowed m → m.drawless) (order : Order) :
    (c.call order).Blind Event.unnumbered := by
  obtain ⟨outcome, settled⟩ | ⟨request, timeout, sent⟩ := c.call_cases order
  · rw [settled]
    trivial
  · rw [sent]
    exact keeps.dispatch_blind drawless request timeout

end Keeps

/-- Calls that are joined into one, with the order of steps that the join fixes, go as each goes
alone. -/
theorem joined_calls {c : Client} {answer : Exchange}
    (keeps : c.Keeps (fun m => m.own ∧ m.drawless) fun _ => answer) (orders : List Order)
    (now drawn : Nat) :
    let alone := fun order => (c.call order).run now 0
    let joined := (Flow.all (orders.map c.call)).run now drawn
    Flow.Shuffles (orders.map fun order => (alone order).seen Event.unnumbered)
        (joined.seen Event.unnumbered) ∧
      joined.ending = ((orders.mapM fun order => (alone order).ending).map fun ends =>
        (ends.foldr (fun e latest => max e.1 latest) now, ends.map Prod.snd)) ∧
      exchangeCalls joined.events =
        (orders.map fun order => exchangeCalls (alone order).events).sum := by
  intro alone joined
  have blind : ∀ f ∈ orders.map c.call, f.Blind Event.unnumbered := by
    intro f mem
    obtain ⟨order, -, rfl⟩ := List.mem_map.mp mem
    exact keeps.call_blind (fun _ h => h.2) order
  obtain ⟨events, ending⟩ := Flow.all_run blind now drawn 0
  rw [List.map_map] at events
  rw [List.mapM_map] at ending
  refine ⟨events, ending, ?_⟩
  have total := events.countP fun e => e.2.isExchange
  rw [List.map_map] at total
  calc exchangeCalls joined.events
      = exchangeCalls (joined.seen Event.unnumbered) := (exchangeCalls_seen joined).symm
    _ = _ := total
    _ = (orders.map fun order => exchangeCalls (alone order).events).sum := by
      congr 1
      apply List.map_congr_left
      intro order _
      exact exchangeCalls_seen (alone order)

/-- Any number of calls, each from its own time on, take their steps in any order. At every moment
each has shown a first part of what it shows alone, and once it has a result that is its result
alone. When no step is left, all have shown and given what they do alone, and the exchange has been
called as often as for all of them alone, at most once for each. That moment always comes. -/
theorem calls_do_not_interfere {c : Client} {answer : Exchange}
    (keeps : c.Keeps (fun m => m.own ∧ m.drawless) fun _ => answer)
    {n : Nat} (orders : Fin n → Nat × Order) (drawn : Nat) {p : Pool n Event Outcome}
    (runs : (Pool.start drawn fun i => ⟨(orders i).1, c.call (orders i).2⟩).Runs p) :
    let alone := fun i => (c.call (orders i).2).run (orders i).1 0
    (∀ i, p.seen Event.unnumbered i <+: (alone i).seen Event.unnumbered ∧
      exchangeCalls (alone i).events ≤ 1 ∧
      ∀ result, (p.tasks i).result? = some result →
        (alone i).ending = some result ∧
          p.seen Event.unnumbered i = (alone i).seen Event.unnumbered) ∧
    ((∀ q, ¬ p.Step q) →
      (∀ i, (p.tasks i).result? = (alone i).ending ∧
        p.seen Event.unnumbered i = (alone i).seen Event.unnumbered) ∧
      exchangeCalls (p.log.map Prod.snd) = ∑ i, exchangeCalls (alone i).events) ∧
    (∃ q, p.Runs q ∧ ∀ r, ¬ q.Step r) ∧
    ∀ pools : Nat → Pool n Event Outcome, pools 0 = p →
      ¬ ∀ k, (pools k).Step (pools (k + 1)) := by
  intro alone
  have blind : ∀ i, (c.call (orders i).2).Blind Event.unnumbered :=
    fun i => keeps.call_blind (fun _ h => h.2) (orders i).2
  have follows : ∀ i, p.Follows Event.unnumbered i ⟨(orders i).1, c.call (orders i).2⟩ :=
    fun i => Pool.runs_follow runs (Pool.start_follows drawn (blind i))
  have plainly : ∀ i, (alone i).seen Event.unnumbered = _ ∧ (alone i).ending = _ :=
    fun i => (blind i).run (orders i).1 0 0
  have ended : ∀ i, (p.tasks i).rest.isOver = true →
      (p.tasks i).result? = (alone i).ending ∧
        p.seen Event.unnumbered i = (alone i).seen Event.unnumbered := by
    intro i h
    obtain ⟨seen, result⟩ := (follows i).ended h
    exact ⟨result.trans (plainly i).2.symm, seen.trans (plainly i).1.symm⟩
  refine ⟨?_, ?_, Pool.runs_complete follows, ?_⟩
  · intro i
    refine ⟨?_, keeps.call_calls (fun _ h => h.1) _ _ _, ?_⟩
    · rw [(plainly i).1]
      exact (follows i).begins
    · intro result done
      obtain ⟨same, seen⟩ := ended i (Task.over_of_result done)
      exact ⟨same.symm.trans done, seen⟩
  · intro stuck
    have all : ∀ i, (p.tasks i).result? = (alone i).ending ∧
        p.seen Event.unnumbered i = (alone i).seen Event.unnumbered :=
      fun i => ended i (Pool.over_of_no_step stuck i)
    refine ⟨all, ?_⟩
    have total := Pool.count_seen Event.unnumbered Event.isExchange p
    simp only [Event.isExchange_unnumbered] at total
    calc exchangeCalls (p.log.map Prod.snd)
        = p.log.countP (fun entry => entry.2.2.isExchange) := List.countP_map
      _ = ∑ i, exchangeCalls (p.seen Event.unnumbered i) := total
      _ = ∑ i, exchangeCalls (alone i).events := by
        apply Finset.sum_congr rfl
        intro i _
        rw [(all i).2, exchangeCalls_seen]
  · intro pools first
    exact Pool.no_endless_run (first ▸ follows)

private def yielding : Layer :=
  { label := "yielding", before := [.pause, .wait (.ofMilliseconds 3), .pause] }

private def echoing : Script := { delay := .ofMilliseconds 5 }

private def shared : Client :=
  { baseUrl := "http://localhost", headers := .empty, timeout := some (.ofMilliseconds 9),
    chain := .ofList [yielding.intercept, Interceptor.tracing],
    exchange := Script.exchange [echoing] }

private def posting (content : Bytes) : Request :=
  { method := "POST", uri := ⟨none, none, "/", none⟩, body := content }

/-- The second call begins while the first one waits. -/
private def twoOrders : Fin 2 → Nat × Order
  | 0 => (0, .execute (posting [1]))
  | 1 => (2, .execute (posting [2]))

/-- Two calls under a limit that each of them meets only on its own clock. -/
theorem calls_do_not_interfere_echo :
    ∃ q : Pool 2 Event Outcome,
      (Pool.start 0 fun i => ⟨(twoOrders i).1, shared.call (twoOrders i).2⟩).Runs q ∧
      (∀ r, ¬ q.Step r) ∧
      (q.tasks 0).result? = some (8, .ok { status := .ok, body := [1] }) ∧
      (q.tasks 1).result? = some (10, .ok { status := .ok, body := [2] }) ∧
      exchangeCalls (q.log.map Prod.snd) = 2 := by
  have keeps : shared.Keeps (fun m => m.own ∧ m.drawless) fun _ => echoing.answer :=
    { links := by
        intro link mem
        obtain rfl | rfl : link = yielding.intercept ∨ link = Interceptor.tracing := by
          simpa [shared, Chain.ofList] using mem
        · exact yielding.intercept_relays (fun _ => ⟨trivial, trivial⟩) fun _ own => ⟨own, trivial⟩
        · exact Interceptor.tracing_relays fun _ own => ⟨own, trivial⟩
      exchange := rfl
      answers := fun _ => echoing.answer_only }
  obtain ⟨-, -, ⟨q, runs, stuck⟩, -⟩ := calls_do_not_interfere keeps twoOrders 0 .refl
  obtain ⟨-, ended, -, -⟩ := calls_do_not_interfere keeps twoOrders 0 runs
  obtain ⟨results, count⟩ := ended stuck
  refine ⟨q, runs, stuck, (results 0).1.trans ?_, (results 1).1.trans ?_, count.trans ?_⟩
  · rfl
  · rfl
  · rw [Fin.sum_univ_two]
    rfl

end Client

end Courier
