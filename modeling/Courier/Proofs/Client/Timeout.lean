import Courier.Proofs.Chain.Relay
/-!
Time limits of calls.

A limit lets a call be or cuts it short, and does nothing else: a call that ends in time ends as it
would without the limit, and any other call is given up at the deadline with what it has done by
then. `dispatch_only_truncates` is the main result. Times are those of the clock, which ticks once a
millisecond, so the deadline is the limit rounded up to whole milliseconds: a call can outlast its
limit by less than one and still be in time (`call_kept_past_limit`).
-/

namespace Courier

open Courier.Flow (Move)

theorem Duration.ticks_le_iff (d : Duration) (n : Nat) :
    d.ticks ≤ n ↔ d.nanoseconds ≤ n * 1000000 := by
  unfold ticks
  omega

theorem Duration.ticks_mono {d e : Duration} (h : d.nanoseconds ≤ e.nanoseconds) :
    d.ticks ≤ e.ticks := by
  have reached := (e.ticks_le_iff e.ticks).mp (Nat.le_refl _)
  exact (d.ticks_le_iff e.ticks).mpr (Nat.le_trans h reached)

namespace Client

variable {c : Client} {answer : Nat → Exchange} {request : Request} {limit : Duration}
  {now drawn : Nat}

/-- Without pauses and with the exchange at its end, a chain does not pause. -/
theorem Keeps.proceed_prompt (keeps : c.Keeps (fun m => m.own ∧ m.prompt) answer)
    (request : Request) : (c.chain.proceed c.exchange request).Only Move.prompt := by
  have last : ∀ request, (c.exchange request).Only Move.prompt := by
    intro request
    rw [keeps.exchange]
    exact ⟨trivial, fun n => ⟨trivial, (keeps.answers n request).mono fun _ h => h.2⟩⟩
  exact forward_only keeps.links (fun _ h => h.2) last request

theorem dispatch_run_of_ends (prompt : (c.chain.proceed c.exchange request).Only Move.prompt)
    {time : Nat} {result : Outcome}
    (ends : ((c.dispatch request none).run now drawn).ending = some (time, result))
    (timely : time ≤ now + limit.ticks) :
    (c.dispatch request (some limit)).run now drawn = (c.dispatch request none).run now drawn := by
  have kept := Flow.run_within_of_ends prompt ends timely
  simp only [dispatch, Flow.run] at ends
  simp only [dispatch, Flow.run, Flow.run_bind, kept, Option.getD_some, List.append_nil, ends]

theorem dispatch_run_of_late (prompt : (c.chain.proceed c.exchange request).Only Move.prompt)
    (late : ∀ time result, ((c.dispatch request none).run now drawn).ending = some (time, result) →
      now + limit.ticks < time) :
    ((c.dispatch request (some limit)).run now drawn).ending =
        some (now + limit.ticks, .error (.timeout limit)) ∧
      ((c.dispatch request (some limit)).run now drawn).events =
        ((c.dispatch request none).run now drawn).events.filter (·.1 ≤ now + limit.ticks) := by
  obtain ⟨ending, events⟩ := Flow.run_within_of_late prompt late
  have opened : decide (now ≤ now + limit.ticks) = true := decide_eq_true (Nat.le_add_right _ _)
  simp only [dispatch, Flow.run, Flow.run_bind, ending, events, Option.getD_none, List.append_nil,
    List.filter_cons, opened, if_true, and_self]

/-- What is seen of a call under a limit is a first part of what is seen of it without one. -/
theorem dispatch_run_events (c : Client) (request : Request) (limit : Duration) (now drawn : Nat) :
    ((c.dispatch request (some limit)).run now drawn).events <+:
      ((c.dispatch request none).run now drawn).events := by
  have cut := Flow.run_within_events (c.chain.proceed c.exchange request) limit.ticks now drawn
  simp only [dispatch, Flow.run, Flow.run_bind]
  refine List.cons_prefix_cons.mpr ⟨rfl, ?_⟩
  split
  · exact cut
  · rwa [List.append_nil]

/-- The deadline is the limit, rounded up to whole milliseconds. A call that ends by the deadline is the
same under the limit and under any longer one. Any other call ends at the deadline, and what is seen of
it is what can be seen up to then without the limit. Either way the exchange is called at most once. -/
theorem dispatch_only_truncates (keeps : c.Keeps (fun m => m.own ∧ m.prompt) answer)
    (request : Request) (limit : Duration) (now drawn : Nat) :
    let free := (c.dispatch request none).run now drawn
    let kept := (c.dispatch request (some limit)).run now drawn
    let deadline := now + limit.ticks
    (∀ n, deadline ≤ now + n ↔ limit.nanoseconds ≤ n * 1000000) ∧
    (∀ time result, free.ending = some (time, result) → time ≤ deadline →
      kept = free ∧
        ∀ longer : Duration, limit.nanoseconds ≤ longer.nanoseconds →
          (c.dispatch request (some longer)).run now drawn = free) ∧
    ((∀ time result, free.ending = some (time, result) → deadline < time) →
      kept.ending = some (deadline, .error (.timeout limit)) ∧
        kept.events <+: free.events ∧
        kept.events = free.events.filter (·.1 ≤ deadline)) ∧
    exchangeCalls kept.events ≤ 1 := by
  intro free kept deadline
  have prompt := keeps.proceed_prompt request
  refine ⟨?_, ?_, ?_, keeps.dispatch_calls (fun _ h => h.1) request (some limit) now drawn⟩
  · intro n
    rw [← limit.ticks_le_iff]
    exact Nat.add_le_add_iff_left
  · intro time result ends timely
    refine ⟨dispatch_run_of_ends prompt ends timely, ?_⟩
    intro longer more
    have later := Duration.ticks_mono more
    exact dispatch_run_of_ends prompt ends (by omega)
  · intro late
    obtain ⟨ending, events⟩ := dispatch_run_of_late prompt late
    exact ⟨ending, dispatch_run_events c request limit now drawn, events⟩

private def fetching : Request := { method := "GET", uri := ⟨none, none, "/", none⟩ }

private def dawdles : Layer :=
  { label := "dawdles", before := [.wait (.ofMilliseconds 3)],
    after := [.wait (.ofMilliseconds 2)] }

private def slowReply : Script := { delay := .ofMilliseconds 5 }

private def names : Interceptor := .header ⟨"x-id"⟩ ⟨[49]⟩

private def named : Request := fetching.setHeader ⟨"x-id"⟩ ⟨[49]⟩

private def slow : Client :=
  { baseUrl := "http://localhost", headers := .empty, timeout := none,
    chain := .ofList [dawdles.intercept, names], exchange := Script.exchange [slowReply] }

/-- Ten milliseconds are just enough for a call that takes ten. One less, and the call is given up
while the outcome is on its way back, after the exchange has answered. -/
theorem dispatch_only_truncates_slow :
    (slow.dispatch fetching (some (.ofMilliseconds 10))).run 0 0 =
        (slow.dispatch fetching none).run 0 0 ∧
      ((slow.dispatch fetching (some (.ofMilliseconds 9))).run 0 0).ending =
        some (9, .error (.timeout (.ofMilliseconds 9))) ∧
      ((slow.dispatch fetching (some (.ofMilliseconds 9))).run 0 0).events =
        [(0, .opened "GET" fetching.uri), (0, .entered "dawdles" 1 fetching),
          (3, .exchanged 0 named)] := by
  have keeps : slow.Keeps (fun m => m.own ∧ m.prompt)
      fun n => (Script.select [slowReply] n).answer :=
    { links := by
        intro link mem
        obtain rfl | rfl : link = dawdles.intercept ∨ link = names := by
          simpa [slow, Chain.ofList] using mem
        · exact dawdles.intercept_relays (by simp [dawdles]) fun _ own => ⟨own, trivial⟩
        · exact Interceptor.header_relays _ _
      exchange := rfl
      answers := fun n => (Script.select [slowReply] n).answer_only }
  have ends : ((slow.dispatch fetching none).run 0 0).ending =
      some (10, .ok { status := .ok }) := rfl
  obtain ⟨-, timely, -, -⟩ := dispatch_only_truncates keeps fetching (.ofMilliseconds 10) 0 0
  obtain ⟨-, -, late, -⟩ := dispatch_only_truncates keeps fetching (.ofMilliseconds 9) 0 0
  have nine : 0 + (Duration.ofMilliseconds 9).ticks = 9 := by decide
  rw [nine] at late
  have tooLate : ∀ time result,
      ((slow.dispatch fetching none).run 0 0).ending = some (time, result) → 9 < time := by
    intro time result h
    rw [ends] at h
    cases h
    decide
  obtain ⟨ending, -, events⟩ := late tooLate
  have free : ((slow.dispatch fetching none).run 0 0).events =
      [(0, .opened "GET" fetching.uri), (0, .entered "dawdles" 1 fetching),
        (3, .exchanged 0 named), (10, .left "dawdles" (.ok { status := .ok }))] := rfl
  have seen : ((slow.dispatch fetching none).run 0 0).events.filter (·.1 ≤ 9) =
      [(0, .opened "GET" fetching.uri), (0, .entered "dawdles" 1 fetching),
        (3, .exchanged 0 named)] := by
    rw [free]
    rfl
  exact ⟨(timely 10 _ ends (by decide)).1, ending, events.trans seen⟩

private def tardy : Client :=
  { baseUrl := "http://localhost", headers := .empty, timeout := none, chain := .empty,
    exchange := Script.exchange [{ delay := .ofMilliseconds 10 }] }

/-- A call that takes ten milliseconds is not given up under a limit of one nanosecond less. -/
theorem call_kept_past_limit :
    ((tardy.dispatch fetching none).run 0 0).ending = some (10, .ok { status := .ok }) ∧
      (Duration.mk 9999999).nanoseconds < (Duration.ofMilliseconds 10).nanoseconds ∧
      ((tardy.dispatch fetching (some ⟨9999999⟩)).run 0 0).ending =
        some (10, .ok { status := .ok }) ∧
      ∀ time, ((tardy.dispatch fetching (some ⟨9999999⟩)).run 0 0).ending ≠
        some (time, .error (.timeout ⟨9999999⟩)) := by
  have kept : ((tardy.dispatch fetching (some ⟨9999999⟩)).run 0 0).ending =
      some (10, .ok { status := .ok }) := rfl
  refine ⟨rfl, by decide, kept, ?_⟩
  intro time same
  rw [kept] at same
  cases same

end Client

end Courier
