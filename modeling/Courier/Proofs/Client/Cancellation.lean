import Courier.Proofs.Chain.Interruption
import Courier.Proofs.Client.Concurrent
/-!
Calls that are given up from outside.

A call that is given up before it begins does nothing at all. Once it has begun it can be given up
only while it waits, whatever it waits for: an interceptor, the exchange or its own time limit. Then it
ends there with an error that says so, after a first part of what it would have done. If it is over
before, nothing is changed. `abort_cancels_or_keeps` is the main result.
-/

namespace Courier.Client

open Courier.Flow (Move)

variable (c : Client) (d : Draft)

theorem run_during_of_le {wait drawn : Nat} (ended : (c.send d).waits drawn ≤ wait)
    (span : Duration) (now : Nat) :
    (c.sendAbortable d (.during wait span)).run now drawn = (c.send d).run now drawn := by
  unfold sendAbortable sendAbortable.orCancelled
  rw [Flow.run_bind_done, Flow.run_cut_of_le ended, Flow.Run.map_some_getD]

theorem run_during_of_lt {wait drawn : Nat} (waiting : wait < (c.send d).waits drawn)
    (span : Duration) (now : Nat) :
    ∃ time, ((c.send d).run now drawn).StoppedAt time (.error .cancelled)
      ((c.sendAbortable d (.during wait span)).run now drawn) := by
  obtain ⟨time, stopped⟩ := Flow.run_cut_of_lt waiting span.ticks now
  unfold sendAbortable sendAbortable.orCancelled
  rw [Flow.run_bind_done]
  exact ⟨time, stopped.map (·.getD (.error .cancelled))⟩

theorem run_after (span : Duration) (now drawn : Nat) :
    (∃ time result, ((c.send d).run now drawn).ending = some (time, result) ∧
      time ≤ now + span.ticks ∧
      (c.sendAbortable d (.after span)).run now drawn = (c.send d).run now drawn) ∨
    ((c.send d).run now drawn).StoppedAt (now + span.ticks) (.error .cancelled)
      ((c.sendAbortable d (.after span)).run now drawn) := by
  unfold sendAbortable sendAbortable.orCancelled
  rw [Flow.run_bind_done]
  obtain ⟨time, result, ends, timely, same⟩ | stopped :=
    (c.send d).run_within span.ticks now drawn
  · rw [same, Flow.Run.map_some_getD]
    exact .inl ⟨time, result, ends, timely, rfl⟩
  · exact .inr (stopped.map (·.getD (.error .cancelled)))

/-- Whenever a call is given up, it goes as if it were not, or it is stopped. -/
theorem run_abortable (abort : Abort) (now drawn : Nat) :
    (c.sendAbortable d abort).run now drawn = (c.send d).run now drawn ∨
      ∃ time, ((c.send d).run now drawn).StoppedAt time (.error .cancelled)
        ((c.sendAbortable d abort).run now drawn) := by
  cases abort with
  | never => exact .inl rfl
  | before => exact .inr ⟨now, (c.send d).stopped_at_start (Nat.le_refl now) drawn drawn _⟩
  | after span =>
    obtain ⟨_, _, -, -, same⟩ | stopped := c.run_after d span now drawn
    · exact .inl same
    · exact .inr ⟨_, stopped⟩
  | during wait span =>
    obtain waiting | ended := Nat.lt_or_ge wait ((c.send d).waits drawn)
    · exact .inr (c.run_during_of_lt d waiting span now)
    · exact .inl (c.run_during_of_le d ended span now)

/-- A call that is given up before it begins is over at once, without a look at the draft. One that is
given up in a wait is stopped there with the error for that, and one that is over before that wait
goes as if it were not given up. One that is given up at some time ends by then as it would, or is
stopped then. There is no other way for it to go, and if the interceptors hand a request on at most
once, the exchange is called at most once in any of them. -/
theorem abort_cancels_or_keeps (c : Client) (d : Draft) (now drawn : Nat) :
    let free := (c.send d).run now drawn
    let run := fun abort => (c.sendAbortable d abort).run now drawn
    let waits := (c.send d).waits drawn
    c.sendAbortable d .before = .done (.error .cancelled) ∧
    run .never = free ∧
    (∀ wait span, wait < waits →
      ∃ time, free.StoppedAt time (.error .cancelled) (run (.during wait span))) ∧
    (∀ wait span, waits ≤ wait → run (.during wait span) = free) ∧
    (∀ span,
      (∃ time result, free.ending = some (time, result) ∧ time ≤ now + span.ticks ∧
        run (.after span) = free) ∨
      free.StoppedAt (now + span.ticks) (.error .cancelled) (run (.after span))) ∧
    ∀ abort,
      (run abort = free ∨ ∃ time, free.StoppedAt time (.error .cancelled) (run abort)) ∧
      (run abort).events <+: free.events ∧
      ∀ allowed answer, c.Keeps allowed answer → (∀ m, allowed m → m.own) →
        exchangeCalls (run abort).events ≤ 1 := by
  intro free run waits
  refine ⟨rfl, rfl, ?_, ?_, ?_, ?_⟩
  · intro wait span waiting
    exact c.run_during_of_lt d waiting span now
  · intro wait span ended
    exact c.run_during_of_le d ended span now
  · intro span
    exact c.run_after d span now drawn
  · intro abort
    have ends := c.run_abortable d abort now drawn
    have seen : (run abort).events <+: free.events := by
      obtain same | ⟨_, stopped⟩ := ends
      · simp only [run, free, same, List.prefix_refl]
      · exact stopped.prefix_events
    refine ⟨ends, seen, ?_⟩
    intro allowed answer keeps own
    exact Nat.le_trans seen.sublist.countP_le (keeps.call_calls own (.send d) now drawn)

private def yields : Layer :=
  { label := "yields", before := [.pause, .wait (.ofMilliseconds 3)] }

private def patient : Client :=
  { baseUrl := "http://localhost", headers := .empty, timeout := some (.ofMilliseconds 20),
    chain := .ofList [yields.intercept],
    exchange := Script.exchange [{ delay := .ofMilliseconds 5 }] }

private def page : Draft := { method := "GET", path := "/a" }

private def paged : Request :=
  { method := "GET", uri := ⟨some "http", some "localhost", "/a", none⟩ }

/-- A call that waits three times, and one that has a fault before it is sent. Given up two
milliseconds into its third wait, the first has called the exchange. A fourth wait does not come. -/
theorem abort_cancels_or_keeps_yielding :
    (∃ time, ((patient.send page).run 0 0).StoppedAt time (.error .cancelled)
        ((patient.sendAbortable page (.during 2 (.ofMilliseconds 2))).run 0 0)) ∧
      ((patient.sendAbortable page (.during 2 (.ofMilliseconds 2))).run 0 0).ending =
        some (5, .error .cancelled) ∧
      ((patient.sendAbortable page (.during 2 (.ofMilliseconds 2))).run 0 0).events =
        [(0, .opened "GET" paged.uri), (0, .entered "yields" 0 paged), (3, .exchanged 0 paged)] ∧
      exchangeCalls ((patient.sendAbortable page (.during 2 (.ofMilliseconds 2))).run 0 0).events ≤ 1 ∧
      (patient.sendAbortable page (.during 3 (.ofMilliseconds 2))).run 0 0 =
        (patient.send page).run 0 0 ∧
      patient.sendAbortable (page.apply (.header "a b" "1")) .before = .done (.error .cancelled) := by
  have assembled : patient.assemble page = .ok (paged, some (.ofMilliseconds 20)) := by
    decide +kernel
  have sent : patient.send page = patient.dispatch paged (some (.ofMilliseconds 20)) := by
    rw [send, assembled]
  have waits : (patient.send page).waits 0 = 3 := by
    rw [sent]
    rfl
  have keeps : patient.Keeps Move.own fun n =>
      (Script.select [{ delay := .ofMilliseconds 5 }] n).answer :=
    { links := by
        intro link mem
        obtain rfl : link = yields.intercept := by
          simpa [patient, Chain.ofList] using mem
        exact yields.intercept_relays (fun _ => trivial) fun _ own => own
      exchange := rfl
      answers := fun n => Script.answer_only _ }
  obtain ⟨-, -, stopped, ended, -, every⟩ := abort_cancels_or_keeps patient page 0 0
  obtain ⟨start, -⟩ := abort_cancels_or_keeps patient (page.apply (.header "a b" "1")) 0 0
  refine ⟨stopped 2 _ (by rw [waits]; decide), ?_, ?_, (every _).2.2 _ _ keeps fun _ own => own,
    ended 3 _ (by rw [waits]), start⟩
  · rw [sendAbortable, sent]
    rfl
  · rw [sendAbortable, sent]
    rfl

end Courier.Client
