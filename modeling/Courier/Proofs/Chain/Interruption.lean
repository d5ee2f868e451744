import Courier.Proofs.Chain.Deadline
/-!
Flows that are stopped from outside.

A flow can be stopped only where it waits. `Run.StoppedAt` says what a run comes to that is stopped:
all that the free run does before, nothing of what it does after, and a result of its own. A flow that
is cut in one of its waits is stopped there (`run_cut_of_lt`), one that does not come to that wait is
left as it is (`run_cut_of_le`), and a limit on the time does one or the other (`run_within`).
-/

namespace Courier.Flow

variable {ε α β γ : Type}

/-- How often the flow waits after `drawn` draws. A wait without an end is one as well. -/
def waits (drawn : Nat) : Flow ε α → Nat
  | .done _ => 0
  | .emit _ f => f.waits drawn
  | .sleep _ f => f.waits drawn + 1
  | .pause f => f.waits drawn + 1
  | .draw k => (k drawn).waits (drawn + 1)
  | .never => 1

namespace Run

/-- The same run with another result. -/
def map (g : α → β) (r : Run ε α) : Run ε β :=
  ⟨r.events, r.drawn, r.ending.map fun last => (last.1, g last.2)⟩

theorem map_some_getD (r : Run ε α) (a : α) : (r.map some).map (·.getD a) = r := by
  obtain ⟨events, drawn, ending⟩ := r
  cases ending <;> rfl

/-- The run ends at this time with this result, and up to then it has gone as the free run does, which
does not end before. -/
structure StoppedAt (free : Run ε α) (time : Nat) (result : β) (run : Run ε β) : Prop where
  ending : run.ending = some (time, result)
  events : ∃ later, free.events = run.events ++ later ∧
    (∀ e ∈ run.events, e.1 ≤ time) ∧ ∀ e ∈ later, time ≤ e.1
  unended : ∀ last a, free.ending = some (last, a) → time ≤ last

namespace StoppedAt

variable {free : Run ε α} {run : Run ε β} {time : Nat} {result : β}

theorem map (h : free.StoppedAt time result run) (g : β → γ) :
    free.StoppedAt time (g result) (run.map g) where
  ending := by rw [Run.map, h.ending, Option.map_some]
  events := h.events
  unended := h.unended

theorem prefix_events (h : free.StoppedAt time result run) : run.events <+: free.events := by
  obtain ⟨later, split, -, -⟩ := h.events
  exact ⟨later, split.symm⟩

/-- An event before comes before both. -/
theorem emit (h : free.StoppedAt time result run) {now : Nat} (early : now ≤ time) (e : ε) :
    StoppedAt { free with events := (now, e) :: free.events } time result
      { run with events := (now, e) :: run.events } where
  ending := h.ending
  events := by
    obtain ⟨later, split, before, after⟩ := h.events
    refine ⟨later, by rw [split]; rfl, ?_, after⟩
    intro e' mem
    cases mem with
    | head => exact early
    | tail _ mem => exact before e' mem
  unended := h.unended

end StoppedAt

end Run

theorem run_bind_done (f : Flow ε α) (g : α → β) (now drawn : Nat) :
    (f.bind fun a => .done (g a)).run now drawn = (f.run now drawn).map g := by
  rw [run_bind, Run.map]
  cases (f.run now drawn).ending with
  | none => rfl
  | some last => simp only [run, List.append_nil, Option.map_some]

/-- A flow that is stopped by the time at which it starts has done nothing. -/
theorem stopped_at_start (f : Flow ε α) {start time : Nat} (early : time ≤ start)
    (drawn drawn' : Nat) (result : β) :
    (f.run start drawn).StoppedAt time result ⟨[], drawn', some (time, result)⟩ where
  ending := rfl
  events := by
    refine ⟨(f.run start drawn).events, rfl, nofun, ?_⟩
    intro e mem
    exact Nat.le_trans early (start_le_events f start drawn e mem)
  unended _ _ ends := Nat.le_trans early (start_le_ending ends)

/-- A flow that is over before it comes to the wait is left as it is. -/
theorem run_cut_of_le {f : Flow ε α} {wait drawn : Nat} (ended : f.waits drawn ≤ wait)
    (ticks now : Nat) :
    (f.cut wait ticks).run now drawn = (f.run now drawn).map some := by
  induction f generalizing wait now drawn with
  | done a => rfl
  | emit e f ih =>
    simp only [cut, run, ih ended]
    rfl
  | sleep n f ih =>
    cases wait with
    | zero => exact absurd ended (Nat.not_succ_le_zero _)
    | succ wait => exact ih (Nat.le_of_succ_le_succ ended) (now + n)
  | pause f ih =>
    cases wait with
    | zero => exact absurd ended (Nat.not_succ_le_zero _)
    | succ wait => exact ih (Nat.le_of_succ_le_succ ended) now
  | draw k ih => exact ih drawn ended now
  | never =>
    cases wait with
    | zero => exact absurd ended (Nat.not_succ_le_zero _)
    | succ wait => rfl

/-- A flow that comes to the wait is stopped in it. -/
theorem run_cut_of_lt {f : Flow ε α} {wait drawn : Nat} (waiting : wait < f.waits drawn)
    (ticks now : Nat) :
    ∃ time, (f.run now drawn).StoppedAt time none ((f.cut wait ticks).run now drawn) := by
  induction f generalizing wait now drawn with
  | done a => exact absurd waiting (Nat.not_lt_zero _)
  | emit e f ih =>
    obtain ⟨time, stopped⟩ := ih waiting now
    exact ⟨time, stopped.emit (start_le_ending stopped.ending) e⟩
  | sleep n f ih =>
    cases wait with
    | zero =>
      have early : now + min n ticks ≤ now + n := by omega
      exact ⟨_, stopped_at_start f early drawn drawn none⟩
    | succ wait => exact ih (Nat.lt_of_succ_lt_succ waiting) (now + n)
  | pause f ih =>
    cases wait with
    | zero => exact ⟨_, stopped_at_start f (Nat.le_refl now) drawn drawn none⟩
    | succ wait => exact ih (Nat.lt_of_succ_lt_succ waiting) now
  | draw k ih => exact ih drawn waiting now
  | never =>
    cases wait with
    | zero => exact ⟨_, stopped_at_start .never (Nat.le_refl (now + ticks)) drawn drawn none⟩
    | succ wait => exact absurd (Nat.lt_of_succ_lt_succ waiting) (Nat.not_lt_zero _)

/-- A flow under a limit ends by the deadline as it would without, or is stopped at the deadline. -/
theorem run_within (f : Flow ε α) (limit now drawn : Nat) :
    (∃ time a, (f.run now drawn).ending = some (time, a) ∧ time ≤ now + limit ∧
      (f.within limit).run now drawn = (f.run now drawn).map some) ∨
    (f.run now drawn).StoppedAt (now + limit) none ((f.within limit).run now drawn) := by
  induction f generalizing limit now drawn with
  | done a => exact .inl ⟨now, a, rfl, Nat.le_add_right now limit, rfl⟩
  | emit e f ih =>
    obtain ⟨time, a, ends, timely, same⟩ | stopped := ih limit now drawn
    · refine .inl ⟨time, a, ends, timely, ?_⟩
      simp only [within, run, same]
      rfl
    · exact .inr (stopped.emit (Nat.le_add_right now limit) e)
  | sleep n f ih =>
    unfold within
    split
    next fits =>
      have deadline : now + n + (limit - n) = now + limit := by omega
      have rest := ih (limit - n) (now + n) drawn
      rwa [deadline] at rest
    next long =>
      have early : now + limit ≤ now + n := by omega
      exact .inr (stopped_at_start f early drawn drawn none)
  | pause f ih =>
    unfold within
    split
    next atOnce =>
      subst atOnce
      exact .inr (stopped_at_start f (Nat.le_refl now) drawn drawn none)
    next later => exact ih limit now drawn
  | draw k ih => exact ih drawn limit now (drawn + 1)
  | never => exact .inr (stopped_at_start .never (Nat.le_refl (now + limit)) drawn drawn none)

end Courier.Flow
