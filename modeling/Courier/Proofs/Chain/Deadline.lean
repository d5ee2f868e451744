import Courier.Proofs.Chain.Ending
/-!
Flows under a time limit.

`Flow.Only` bounds what a flow may do besides waiting, on every path it can take. A limit never adds
an event (`run_within_events`). A flow that does not pause either ends in time and is left as it is,
or is cut at the deadline after everything it does up to then (`run_within_of_ends`,
`run_within_of_late`).

A flow may also be part of one that is under a limit. `runFrom` says what comes of it then: what is
left of the limit goes down as time passes (`runFrom_bind`), and of two limits the nearer one counts
(`runFrom_within`).
-/

namespace Courier.Flow

variable {ε α β : Type}

/-- What a flow can do besides waiting. -/
inductive Move (ε : Type) where
  | emit (event : ε)
  | pause
  | draw

/-- Whatever numbers it draws, the flow makes only moves that are allowed. -/
def Only (allowed : Move ε → Prop) : Flow ε α → Prop
  | .done _ => True
  | .emit e f => allowed (.emit e) ∧ f.Only allowed
  | .sleep _ f => f.Only allowed
  | .pause f => allowed .pause ∧ f.Only allowed
  | .draw k => allowed .draw ∧ ∀ n, (k n).Only allowed
  | .never => True

section only

variable {allowed wider : Move ε → Prop} {f : Flow ε α}

theorem Only.mono (h : f.Only allowed) (wide : ∀ m, allowed m → wider m) : f.Only wider := by
  induction f with
  | done _ => trivial
  | emit e f ih => exact ⟨wide _ h.1, ih h.2⟩
  | sleep n f ih => exact ih h
  | pause f ih => exact ⟨wide _ h.1, ih h.2⟩
  | draw k ih => exact ⟨wide _ h.1, fun n => ih n (h.2 n)⟩
  | never => trivial

theorem Only.bind {g : α → Flow ε β} (first : f.Only allowed)
    (rest : ∀ a, (g a).Only allowed) : (f.bind g).Only allowed := by
  induction f with
  | done a => exact rest a
  | emit e f ih => exact ⟨first.1, ih first.2⟩
  | sleep n f ih => exact ih first
  | pause f ih => exact ⟨first.1, ih first.2⟩
  | draw k ih => exact ⟨first.1, fun n => ih n (first.2 n)⟩
  | never => trivial

theorem Only.within (h : f.Only allowed) (limit : Nat) : (f.within limit).Only allowed := by
  induction f generalizing limit with
  | done _ => trivial
  | emit e f ih => exact ⟨h.1, ih h.2 limit⟩
  | sleep n f ih =>
    unfold Flow.within
    split
    · exact ih h (limit - n)
    · trivial
  | pause f ih =>
    unfold Flow.within
    split
    · trivial
    · exact ⟨h.1, ih h.2 limit⟩
  | draw k ih => exact ⟨h.1, fun n => ih n (h.2 n) limit⟩
  | never => trivial

theorem Only.events (h : f.Only allowed) (now drawn : Nat) :
    ∀ e ∈ (f.run now drawn).events, allowed (.emit e.2) := by
  induction f generalizing now drawn with
  | done _ => exact nofun
  | emit e f ih =>
    intro e' mem
    cases mem with
    | head => exact h.1
    | tail _ later => exact ih h.2 now drawn e' later
  | sleep n f ih => exact ih h (now + n) drawn
  | pause f ih => exact ih h.2 now drawn
  | draw k ih => exact ih drawn (h.2 drawn) now (drawn + 1)
  | never => exact nofun

end only

theorem start_le_events (f : Flow ε α) (now drawn : Nat) :
    ∀ e ∈ (f.run now drawn).events, now ≤ e.1 := by
  induction f generalizing now drawn with
  | done _ => exact nofun
  | emit e f ih =>
    intro e' mem
    cases mem with
    | head => exact Nat.le_refl now
    | tail _ later => exact ih now drawn e' later
  | sleep n f ih => exact fun e mem => Nat.le_trans (Nat.le_add_right now n) (ih _ _ e mem)
  | pause f ih => exact ih now drawn
  | draw k ih => exact ih drawn now (drawn + 1)
  | never => exact nofun

theorem start_le_ending {f : Flow ε α} {now drawn time : Nat} {a : α}
    (ends : (f.run now drawn).ending = some (time, a)) : now ≤ time := by
  induction f generalizing now drawn with
  | done _ =>
    cases ends
    exact Nat.le_refl _
  | emit e f ih => exact ih ends
  | sleep n f ih => exact Nat.le_trans (Nat.le_add_right now n) (ih ends)
  | pause f ih => exact ih ends
  | draw k ih => exact ih drawn ends
  | never => cases ends

/-- A limit takes events away at the end and adds none. -/
theorem run_within_events (f : Flow ε α) (limit now drawn : Nat) :
    ((f.within limit).run now drawn).events <+: (f.run now drawn).events := by
  induction f generalizing limit now drawn with
  | done _ => exact List.prefix_refl _
  | emit e f ih => exact List.cons_prefix_cons.mpr ⟨rfl, ih limit now drawn⟩
  | sleep n f ih =>
    unfold Flow.within
    split
    · exact ih (limit - n) (now + n) drawn
    · exact List.nil_prefix
  | pause f ih =>
    unfold Flow.within
    split
    · exact List.nil_prefix
    · exact ih limit now drawn
  | draw k ih => exact ih drawn limit now (drawn + 1)
  | never => exact List.nil_prefix

/-- Does not give way to others. At the deadline that would be too late. -/
def Move.prompt : Move ε → Prop
  | .pause => False
  | _ => True

/-- A flow that ends by the deadline, or on it, is not touched by the limit. -/
theorem run_within_of_ends {f : Flow ε α} (prompt : f.Only Move.prompt)
    {limit now drawn time : Nat} {a : α}
    (ends : (f.run now drawn).ending = some (time, a)) (timely : time ≤ now + limit) :
    (f.within limit).run now drawn =
      ⟨(f.run now drawn).events, (f.run now drawn).drawn, some (time, some a)⟩ := by
  induction f generalizing limit now drawn with
  | done _ =>
    cases ends
    rfl
  | emit e f ih =>
    have rest := ih prompt.2 ends timely
    simp only [Flow.within, run, rest]
  | sleep n f ih =>
    -- the flow goes on in time, or it could not end in time
    have later : now + n ≤ time := start_le_ending ends
    have fits : n ≤ limit := by omega
    have timely : time ≤ now + n + (limit - n) := by omega
    have rest := ih prompt ends timely
    simpa only [Flow.within, fits, if_true, run] using rest
  | pause f ih => exact prompt.1.elim
  | draw k ih => exact ih drawn (prompt.2 drawn) ends timely
  | never => cases ends

/-- A flow that has not ended by the deadline is cut there. What it does up to the deadline and at
the deadline itself is kept. -/
theorem run_within_of_late {f : Flow ε α} (prompt : f.Only Move.prompt) {limit now drawn : Nat}
    (late : ∀ time a, (f.run now drawn).ending = some (time, a) → now + limit < time) :
    ((f.within limit).run now drawn).ending = some (now + limit, none) ∧
      ((f.within limit).run now drawn).events =
        (f.run now drawn).events.filter (·.1 ≤ now + limit) := by
  induction f generalizing limit now drawn with
  | done a =>
    have past := late now a rfl
    omega
  | emit e f ih =>
    obtain ⟨ending, events⟩ := ih prompt.2 late
    refine ⟨ending, ?_⟩
    have kept : decide (now ≤ now + limit) = true := decide_eq_true (Nat.le_add_right now limit)
    simp only [Flow.within, run, events, List.filter_cons, kept, if_true]
  | sleep n f ih =>
    by_cases fits : n ≤ limit
    · have same : now + n + (limit - n) = now + limit := by omega
      have rest := @ih prompt (limit - n) (now + n) drawn (by rw [same]; exact late)
      simpa only [Flow.within, fits, if_true, run, same] using rest
    · -- all that comes after the wait is past the deadline
      have past : ∀ e ∈ (f.run (now + n) drawn).events, ¬ (decide (e.1 ≤ now + limit) = true) := by
        intro e mem
        have after := start_le_events f (now + n) drawn e mem
        simp only [decide_eq_true_eq]
        omega
      simp only [Flow.within, fits, if_false, run, List.filter_eq_nil_iff.mpr past, and_self]
  | pause f ih => exact prompt.1.elim
  | draw k ih => exact ih drawn (prompt.2 drawn) late
  | never => exact ⟨rfl, rfl⟩

/-! ## Parts of a flow under a limit -/

/-- Where a flow has come to: the time, the numbers drawn, and the ticks that are left to it if there
is a limit. -/
structure Moment where
  time : Nat
  drawn : Nat
  left : Option Nat

namespace Moment

/-- A wait of so many ticks does not outlast the limit. -/
def Allows (m : Moment) (ticks : Nat) : Prop := ∀ n ∈ m.left, ticks ≤ n

instance (m : Moment) (ticks : Nat) : Decidable (m.Allows ticks) :=
  inferInstanceAs (Decidable (∀ n ∈ m.left, ticks ≤ n))

/-- A later moment, with less time left. -/
def upTo (m : Moment) (time drawn : Nat) : Moment :=
  ⟨time, drawn, m.left.map (· - (time - m.time))⟩

/-- The same moment under one more limit. -/
def within (m : Moment) (ticks : Nat) : Moment :=
  { m with left := some (m.left.elim ticks (min ticks)) }

theorem upTo_limited (m : Moment) (time drawn : Nat) (limited : m.left ≠ none) :
    (m.upTo time drawn).left ≠ none := by
  rwa [upTo, ne_eq, Option.map_eq_none_iff]

theorem within_limited (m : Moment) (ticks : Nat) : (m.within ticks).left ≠ none :=
  Option.some_ne_none _

theorem within_allows (m : Moment) (ticks n : Nat) :
    (m.within ticks).Allows n ↔ n ≤ ticks ∧ m.Allows n := by
  obtain ⟨time, drawn, left⟩ := m
  cases left with
  | none => simp [within, Allows]
  | some k =>
    simp only [within, Allows, Option.elim_some, Option.mem_some_iff, forall_eq']
    exact Nat.le_min

theorem within_spent (m : Moment) (ticks : Nat) :
    (m.within ticks).left = some 0 ↔ ticks = 0 ∨ m.left = some 0 := by
  obtain ⟨time, drawn, left⟩ := m
  cases left with
  | none => simp [within]
  | some k =>
    simp only [within, Option.elim_some, Option.some.injEq]
    omega

/-- After a wait that both limits allow, both are shorter by it. -/
theorem upTo_within (m : Moment) {n ticks : Nat} (fits : n ≤ ticks) :
    (m.upTo (m.time + n) m.drawn).within (ticks - n) =
      (m.within ticks).upTo (m.time + n) m.drawn := by
  obtain ⟨time, drawn, left⟩ := m
  cases left with
  | none => simp [within, upTo]
  | some k =>
    simp only [within, upTo, Option.map_some, Option.elim_some, Moment.mk.injEq, true_and,
      Option.some.injEq]
    omega

theorem upTo_allows (m : Moment) {n ticks : Nat} (fits : n ≤ ticks) (allowed : m.Allows n) :
    (m.upTo (m.time + n) m.drawn).Allows (ticks - n) ↔ m.Allows ticks := by
  obtain ⟨time, drawn, left⟩ := m
  cases left with
  | none => simp [upTo, Allows]
  | some k =>
    have room : n ≤ k := allowed k rfl
    simp only [upTo, Allows, Option.map_some, Option.mem_some_iff, forall_eq']
    omega

end Moment

/-- What comes of a flow from a moment on. It does not end if the limit cuts it. -/
def runFrom (m : Moment) (f : Flow ε α) : Run ε α :=
  match m.left with
  | none => f.run m.time m.drawn
  | some ticks =>
    let r := (f.within ticks).run m.time m.drawn
    ⟨r.events, r.drawn, r.ending.bind fun last => last.2.map (Prod.mk last.1)⟩

section moment

variable (m : Moment)

theorem runFrom_done (a : α) :
    (Flow.done a : Flow ε α).runFrom m = ⟨[], m.drawn, some (m.time, a)⟩ := by
  obtain ⟨time, drawn, left⟩ := m
  cases left <;> rfl

theorem runFrom_emit (e : ε) (f : Flow ε α) :
    (Flow.emit e f).runFrom m =
      { f.runFrom m with events := (m.time, e) :: (f.runFrom m).events } := by
  obtain ⟨time, drawn, left⟩ := m
  cases left <;> rfl

theorem runFrom_sleep (n : Nat) (f : Flow ε α) :
    (Flow.sleep n f).runFrom m =
      if m.Allows n then f.runFrom (m.upTo (m.time + n) m.drawn) else ⟨[], m.drawn, none⟩ := by
  obtain ⟨time, drawn, left⟩ := m
  cases left with
  | none => simp [runFrom, Moment.Allows, Moment.upTo, run]
  | some ticks =>
    by_cases fits : n ≤ ticks
    · simp [runFrom, Moment.Allows, Moment.upTo, Flow.within, run, fits]
    · simp [runFrom, Moment.Allows, Flow.within, run, fits]

theorem runFrom_pause (f : Flow ε α) :
    (Flow.pause f).runFrom m = if m.left = some 0 then ⟨[], m.drawn, none⟩ else f.runFrom m := by
  obtain ⟨time, drawn, left⟩ := m
  cases left with
  | none => rfl
  | some ticks =>
    by_cases spent : ticks = 0
    · simp [runFrom, Flow.within, run, spent]
    · simp [runFrom, Flow.within, run, spent]

theorem runFrom_draw (k : Nat → Flow ε α) :
    (Flow.draw k).runFrom m = (k m.drawn).runFrom { m with drawn := m.drawn + 1 } := by
  obtain ⟨time, drawn, left⟩ := m
  cases left <;> rfl

theorem runFrom_never : (Flow.never : Flow ε α).runFrom m = ⟨[], m.drawn, none⟩ := by
  obtain ⟨time, drawn, left⟩ := m
  cases left <;> rfl

theorem runFrom_wait (n : Nat) (a : α) :
    (Flow.sleep n (.done a) : Flow ε α).runFrom m =
      ⟨[], m.drawn, if m.Allows n then some (m.time + n, a) else none⟩ := by
  rw [runFrom_sleep, runFrom_done]
  split <;> rfl

end moment

theorem start_le_runFrom {f : Flow ε α} {m : Moment} {time : Nat} {a : α}
    (ends : (f.runFrom m).ending = some (time, a)) : m.time ≤ time := by
  obtain ⟨start, drawn, left⟩ := m
  cases left with
  | none => exact start_le_ending ends
  | some ticks =>
    obtain ⟨⟨time, a?⟩, ends', kept⟩ := Option.bind_eq_some_iff.mp ends
    obtain ⟨a, -, same⟩ := Option.map_eq_some_iff.mp kept
    cases same
    exact start_le_ending ends'

/-- A flow that goes on has what its first part leaves of the limit. -/
theorem runFrom_bind (f : Flow ε α) (g : α → Flow ε β) (m : Moment) :
    (f.bind g).runFrom m =
      match (f.runFrom m).ending with
      | none => ⟨(f.runFrom m).events, (f.runFrom m).drawn, none⟩
      | some (time, a) =>
        let r := (g a).runFrom (m.upTo time (f.runFrom m).drawn)
        ⟨(f.runFrom m).events ++ r.events, r.drawn, r.ending⟩ := by
  induction f generalizing m with
  | done a =>
    have same : m.upTo m.time m.drawn = m := by
      simp [Moment.upTo]
    simp [bind, runFrom_done, same]
  | emit e f ih =>
    simp only [bind, runFrom_emit, ih]
    cases (f.runFrom m).ending <;> rfl
  | sleep n f ih =>
    rw [bind, runFrom_sleep, runFrom_sleep]
    split
    next fits =>
      rw [ih]
      cases ending : (f.runFrom (m.upTo (m.time + n) m.drawn)).ending with
      | none => rfl
      | some last =>
        obtain ⟨time, a⟩ := last
        have later : m.time + n ≤ time := start_le_runFrom ending
        have same (drawn : Nat) : (m.upTo (m.time + n) m.drawn).upTo time drawn =
            m.upTo time drawn := by
          have steps (x : Nat) : x - n - (time - (m.time + n)) = x - (time - m.time) := by omega
          simp [Moment.upTo, Function.comp_def, steps]
        simp only [same]
    next long => rfl
  | pause f ih =>
    rw [bind, runFrom_pause, runFrom_pause]
    split
    · rfl
    · exact ih m
  | draw k ih =>
    rw [bind, runFrom_draw, runFrom_draw]
    exact ih m.drawn _
  | never => simp only [bind, runFrom_never]

/-- A flow under a limit of its own is cut by that one or by the one that it is under already,
whichever is nearer. Only its own leaves it with something to go on with. -/
theorem runFrom_within (f : Flow ε α) (ticks : Nat) (m : Moment) :
    (f.within ticks).runFrom m =
      ⟨(f.runFrom (m.within ticks)).events, (f.runFrom (m.within ticks)).drawn,
        match (f.runFrom (m.within ticks)).ending with
        | some last => some (last.1, some last.2)
        | none => if m.Allows ticks then some (m.time + ticks, none) else none⟩ := by
  induction f generalizing ticks m with
  | done a => simp only [Flow.within, runFrom_done, Moment.within]
  | emit e f ih => simp only [Flow.within, runFrom_emit, ih, Moment.within]
  | sleep n f ih =>
    rw [runFrom_sleep, Flow.within]
    split
    next fits =>
      rw [runFrom_sleep]
      by_cases allowed : m.Allows n
      · have both := (m.within_allows ticks n).mpr ⟨fits, allowed⟩
        have deadline : (m.upTo (m.time + n) m.drawn).time + (ticks - n) = m.time + ticks := by
          simp only [Moment.upTo]
          omega
        rw [if_pos allowed, if_pos both, ih, m.upTo_within fits, deadline]
        simp only [m.upTo_allows fits allowed]
        rfl
      · have one : ¬ (m.within ticks).Allows n := fun both =>
          allowed ((m.within_allows ticks n).mp both).2
        have short : ¬ m.Allows ticks := fun more => allowed fun k mem =>
          Nat.le_trans fits (more k mem)
        rw [if_neg allowed, if_neg one]
        simp only [if_neg short]
        rfl
    next long =>
      have one : ¬ (m.within ticks).Allows n := fun both =>
        long ((m.within_allows ticks n).mp both).1
      rw [runFrom_wait, if_neg one]
      rfl
  | pause f ih =>
    rw [runFrom_pause, Flow.within]
    split
    next atOnce =>
      subst atOnce
      rw [runFrom_done, if_pos ((m.within_spent 0).mpr (.inl rfl))]
      simp [Moment.Allows, Moment.within]
    next later =>
      rw [runFrom_pause]
      by_cases spent : m.left = some 0
      · have short : ¬ m.Allows ticks := fun more => later (Nat.le_zero.mp (more 0 spent))
        rw [if_pos spent, if_pos ((m.within_spent ticks).mpr (.inr spent))]
        simp only [if_neg short]
        rfl
      · have more : ¬ (m.within ticks).left = some 0 := fun both =>
          ((m.within_spent ticks).mp both).elim later spent
        rw [if_neg spent, if_neg more]
        exact ih ticks m
  | draw k ih =>
    rw [Flow.within, runFrom_draw, runFrom_draw]
    exact ih m.drawn ticks _
  | never =>
    rw [Flow.within, runFrom_wait, runFrom_never]
    rfl

end Courier.Flow
