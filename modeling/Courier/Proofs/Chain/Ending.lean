import Courier.Chain.Flow
/-!
How flows end when they follow one another.

`Flow.Ends` says what can be seen of a flow that ends: of the events that matter, which ones come and
in which order, how many numbers are drawn, and the result. It leaves out when things happen, so a
flow that only waits cannot be told from one that is done.
-/

namespace Courier.Flow

variable {ε α β : Type}

/-- A flow that goes on runs as its first part, and then from the time and the draws where that part
ended. -/
theorem run_bind (f : Flow ε α) (g : α → Flow ε β) (now drawn : Nat) :
    (f.bind g).run now drawn =
      match (f.run now drawn).ending with
      | none => ⟨(f.run now drawn).events, (f.run now drawn).drawn, none⟩
      | some (time, a) =>
        let r := (g a).run time (f.run now drawn).drawn
        ⟨(f.run now drawn).events ++ r.events, r.drawn, r.ending⟩ := by
  induction f generalizing now drawn with
  | done a => rfl
  | emit e f ih =>
    simp only [bind, run, ih]
    cases (f.run now drawn).ending <;> rfl
  | sleep n f ih => exact ih (now + n) drawn
  | pause f ih => exact ih now drawn
  | draw k ih => exact ih drawn now (drawn + 1)
  | never => rfl

/-- Started at any time after `drawn` draws, the flow shows these events of those that matter, and
ends with this result after `drawn'` draws. -/
def Ends (matters : ε → Bool) (f : Flow ε α) (drawn : Nat) (events : List ε) (drawn' : Nat)
    (result : α) : Prop :=
  ∀ now, ∃ time timed, f.run now drawn = ⟨timed, drawn', some (time, result)⟩ ∧
    (timed.map Prod.snd).filter matters = events

variable {matters : ε → Bool} {drawn drawn' drawn'' : Nat} {events events' : List ε}

theorem ends_done (result : α) : (Flow.done result).Ends matters drawn [] drawn result :=
  fun now => ⟨now, [], rfl, rfl⟩

theorem Ends.bind {f : Flow ε α} {g : α → Flow ε β} {a : α} {b : β}
    (first : f.Ends matters drawn events drawn' a)
    (second : (g a).Ends matters drawn' events' drawn'' b) :
    (f.bind g).Ends matters drawn (events ++ events') drawn'' b := by
  intro now
  obtain ⟨time, timed, hf, seen⟩ := first now
  obtain ⟨time', timed', hg, seen'⟩ := second time
  refine ⟨time', timed ++ timed', ?_, ?_⟩
  · simp only [run_bind, hf, hg]
  · rw [List.map_append, List.filter_append, seen, seen']

theorem Ends.emit {f : Flow ε α} {a : α} {e : ε} (h : f.Ends matters drawn events drawn' a) :
    (Flow.emit e f).Ends matters drawn ((if matters e then [e] else []) ++ events) drawn' a := by
  intro now
  obtain ⟨time, timed, hf, seen⟩ := h now
  refine ⟨time, (now, e) :: timed, by simp only [run, hf], ?_⟩
  cases keep : matters e <;> simp [keep, seen]

theorem Ends.sleep {f : Flow ε α} {a : α} (h : f.Ends matters drawn events drawn' a)
    (ticks : Nat) : (Flow.sleep ticks f).Ends matters drawn events drawn' a :=
  fun now => h (now + ticks)

theorem Ends.pause {f : Flow ε α} {a : α} (h : f.Ends matters drawn events drawn' a) :
    (Flow.pause f).Ends matters drawn events drawn' a :=
  fun now => h now

theorem Ends.draw {k : Nat → Flow ε α} {a : α}
    (h : (k drawn).Ends matters (drawn + 1) events drawn' a) :
    (Flow.draw k).Ends matters drawn events drawn' a :=
  fun now => h now

end Courier.Flow
