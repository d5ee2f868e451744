import Mathlib.Algebra.BigOperators.Fin
import Mathlib.Algebra.Order.BigOperators.Group.Finset
import Mathlib.Logic.Relation
import Courier.Proofs.Chain.Deadline
/-!
Flows that run side by side in any order.

A pool holds flows under way on one clock, with one row of numbers to draw from. In a step, one flow
whose time has come makes a move, whichever it is; only when none can move does the clock go on.
Flows that do not look at the numbers they draw run in a pool as each runs alone, whatever the order
of the steps (`runs_follow`), and every pool comes to rest (`runs_complete`, `no_endless_run`).
-/

namespace Courier

namespace Flow

variable {ε δ α β : Type}

/-- The flow as it is seen through a view of its events, drawing zeros only. -/
def plain (view : ε → δ) : Flow ε α → Flow δ α
  | .done a => .done a
  | .emit e f => .emit (view e) (f.plain view)
  | .sleep n f => .sleep n (f.plain view)
  | .pause f => .pause (f.plain view)
  | .draw k => .draw fun _ => (k 0).plain view
  | .never => .never

/-- Seen through the view, the flow is the same whatever numbers it draws. -/
def Blind (view : ε → δ) : Flow ε α → Prop
  | .done _ => True
  | .emit _ f => f.Blind view
  | .sleep _ f => f.Blind view
  | .pause f => f.Blind view
  | .draw k => ∀ n, (k n).Blind view ∧ (k n).plain view = (k 0).plain view
  | .never => True

theorem plain_bind (view : ε → δ) (f : Flow ε α) (g : α → Flow ε β) :
    (f.bind g).plain view = (f.plain view).bind fun a => (g a).plain view := by
  induction f with
  | done a => rfl
  | emit e f ih => exact congrArg (Flow.emit (view e)) ih
  | sleep n f ih => exact congrArg (Flow.sleep n) ih
  | pause f ih => exact congrArg Flow.pause ih
  | draw k ih => exact congrArg (fun f => Flow.draw fun _ => f) (ih 0)
  | never => rfl

theorem plain_within (view : ε → δ) (f : Flow ε α) (limit : Nat) :
    (f.within limit).plain view = (f.plain view).within limit := by
  induction f generalizing limit with
  | done a => rfl
  | emit e f ih => exact congrArg (Flow.emit (view e)) (ih limit)
  | sleep n f ih =>
    unfold Flow.within
    split
    · next fits => simp only [plain, ih, if_pos fits]
    · next late => simp only [plain, if_neg late]
  | pause f ih =>
    unfold Flow.within
    split
    · rfl
    · exact congrArg Flow.pause (ih limit)
  | draw k ih => exact congrArg (fun f => Flow.draw fun _ => f) (ih 0 limit)
  | never => rfl

section blind

variable {view : ε → δ} {f : Flow ε α}

/-- Draws nothing. -/
def Move.drawless : Move ε → Prop
  | .draw => False
  | _ => True

theorem Only.blind (h : f.Only Move.drawless) : f.Blind view := by
  induction f with
  | done _ => trivial
  | emit e f ih => exact ih h.2
  | sleep n f ih => exact ih h
  | pause f ih => exact ih h.2
  | draw k ih => exact h.1.elim
  | never => trivial

theorem Blind.bind {g : α → Flow ε β} (first : f.Blind view) (rest : ∀ a, (g a).Blind view) :
    (f.bind g).Blind view := by
  induction f with
  | done a => exact rest a
  | emit e f ih => exact ih first
  | sleep n f ih => exact ih first
  | pause f ih => exact ih first
  | draw k ih =>
    intro n
    obtain ⟨blind, same⟩ := first n
    exact ⟨ih n blind, by rw [plain_bind, plain_bind, same]⟩
  | never => trivial

theorem Blind.within (h : f.Blind view) (limit : Nat) : (f.within limit).Blind view := by
  induction f generalizing limit with
  | done _ => trivial
  | emit e f ih => exact ih h limit
  | sleep n f ih =>
    unfold Flow.within
    split
    · exact ih h (limit - n)
    · trivial
  | pause f ih =>
    unfold Flow.within
    split
    · trivial
    · exact ih h limit
  | draw k ih =>
    intro n
    obtain ⟨blind, same⟩ := h n
    exact ⟨ih n blind limit, by rw [plain_within, plain_within, same]⟩
  | never => trivial

end blind

/-- The events of a run as they are seen through a view, with their times. -/
def Run.seen (view : ε → δ) (r : Run ε α) : List (Nat × δ) := r.events.map (Prod.map id view)

/-- What is seen of a flow that runs alone is what its plain form does. -/
theorem Blind.run {view : ε → δ} {f : Flow ε α} (h : f.Blind view) (now drawn zeros : Nat) :
    (f.run now drawn).seen view = ((f.plain view).run now zeros).events ∧
      (f.run now drawn).ending = ((f.plain view).run now zeros).ending := by
  induction f generalizing now drawn zeros with
  | done _ => exact ⟨rfl, rfl⟩
  | emit e f ih =>
    obtain ⟨events, ending⟩ := ih h now drawn zeros
    exact ⟨congrArg (List.cons (now, view e)) events, ending⟩
  | sleep n f ih => exact ih h (now + n) drawn zeros
  | pause f ih => exact ih h now drawn zeros
  | draw k ih =>
    obtain ⟨blind, same⟩ := h drawn
    have rest := ih drawn blind now (drawn + 1) (zeros + 1)
    rwa [same] at rest
  | never => exact ⟨rfl, rfl⟩

/-- Whether nothing is left to do. -/
def isOver : Flow ε α → Bool
  | .done _ => true
  | .never => true
  | _ => false

/-- How many moves and ticks the flow can take at most before it is at rest. -/
def work : Flow ε α → Nat
  | .done _ => 0
  | .emit _ f => f.work + 1
  | .sleep n f => f.work + n + 1
  | .pause f => f.work + 1
  | .draw k => (k 0).work + 1
  | .never => 0

theorem work_plain (view : ε → δ) (f : Flow ε α) : (f.plain view).work = f.work := by
  induction f with
  | done _ => rfl
  | emit e f ih => exact congrArg (· + 1) ih
  | sleep n f ih => exact congrArg (· + n + 1) ih
  | pause f ih => exact congrArg (· + 1) ih
  | draw k ih => exact congrArg (· + 1) (ih 0)
  | never => rfl

end Flow

/-- A flow under way: what it has still to do, from what time on. -/
structure Task (ε α : Type) where
  wake : Nat
  rest : Flow ε α

namespace Task

variable {ε δ α : Type}

/-- The next move of a task: the event it shows, the next number to draw after it, and the task as
it goes on. -/
def move (now drawn : Nat) : Task ε α → Option (Option ε × Nat × Task ε α)
  | ⟨wake, .emit e f⟩ => some (some e, drawn, ⟨wake, f⟩)
  | ⟨_, .sleep n f⟩ => some (none, drawn, ⟨now + n, f⟩)
  | ⟨wake, .pause f⟩ => some (none, drawn, ⟨wake, f⟩)
  | ⟨wake, .draw k⟩ => some (none, drawn + 1, ⟨wake, k drawn⟩)
  | ⟨_, .done _⟩ => none
  | ⟨_, .never⟩ => none

/-- The time and the result of a task that is done. -/
def result? : Task ε α → Option (Nat × α)
  | ⟨wake, .done a⟩ => some (wake, a)
  | _ => none

theorem move_iff (task : Task ε α) (now drawn : Nat) :
    (∃ shown drawn' next, task.move now drawn = some (shown, drawn', next)) ↔
      task.rest.isOver = false := by
  obtain ⟨wake, rest⟩ := task
  cases rest <;> simp [move, Flow.isOver]

/-- How many steps it can still take at most. -/
def work (now : Nat) (t : Task ε α) : Nat := t.rest.work + (t.wake - now)

variable {view : ε → δ} {task next : Task ε α} {now drawn drawn' : Nat} {shown : Option ε}

/-- A move at its time is the next thing that the plain flow does. -/
theorem move_run (blind : task.rest.Blind view)
    (moves : task.move task.wake drawn = some (shown, drawn', next)) (zeros : Nat) :
    next.rest.Blind view ∧
      shown.toList.map (task.wake, view ·) ++
          ((next.rest.plain view).run next.wake zeros).events =
        ((task.rest.plain view).run task.wake zeros).events ∧
      ((next.rest.plain view).run next.wake zeros).ending =
        ((task.rest.plain view).run task.wake zeros).ending := by
  obtain ⟨wake, rest⟩ := task
  cases rest with
  | done _ => cases moves
  | emit e f =>
    cases moves
    exact ⟨blind, rfl, rfl⟩
  | sleep n f =>
    cases moves
    exact ⟨blind, rfl, rfl⟩
  | pause f =>
    cases moves
    exact ⟨blind, rfl, rfl⟩
  | draw k =>
    cases moves
    obtain ⟨rest, same⟩ := blind drawn
    have here := rest.run wake 0 zeros
    have there := rest.run wake 0 (zeros + 1)
    refine ⟨rest, ?_, ?_⟩
    · show ((k drawn).plain view |>.run wake zeros).events = _
      rw [← here.1, there.1, same]
      rfl
    · show ((k drawn).plain view |>.run wake zeros).ending = _
      rw [← here.2, there.2, same]
      rfl
  | never => cases moves

theorem move_wake (moves : task.move task.wake drawn = some (shown, drawn', next)) :
    task.wake ≤ next.wake := by
  obtain ⟨wake, rest⟩ := task
  cases rest <;> cases moves
  case sleep n f => exact Nat.le_add_right wake n
  all_goals exact Nat.le_refl wake

/-- A task that is over has nothing more to show, and its result is that of the plain flow. -/
theorem over_run (view : ε → δ) (ended : task.rest.isOver = true) (zeros : Nat) :
    ((task.rest.plain view).run task.wake zeros).events = [] ∧
      ((task.rest.plain view).run task.wake zeros).ending = task.result? := by
  obtain ⟨wake, rest⟩ := task
  cases rest with
  | done _ => exact ⟨rfl, rfl⟩
  | never => exact ⟨rfl, rfl⟩
  | _ => cases ended

theorem over_of_result {r : Nat × α} (done : task.result? = some r) : task.rest.isOver = true := by
  obtain ⟨wake, rest⟩ := task
  cases rest <;> cases done
  rfl

theorem move_work (blind : task.rest.Blind view) (due : task.wake ≤ now)
    (moves : task.move now drawn = some (shown, drawn', next)) :
    next.work now < task.work now := by
  obtain ⟨wake, rest⟩ := task
  cases rest with
  | done _ => cases moves
  | emit e f =>
    cases moves
    simp only [work, Flow.work]
    omega
  | sleep n f =>
    cases moves
    simp only [work, Flow.work] at due ⊢
    omega
  | pause f =>
    cases moves
    simp only [work, Flow.work]
    omega
  | draw k =>
    cases moves
    have same : (k drawn).work = (k 0).work := by
      rw [← Flow.work_plain view, (blind drawn).2, Flow.work_plain]
    simp only [work, Flow.work, same]
    omega
  | never => cases moves

end Task

/-- Tasks on one clock, with one row of numbers to draw from, and what they have shown so far. -/
structure Pool (n : Nat) (ε α : Type) where
  now : Nat
  drawn : Nat
  tasks : Fin n → Task ε α
  log : List (Fin n × Nat × ε)

namespace Pool

variable {n : Nat} {ε δ α : Type}

/-- Tasks that have done nothing yet, each to begin at its own time. -/
def start (drawn : Nat) (tasks : Fin n → Task ε α) : Pool n ε α := ⟨0, drawn, tasks, []⟩

/-- Any task whose time has come may make the next move. The clock goes on if none can. -/
inductive Step : Pool n ε α → Pool n ε α → Prop where
  | move {p : Pool n ε α} (i : Fin n) {shown : Option ε} {drawn : Nat} {task : Task ε α}
      (due : (p.tasks i).wake ≤ p.now)
      (moves : (p.tasks i).move p.now p.drawn = some (shown, drawn, task)) :
      Step p
        { p with
          drawn := drawn
          tasks := Function.update p.tasks i task
          log := p.log ++ shown.toList.map (i, p.now, ·) }
  | tick {p : Pool n ε α}
      (idle : ∀ i, p.now < (p.tasks i).wake ∨ (p.tasks i).rest.isOver = true)
      (waits : ∃ i, p.now < (p.tasks i).wake) :
      Step p { p with now := p.now + 1 }

/-- Any number of steps. -/
abbrev Runs : Pool n ε α → Pool n ε α → Prop := Relation.ReflTransGen Step

/-- What one task has shown, seen through a view. -/
def seen (view : ε → δ) (p : Pool n ε α) (i : Fin n) : List (Nat × δ) :=
  (p.log.filter (·.1 = i)).map fun entry => (entry.2.1, view entry.2.2)

/-- The task is on time and has done a first part of what the plain flow does from its beginning; it
has the rest of it still to do. -/
structure Follows (view : ε → δ) (p : Pool n ε α) (i : Fin n) (first : Task ε α) : Prop where
  punctual : p.now ≤ (p.tasks i).wake ∨ (p.tasks i).rest.isOver = true
  blind : (p.tasks i).rest.Blind view
  events : p.seen view i ++ (((p.tasks i).rest.plain view).run (p.tasks i).wake 0).events =
    ((first.rest.plain view).run first.wake 0).events
  ending : (((p.tasks i).rest.plain view).run (p.tasks i).wake 0).ending =
    ((first.rest.plain view).run first.wake 0).ending

variable {view : ε → δ} {p q : Pool n ε α} {i : Fin n} {first : Task ε α}

theorem seen_log_append (view : ε → δ) (p : Pool n ε α) (i j : Fin n) (time : Nat)
    (shown : Option ε) {now drawn : Nat} {tasks : Fin n → Task ε α} :
    Pool.seen view ⟨now, drawn, tasks, p.log ++ shown.toList.map (j, time, ·)⟩ i =
      p.seen view i ++ if j = i then shown.toList.map (time, view ·) else [] := by
  by_cases same : j = i <;> cases shown <;> simp [seen, same]

theorem start_follows (drawn : Nat) {tasks : Fin n → Task ε α}
    (blind : (tasks i).rest.Blind view) : (start drawn tasks).Follows view i (tasks i) :=
  { punctual := .inl (Nat.zero_le _), blind := blind, events := rfl, ending := rfl }

/-- A move of another task and a tick of the clock leave a task where it is, and its own move is the
next one of the plain flow. -/
theorem step_follows (step : p.Step q) (h : p.Follows view i first) : q.Follows view i first := by
  cases step with
  | @move j shown drawn task due moves =>
    by_cases same : j = i
    · subst same
      have active := (Task.move_iff (p.tasks j) p.now p.drawn).mp ⟨_, _, _, moves⟩
      -- the clock stood still while the task could move
      have onTime : p.now = (p.tasks j).wake := by
        cases h.punctual with
        | inl early => exact Nat.le_antisymm early due
        | inr ended => simp [ended] at active
      rw [onTime] at moves
      obtain ⟨blind, events, ending⟩ := Task.move_run h.blind moves 0
      refine ⟨?_, ?_, ?_, ?_⟩
      · left
        simp only [Function.update_self]
        rw [onTime]
        exact Task.move_wake moves
      · simpa only [Function.update_self] using blind
      · rw [seen_log_append, onTime]
        simp only [Function.update_self, if_true, List.append_assoc]
        rw [events]
        exact h.events
      · simp only [Function.update_self]
        exact ending.trans h.ending
    · have others : Function.update p.tasks j task i = p.tasks i :=
        Function.update_of_ne (Ne.symm same) task p.tasks
      refine ⟨?_, ?_, ?_, ?_⟩
      · simpa only [others] using h.punctual
      · simpa only [others] using h.blind
      · rw [seen_log_append]
        simp only [others, same, if_false, List.append_nil]
        exact h.events
      · simpa only [others] using h.ending
  | tick idle waits => exact ⟨idle i, h.blind, h.events, h.ending⟩

/-- However many steps are made and in whatever order, every task does what it does alone. -/
theorem runs_follow (runs : p.Runs q) (h : p.Follows view i first) : q.Follows view i first := by
  induction runs with
  | refl => exact h
  | tail _ step ih => exact step_follows step ih

theorem Follows.begins (h : p.Follows view i first) :
    p.seen view i <+: ((first.rest.plain view).run first.wake 0).events :=
  ⟨_, h.events⟩

/-- When nothing is left to do, a task has shown all there is and has its result. -/
theorem Follows.ended (h : p.Follows view i first) (ended : (p.tasks i).rest.isOver = true) :
    p.seen view i = ((first.rest.plain view).run first.wake 0).events ∧
      (p.tasks i).result? = ((first.rest.plain view).run first.wake 0).ending := by
  obtain ⟨none, result⟩ := Task.over_run view ended 0
  have events := h.events
  rw [none, List.append_nil] at events
  exact ⟨events, result.symm.trans h.ending⟩

/-- A pool in which no step is possible has nothing left to do. -/
theorem over_of_no_step (stuck : ∀ q, ¬ p.Step q) (i : Fin n) :
    (p.tasks i).rest.isOver = true := by
  have idle : ∀ j, p.now < (p.tasks j).wake ∨ (p.tasks j).rest.isOver = true := by
    intro j
    by_cases due : (p.tasks j).wake ≤ p.now
    · right
      by_contra active
      rw [Bool.not_eq_true] at active
      obtain ⟨shown, drawn, next, moves⟩ := (Task.move_iff _ p.now p.drawn).mpr active
      exact stuck _ (.move j due moves)
    · exact .inl (Nat.lt_of_not_le due)
  have none : ¬ ∃ j, p.now < (p.tasks j).wake := fun waits => stuck _ (.tick idle waits)
  exact (idle i).resolve_left fun waits => none ⟨i, waits⟩

/-- How many steps the pool can still take at most. -/
def work (p : Pool n ε α) : Nat := ∑ i, (p.tasks i).work p.now

theorem step_work (blind : ∀ i, (p.tasks i).rest.Blind view) (step : p.Step q) :
    q.work < p.work := by
  cases step with
  | @move j shown drawn task due moves =>
    have less : task.work p.now < (p.tasks j).work p.now := Task.move_work (blind j) due moves
    apply Finset.sum_lt_sum
    · intro i _
      by_cases same : i = j
      · subst same
        simpa only [Function.update_self] using Nat.le_of_lt less
      · simp only [Function.update_of_ne same, Nat.le_refl]
    · exact ⟨j, Finset.mem_univ j, by simpa only [Function.update_self] using less⟩
  | tick idle waits =>
    obtain ⟨j, wait⟩ := waits
    apply Finset.sum_lt_sum
    · intro i _
      simp only [Task.work]
      omega
    · refine ⟨j, Finset.mem_univ j, ?_⟩
      simp only [Task.work]
      omega

section rest

variable {firsts : Fin n → Task ε α}

/-- From wherever it has come to, a pool can go on until no step is possible. -/
theorem runs_complete (h : ∀ i, p.Follows view i (firsts i)) :
    ∃ q, p.Runs q ∧ ∀ r, ¬ q.Step r := by
  induction left : p.work using Nat.strongRecOn generalizing p with
  | ind left_work ih =>
    by_cases stuck : ∀ r, ¬ p.Step r
    · exact ⟨p, .refl, stuck⟩
    · obtain ⟨r, step⟩ := not_forall_not.mp stuck
      have less := step_work (fun i => (h i).blind) step
      obtain ⟨q, runs, rests⟩ := ih r.work (left ▸ less) (fun i => step_follows step (h i)) rfl
      exact ⟨q, .head step runs, rests⟩

/-- No order of steps goes on for ever. -/
theorem no_endless_run {pools : Nat → Pool n ε α}
    (h : ∀ i, (pools 0).Follows view i (firsts i)) :
    ¬ ∀ k, (pools k).Step (pools (k + 1)) := by
  intro steps
  have along : ∀ k, (∀ i, (pools k).Follows view i (firsts i)) ∧
      (pools k).work + k ≤ (pools 0).work := by
    intro k
    induction k with
    | zero => exact ⟨h, Nat.le_refl _⟩
    | succ k ih =>
      obtain ⟨follows, bound⟩ := ih
      have less := step_work (fun i => (follows i).blind) (steps k)
      exact ⟨fun i => step_follows (steps k) (follows i), by omega⟩
  have bound := (along ((pools 0).work + 1)).2
  omega

end rest

/-- What is counted over all tasks together is the sum of what is counted over each. -/
theorem count_seen (view : ε → δ) (kind : δ → Bool) (p : Pool n ε α) :
    p.log.countP (fun entry => kind (view entry.2.2)) =
      ∑ i, (p.seen view i).countP fun e => kind e.2 := by
  have split : ∀ i, (p.seen view i).countP (fun e => kind e.2) =
      p.log.countP fun entry => kind (view entry.2.2) && decide (entry.1 = i) := by
    intro i
    rw [seen, List.countP_map, List.countP_filter]
    rfl
  simp only [split]
  induction p.log with
  | nil => simp
  | cons entry log ih =>
    simp only [List.countP_cons, Finset.sum_add_distrib, ih]
    cases kind (view entry.2.2) <;> simp

end Pool

end Courier
