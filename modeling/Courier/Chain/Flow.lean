/-!
What a call does over time.

A flow emits events, sleeps for some ticks of the clock, gives way to other calls, draws numbers
that no other call draws, and ends with a result or never. It says what happens and when, and not
who else runs: a limit on its time and its running beside another flow are flows again.
-/

namespace Courier

inductive Flow (ε α : Type) where
  | done (result : α)
  | emit (event : ε) (next : Flow ε α)
  | sleep (ticks : Nat) (next : Flow ε α)
  /-- Lets other calls run, at no cost in time. -/
  | pause (next : Flow ε α)
  /-- Draws the next number. -/
  | draw (next : Nat → Flow ε α)
  | never

namespace Flow

variable {ε α β : Type}

def bind (f : Flow ε α) (g : α → Flow ε β) : Flow ε β :=
  match f with
  | .done a => g a
  | .emit e f => .emit e (f.bind g)
  | .sleep n f => .sleep n (f.bind g)
  | .pause f => .pause (f.bind g)
  | .draw k => .draw fun n => (k n).bind g
  | .never => .never

@[simp] theorem done_bind (a : α) (g : α → Flow ε β) : (Flow.done a).bind g = g a := rfl

@[simp] theorem bind_done (f : Flow ε α) : f.bind .done = f := by
  induction f <;> simp_all [bind]

theorem bind_assoc {γ : Type} (f : Flow ε α) (g : α → Flow ε β) (h : β → Flow ε γ) :
    (f.bind g).bind h = f.bind fun a => (g a).bind h := by
  induction f <;> simp_all [bind]

instance : Monad (Flow ε) where
  pure := .done
  bind := .bind

/-- Emits one event. -/
def say (e : ε) : Flow ε Unit := .emit e (.done ())

/-- Waits, and does nothing else. -/
def wait (ticks : Nat) : Flow ε Unit := .sleep ticks (.done ())

/-- Lets the flow go on for `limit` ticks. What it does at the last tick still counts, but a wait
that would outlast the limit ends there with no result. -/
def within (limit : Nat) : Flow ε α → Flow ε (Option α)
  | .done a => .done (some a)
  | .emit e f => .emit e (f.within limit)
  | .sleep n f =>
    if n ≤ limit then .sleep n (f.within (limit - n)) else .sleep limit (.done none)
  | .pause f => if limit = 0 then .done none else .pause (f.within limit)
  | .draw k => .draw fun n => (k n).within limit
  | .never => .sleep limit (.done none)

/-- Lets the flow go on up to its wait of the given number, counted from zero, and no more than `ticks`
into it. There it ends with no result. A pause is a wait that takes no time. -/
def cut (wait ticks : Nat) : Flow ε α → Flow ε (Option α)
  | .done a => .done (some a)
  | .emit e f => .emit e (f.cut wait ticks)
  | .sleep n f =>
    match wait with
    | 0 => .sleep (min n ticks) (.done none)
    | wait + 1 => .sleep n (f.cut wait ticks)
  | .pause f =>
    match wait with
    | 0 => .pause (.done none)
    | wait + 1 => .pause (f.cut wait ticks)
  | .draw k => .draw fun n => (k n).cut wait ticks
  | .never =>
    match wait with
    | 0 => .sleep ticks (.done none)
    | _ + 1 => .never

/-- What came of a flow that ran alone: its events and their times, the next number to draw, and the
time and result of its end if it has one. -/
structure Run (ε α : Type) where
  events : List (Nat × ε)
  drawn : Nat
  ending : Option (Nat × α)

/-- Runs a flow from a time on, when `drawn` numbers have been drawn. -/
def run (now drawn : Nat) : Flow ε α → Run ε α
  | .done a => ⟨[], drawn, some (now, a)⟩
  | .emit e f =>
    let r := f.run now drawn
    { r with events := (now, e) :: r.events }
  | .sleep n f => f.run (now + n) drawn
  | .pause f => f.run now drawn
  | .draw k => (k drawn).run now (drawn + 1)
  | .never => ⟨[], drawn, none⟩

/-- A flow is made from those below it. -/
inductive Below : Flow ε α → Flow ε α → Prop where
  | emit (e : ε) (f : Flow ε α) : Below f (.emit e f)
  | sleep (n : Nat) (f : Flow ε α) : Below f (.sleep n f)
  | pause (f : Flow ε α) : Below f (.pause f)
  | draw (k : Nat → Flow ε α) (n : Nat) : Below (k n) (.draw k)

theorem below_acc (f : Flow ε α) : Acc Below f := by
  induction f with
  | done a => exact ⟨_, fun _ h => nomatch h⟩
  | emit e f ih => exact ⟨_, fun _ h => by cases h; exact ih⟩
  | sleep n f ih => exact ⟨_, fun _ h => by cases h; exact ih⟩
  | pause f ih => exact ⟨_, fun _ h => by cases h; exact ih⟩
  | draw k ih => exact ⟨_, fun _ h => by cases h; exact ih _⟩
  | never => exact ⟨_, fun _ h => nomatch h⟩

instance : WellFoundedRelation (Flow ε α) := ⟨Below, ⟨below_acc⟩⟩

/-- Runs two flows side by side, the first of which goes on in `i` ticks and the second in `j`.
Whenever something can go on the first does as much as it can, and then the second. -/
def beside (i : Nat) (p : Flow ε α) (j : Nat) (q : Flow ε β) : Flow ε (α × β) :=
  match i, p with
  | 0, .emit e p' => .emit e (beside 0 p' j q)
  | 0, .draw k => .draw fun n => beside 0 (k n) j q
  | 0, .sleep n p' => beside n p' j q
  | i, p =>
    match j, q with
    | 0, .emit e q' => .emit e (beside i p 0 q')
    | 0, .draw k => .draw fun n => beside i p 0 (k n)
    | 0, .sleep n q' => beside i p n q'
    | j, q =>
      match i, p, j, q with
      | 0, .pause p', 0, .pause q' => .pause (beside 0 p' 0 q')
      | 0, .pause p', j, q => .pause (beside 0 p' j q)
      | i, p, 0, .pause q' => .pause (beside i p 0 q')
      | 0, .done a, 0, .done b => .done (a, b)
      | i + 1, p, j + 1, q =>
        if i ≤ j then .sleep (i + 1) (beside 0 p (j - i) q)
        else .sleep (j + 1) (beside (i - j) p 0 q)
      | i + 1, p, 0, q => .sleep (i + 1) (beside 0 p 0 q)
      | 0, p, j + 1, q => .sleep (j + 1) (beside 0 p 0 q)
      | 0, _, 0, _ => .never
  termination_by (p, q, i + j)
  decreasing_by
    all_goals first
      | exact Prod.Lex.left _ _ (by constructor)
      | exact Prod.Lex.right _ (Prod.Lex.left _ _ (by constructor))
      | exact Prod.Lex.right _ (Prod.Lex.right _ (by
          show _ < _
          omega))

/-- Runs flows side by side, each in its turn going on as far as it can. -/
def all : List (Flow ε α) → Flow ε (List α)
  | [] => .done []
  | f :: fs => (beside 0 f 0 (all fs)).bind fun r => .done (r.1 :: r.2)

end Flow

end Courier
