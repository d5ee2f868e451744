import Courier.Proofs.Chain.Pool
/-!
Flows that are joined into one.

`beside` and `all` run flows to their ends side by side and fix the order of their steps. Flows that
do not look at the numbers they draw do there what each does alone: the events are those of each in
its own order, and the results are those of each, had when the last one ends (`beside_run`,
`all_run`).
-/

namespace Courier.Flow

variable {ε δ α β γ : Type}

/-- Two rows put together, each of which keeps its order. -/
inductive Shuffle : List γ → List γ → List γ → Prop where
  | nil : Shuffle [] [] []
  | left {x : γ} {xs ys zs : List γ} : Shuffle xs ys zs → Shuffle (x :: xs) ys (x :: zs)
  | right {y : γ} {xs ys zs : List γ} : Shuffle xs ys zs → Shuffle xs (y :: ys) (y :: zs)

/-- Any number of rows put together, each of which keeps its order. -/
inductive Shuffles : List (List γ) → List γ → Prop where
  | nil : Shuffles [] []
  | cons {xs ys zs : List γ} {rows : List (List γ)} :
      Shuffles rows ys → Shuffle xs ys zs → Shuffles (xs :: rows) zs

theorem Shuffle.countP {xs ys zs : List γ} (h : Shuffle xs ys zs) (kind : γ → Bool) :
    zs.countP kind = xs.countP kind + ys.countP kind := by
  induction h with
  | nil => rfl
  | left _ ih =>
    rw [List.countP_cons, List.countP_cons, ih]
    omega
  | right _ ih =>
    rw [List.countP_cons, List.countP_cons, ih]
    omega

theorem Shuffles.countP {rows : List (List γ)} {zs : List γ} (h : Shuffles rows zs)
    (kind : γ → Bool) : zs.countP kind = (rows.map (List.countP kind)).sum := by
  induction h with
  | nil => rfl
  | cons _ shuffle ih => rw [shuffle.countP, ih, List.map_cons, List.sum_cons]

/-- Both ends, at the time of the later one. -/
def bothEnds : Option (Nat × α) → Option (Nat × β) → Option (Nat × α × β)
  | some (t, a), some (u, b) => some (max t u, a, b)
  | _, _ => none

/-- One run does what two others do together. -/
structure Joins (view : ε → δ) (r : Run ε α) (s : Run ε β) (joined : Run ε (α × β)) : Prop where
  events : Shuffle (r.seen view) (s.seen view) (joined.seen view)
  ending : joined.ending = bothEnds r.ending s.ending

/-- A flow that is not about to do anything before the other flow gets its turn. -/
inductive Held : Nat → Flow ε α → Prop where
  | waits (i : Nat) (p : Flow ε α) : Held (i + 1) p
  | pauses (p : Flow ε α) : Held 0 (.pause p)
  | done (a : α) : Held 0 (.done a)
  | never : Held 0 .never

theorem held_of_not {i : Nat} {p : Flow ε α} (noEmit : ∀ e p', i = 0 → p = .emit e p' → False)
    (noDraw : ∀ k, i = 0 → p = .draw k → False)
    (noSleep : ∀ n p', i = 0 → p = .sleep n p' → False) : Held i p := by
  cases i with
  | succ i => exact .waits i p
  | zero =>
    cases p with
    | done a => exact .done a
    | emit e p => exact (noEmit e p rfl rfl).elim
    | sleep n p => exact (noSleep n p rfl rfl).elim
    | pause p => exact .pauses p
    | draw k => exact (noDraw k rfl rfl).elim
    | never => exact .never

/-- If it does not wait for its turn either, such a flow is at its end. -/
theorem ended_of_not {p : Flow ε α} (noPause : ∀ p', p = .pause p' → False)
    (noEmit : ∀ e p', 0 = 0 → p = .emit e p' → False) (noDraw : ∀ k, 0 = 0 → p = .draw k → False)
    (noSleep : ∀ n p', 0 = 0 → p = .sleep n p' → False) : (∃ a, p = .done a) ∨ p = .never := by
  cases held_of_not noEmit noDraw noSleep with
  | pauses p => exact (noPause p rfl).elim
  | done a => exact .inl ⟨a, rfl⟩
  | never => exact .inr rfl

theorem plain_beside (view : ε → δ) (i : Nat) (p : Flow ε α) (j : Nat) (q : Flow ε β) :
    (beside i p j q).plain view = beside i (p.plain view) j (q.plain view) := by
  fun_induction beside i p j q with
  | case1 j q e p ih => simp only [plain, beside, ih]
  | case2 j q k ih => simp only [plain, beside, ih]
  | case3 j q n p ih => simp only [plain, beside, ih]
  | case4 i p noEmit noDraw noSleep e q ih =>
    cases held_of_not noEmit noDraw noSleep <;> simp only [plain, beside, ih]
  | case5 i p noEmit noDraw noSleep k ih =>
    cases held_of_not noEmit noDraw noSleep <;> simp only [plain, beside, ih]
  | case6 i p noEmit noDraw noSleep n q ih =>
    cases held_of_not noEmit noDraw noSleep <;> simp only [plain, beside, ih]
  | case7 p q _ _ _ _ _ _ ih => simp only [plain, beside, ih]
  | case8 p j q noPause _ _ _ noEmit noDraw noSleep ih =>
    cases held_of_not noEmit noDraw noSleep with
    | pauses q => exact (noPause q rfl rfl).elim
    | _ => simp only [plain, beside, ih]
  | case9 i p q noPause noEmit noDraw noSleep _ _ _ ih =>
    cases held_of_not noEmit noDraw noSleep with
    | pauses p => exact (noPause p rfl rfl).elim
    | _ => simp only [plain, beside, ih]
  | case10 a b => simp only [plain, beside]
  | case11 i p j q first _ _ _ _ _ _ ih => simp only [plain, beside, ih, if_pos first]
  | case12 i p j q first _ _ _ _ _ _ ih => simp only [plain, beside, ih, if_neg first]
  | case13 i p q noPause _ _ _ noEmit noDraw noSleep ih =>
    obtain ⟨b, rfl⟩ | rfl := ended_of_not noPause noEmit noDraw noSleep <;>
      simp only [plain, beside, ih]
  | case14 p j q noPause noEmit noDraw noSleep _ _ _ ih =>
    obtain ⟨a, rfl⟩ | rfl := ended_of_not noPause noEmit noDraw noSleep <;>
      simp only [plain, beside, ih]
  | case15 p q noPause noPause' _ notDone noEmit noDraw noSleep noEmit' noDraw' noSleep' =>
    obtain ⟨a, rfl⟩ | rfl := ended_of_not noPause noEmit noDraw noSleep <;>
      obtain ⟨b, rfl⟩ | rfl := ended_of_not noPause' noEmit' noDraw' noSleep'
    · exact (notDone a b rfl rfl).elim
    all_goals simp only [plain, beside]

theorem Blind.beside {view : ε → δ} {p : Flow ε α} {q : Flow ε β} (hp : p.Blind view)
    (hq : q.Blind view) (i j : Nat) : (beside i p j q).Blind view := by
  fun_induction Flow.beside i p j q with
  | case2 j q k ih =>
    intro n
    exact ⟨ih n (hp n).1 hq, by rw [plain_beside, plain_beside, (hp n).2]⟩
  | case5 i p noEmit noDraw noSleep k ih =>
    intro n
    exact ⟨ih n hp (hq n).1, by rw [plain_beside, plain_beside, (hq n).2]⟩
  | case10 a b => trivial
  | case15 => trivial
  | _ =>
    rename_i ih
    exact ih hp hq

section joined

variable {view : ε → δ}

/-- Whatever it draws first, a blind flow is seen to go on in one way. -/
theorem Blind.run_draw {k : Nat → Flow ε α} (h : (Flow.draw k).Blind view)
    (now drawn n drawn' : Nat) :
    ((Flow.draw k).run now drawn).seen view = ((k n).run now drawn').seen view ∧
      ((Flow.draw k).run now drawn).ending = ((k n).run now drawn').ending := by
  obtain ⟨here, ending⟩ := (h drawn).1.run now (drawn + 1) 0
  obtain ⟨there, ending'⟩ := (h n).1.run now drawn' 0
  have same : (k drawn).plain view = (k n).plain view := (h drawn).2.trans (h n).2.symm
  rw [← same] at there ending'
  exact ⟨here.trans there.symm, ending.trans ending'.symm⟩

/-- A flow that is done may as well be so later, while the other goes on. -/
theorem bothEnds_done_right {r : Option (Nat × α)} {now later : Nat} (b : β) (le : now ≤ later)
    (after : ∀ time a, r = some (time, a) → later ≤ time) :
    bothEnds r (some (later, b)) = bothEnds r (some (now, b)) := by
  cases r with
  | none => rfl
  | some r =>
    have after := after r.1 r.2 rfl
    have same : max r.1 later = max r.1 now := by omega
    simp only [bothEnds, same]

theorem bothEnds_done_left {s : Option (Nat × β)} {now later : Nat} (a : α) (le : now ≤ later)
    (after : ∀ time b, s = some (time, b) → later ≤ time) :
    bothEnds (some (later, a)) s = bothEnds (some (now, a)) s := by
  cases s with
  | none => rfl
  | some s =>
    have after := after s.1 s.2 rfl
    have same : max later s.1 = max now s.1 := by omega
    simp only [bothEnds, same]

/-- Each of two flows does beside the other what it does alone. -/
theorem beside_run {p : Flow ε α} {q : Flow ε β} (hp : p.Blind view) (hq : q.Blind view)
    (i j now drawn d e : Nat) :
    Joins view (p.run (now + i) d) (q.run (now + j) e) ((beside i p j q).run now drawn) := by
  fun_induction beside i p j q generalizing now drawn with
  | case1 j q event p ih =>
    have rest := ih hp hq now drawn
    exact ⟨.left rest.events, rest.ending⟩
  | case2 j q k ih =>
    have rest := ih drawn (hp drawn).1 hq now (drawn + 1)
    obtain ⟨events, ending⟩ := hp.run_draw now d drawn d
    exact ⟨events ▸ rest.events, ending ▸ rest.ending⟩
  | case3 j q n p ih => exact ih hp hq now drawn
  -- from here on the first flow has to wait
  | case4 i p noEmit noDraw noSleep event q ih =>
    have rest := ih hp hq now drawn
    exact ⟨.right rest.events, rest.ending⟩
  | case5 i p noEmit noDraw noSleep k ih =>
    have rest := ih drawn hp (hq drawn).1 now (drawn + 1)
    obtain ⟨events, ending⟩ := hq.run_draw now e drawn e
    exact ⟨events ▸ rest.events, ending ▸ rest.ending⟩
  | case6 i p noEmit noDraw noSleep n q ih => exact ih hp hq now drawn
  | case7 p q _ _ _ _ _ _ ih => exact ih hp hq now drawn
  | case8 p j q noPause _ _ _ noEmit noDraw noSleep ih => exact ih hp hq now drawn
  | case9 i p q noPause noEmit noDraw noSleep _ _ _ ih => exact ih hp hq now drawn
  | case10 a b =>
    refine ⟨.nil, ?_⟩
    simp only [run, bothEnds, Nat.max_self]
    rfl
  -- both wait for the clock, until one of them can go on
  | case11 i p j q first _ _ _ _ _ _ ih =>
    have rest := ih hp hq (now + (i + 1)) drawn
    have same : now + (i + 1) + (j - i) = now + (j + 1) := by omega
    rwa [same] at rest
  | case12 i p j q first _ _ _ _ _ _ ih =>
    have rest := ih hp hq (now + (j + 1)) drawn
    have same : now + (j + 1) + (i - j) = now + (i + 1) := by omega
    rwa [same] at rest
  -- one waits and the other is at its end
  | case13 i p q noPause _ _ _ noEmit noDraw noSleep ih =>
    have rest := ih hp hq (now + (i + 1)) drawn
    obtain ⟨b, rfl⟩ | rfl := ended_of_not noPause noEmit noDraw noSleep
    · refine ⟨rest.events, rest.ending.trans ?_⟩
      exact bothEnds_done_right b (Nat.le_add_right _ _) fun _ _ ends => start_le_ending ends
    · exact rest
  | case14 p j q noPause noEmit noDraw noSleep _ _ _ ih =>
    have rest := ih hp hq (now + (j + 1)) drawn
    obtain ⟨a, rfl⟩ | rfl := ended_of_not noPause noEmit noDraw noSleep
    · refine ⟨rest.events, rest.ending.trans ?_⟩
      exact bothEnds_done_left a (Nat.le_add_right _ _) fun _ _ ends => start_le_ending ends
    · exact rest
  -- one of the two never ends
  | case15 p q noPause noPause' _ notDone noEmit noDraw noSleep noEmit' noDraw' noSleep' =>
    obtain ⟨a, rfl⟩ | rfl := ended_of_not noPause noEmit noDraw noSleep <;>
      obtain ⟨b, rfl⟩ | rfl := ended_of_not noPause' noEmit' noDraw' noSleep'
    · exact (notDone a b rfl rfl).elim
    all_goals exact ⟨.nil, rfl⟩

theorem Blind.all {flows : List (Flow ε α)} (blind : ∀ f ∈ flows, f.Blind view) :
    (all flows).Blind view := by
  induction flows with
  | nil => trivial
  | cons f rest ih =>
    have first := blind f List.mem_cons_self
    have later := ih fun g mem => blind g (List.mem_cons_of_mem f mem)
    exact (first.beside later 0 0).bind fun _ => trivial

/-- Flows joined into one show what each shows alone, each in its own order. The joined flow ends if
all of them do, with their results in order, when the last of them ends. -/
theorem all_run {flows : List (Flow ε α)} (blind : ∀ f ∈ flows, f.Blind view)
    (now drawn d : Nat) :
    Shuffles (flows.map fun f => (f.run now d).seen view) (((all flows).run now drawn).seen view) ∧
      ((all flows).run now drawn).ending =
        (flows.mapM fun f : Flow ε α => (f.run now d).ending).map fun ends =>
          (ends.foldr (fun e latest => max e.1 latest) now, ends.map Prod.snd) := by
  induction flows generalizing drawn with
  | nil => exact ⟨.nil, rfl⟩
  | cons f rest ih =>
    have first := blind f List.mem_cons_self
    have others : ∀ g ∈ rest, g.Blind view := fun g mem => blind g (List.mem_cons_of_mem f mem)
    obtain ⟨events, ending⟩ := ih others 0
    obtain ⟨both, ends⟩ := beside_run first (Blind.all others) 0 0 now drawn d 0
    simp only [Nat.add_zero] at both ends
    rw [ending] at ends
    have seen : ((all (f :: rest)).run now drawn).seen view =
        ((beside 0 f 0 (all rest)).run now drawn).seen view := by
      simp only [all, run_bind, run, Run.seen]
      split <;> simp
    refine ⟨.cons events (seen ▸ both), ?_⟩
    simp only [all, run_bind, run, ends, List.mapM_cons]
    cases (f.run now d).ending with
    | none => rfl
    | some e =>
      cases rest.mapM fun f => (f.run now d).ending with
      | none => rfl
      | some ends => rfl

end joined

end Courier.Flow
