import Courier.Body.Walk
import Mathlib.Data.List.Basic
/-!
The walk over a document is a run over the list of its leaves.

`Sink.feed` hands a flat list of leaves to a sink one by one and stops at the first that fails. It
says what was asked of the sink, how the run ended and in which state. `walk_asks_for_leaves` is the
main result: a walk does exactly that with the leaves of the document, whatever the sink does.
-/

namespace Courier

/-- Where a function is defined on all of a list, `filterMap` leaves nothing out. -/
theorem map_eq_map_filterMap {α β : Type} {f : α → Option β} {xs : List α}
    (h : ∀ x ∈ xs, (f x).isSome) : xs.map f = (xs.filterMap f).map some := by
  induction xs with
  | nil => rfl
  | cons x xs ih =>
    obtain ⟨y, hy⟩ := Option.isSome_iff_exists.mp (h x List.mem_cons_self)
    have tail := ih fun z hz => h z (List.mem_cons_of_mem _ hz)
    simp only [List.map_cons, List.filterMap_cons, hy, tail]

namespace Value

/-- Induction over documents: a sequence and a record are as their members are. -/
theorem induction {P : Value → Prop} (scalar : ∀ text, P (.scalar text))
    (file : ∀ part, P (.file part)) (unsupported : ∀ typeName, P (.unsupported typeName))
    (sequence : ∀ items, (∀ v ∈ items, P v) → P (.sequence items))
    (record : ∀ fields, (∀ f ∈ fields, P f.2) → P (.record fields)) (v : Value) : P v := by
  refine @Value.rec P (fun items => ∀ v ∈ items, P v) (fun fields => ∀ f ∈ fields, P f.2)
    (fun f => P f.2) scalar file sequence record unsupported ?_ ?_ ?_ ?_ ?_ v
  · intro v hv
    cases hv
  · intro v items hv hitems w hw
    cases hw with
    | head => exact hv
    | tail _ hw => exact hitems w hw
  · intro f hf
    cases hf
  · intro f fields hf hfields g hg
    cases hg with
    | head => exact hf
    | tail _ hg => exact hfields g hg
  · intro _ v hv
    exact hv

theorem leavesAt_sequence (path : KeyPath) (items : List Value) :
    leavesAt path (.sequence items) =
      items.zipIdx.flatMap fun e => leavesAt (path.index e.2) e.1 := by
  have from_ (position : Nat) : leavesOfItems path position items =
      (items.zipIdx position).flatMap fun e => leavesAt (path.index e.2) e.1 := by
    induction items generalizing position with
    | nil => rfl
    | cons v items ih => simp [leavesOfItems, ih]
  exact from_ 0

theorem leavesAt_record (path : KeyPath) (fields : List (String × Value)) :
    leavesAt path (.record fields) = fields.flatMap fun f => leavesAt (path.field f.1) f.2 := by
  have all : leavesOfFields path fields =
      fields.flatMap fun f => leavesAt (path.field f.1) f.2 := by
    induction fields with
    | nil => rfl
    | cons f fields ih => simp [leavesOfFields, ih]
  exact all

/-- The leaves of a part of a document are its own, seen from further up. -/
theorem leavesAt_eq_map (path : KeyPath) (v : Value) :
    leavesAt path v = v.leaves.map fun l => (path ++ l.1, l.2) := by
  have extend (v : Value) : ∀ path start : KeyPath,
      leavesAt (path ++ start) v = (leavesAt start v).map fun l => (path ++ l.1, l.2) := by
    induction v using Value.induction with
    | scalar text => intro path start; rfl
    | file part => intro path start; rfl
    | unsupported typeName => intro path start; rfl
    | sequence items ih =>
      intro path start
      rw [leavesAt_sequence, leavesAt_sequence, List.map_flatMap]
      apply List.flatMap_congr
      rintro ⟨v, i⟩ he
      have member := List.fst_mem_of_mem_zipIdx he
      simpa only [KeyPath.index, List.append_assoc] using ih v member path (start.index i)
    | record fields ih =>
      intro path start
      rw [leavesAt_record, leavesAt_record, List.map_flatMap]
      apply List.flatMap_congr
      rintro ⟨name, v⟩ he
      simpa only [KeyPath.field, List.append_assoc] using ih _ he path (start.field name)
  simpa only [leaves, KeyPath.root, List.append_nil] using extend v path KeyPath.root

/-- The item at a position adds this position in front of the paths to its leaves. -/
theorem leaves_sequence (items : List Value) :
    (Value.sequence items).leaves =
      items.zipIdx.flatMap fun e => e.1.leaves.map fun l => (.index e.2 :: l.1, l.2) := by
  rw [leaves, leavesAt_sequence]
  apply List.flatMap_congr
  rintro ⟨v, i⟩ _
  exact leavesAt_eq_map [.index i] v

/-- A field adds its name in front of the paths to its leaves, as often as the name occurs. -/
theorem leaves_record (fields : List (String × Value)) :
    (Value.record fields).leaves =
      fields.flatMap fun f => f.2.leaves.map fun l => (.field f.1 :: l.1, l.2) := by
  rw [leaves, leavesAt_record]
  apply List.flatMap_congr
  rintro ⟨name, v⟩ _
  exact leavesAt_eq_map [.field name] v

example : (Value.record [("a", .sequence []), ("b", .scalar "1"), ("c", .record []),
    ("b", .sequence [.scalar "2", .unsupported "Thread"])]).leaves =
    [([.field "b"], .scalar "1"), ([.field "b", .index 0], .scalar "2"),
      ([.field "b", .index 1], .unsupported "Thread")] := by decide

end Value

/-- What came of handing leaves to a sink: what was asked of it, how that ended and its state. -/
structure Fed (σ : Type) where
  calls : List (KeyPath × Leaf)
  result : Except EncodeError Unit
  state : σ

variable {σ : Type}

/-- Goes on from a state only if nothing has failed yet. -/
def Fed.followed (f : Fed σ) (next : σ → Fed σ) : Fed σ :=
  match f.result with
  | .ok () => { next f.state with calls := f.calls ++ (next f.state).calls }
  | .error _ => f

theorem Fed.followed_of_ok {f : Fed σ} (h : f.result = .ok ()) (next : σ → Fed σ) :
    f.followed next = { next f.state with calls := f.calls ++ (next f.state).calls } := by
  simp only [followed, h]

theorem Fed.followed_of_error {f : Fed σ} {e : EncodeError} (h : f.result = .error e)
    (next : σ → Fed σ) : f.followed next = f := by
  simp only [followed, h]

theorem Fed.followed_assoc (f : Fed σ) (g h : σ → Fed σ) :
    (f.followed g).followed h = f.followed fun s => (g s).followed h := by
  obtain ⟨calls, result, state⟩ := f
  cases result with
  | error e => rfl
  | ok u =>
    simp only [followed]
    obtain ⟨calls', result', state'⟩ := g state
    cases result' with
    | error e => rfl
    | ok u => simp only [List.append_assoc]

/-- The step ends as described and leaves the state described. -/
def Effect.Does (x : Effect σ Unit) (f : σ → Fed σ) : Prop :=
  ∀ s, x.run.run s = ((f s).result, (f s).state)

theorem Effect.Does.followed {x y : Effect σ Unit} {f g : σ → Fed σ} (hx : x.Does f)
    (hy : y.Does g) : Effect.Does (x >>= fun _ => y) fun s => (f s).followed g := by
  intro s
  have first := hx s
  simp only [Fed.followed, ExceptT.run_bind, StateT.run_bind, first]
  obtain ⟨calls, result, state⟩ := f s
  cases result with
  | error e => rfl
  | ok u => exact hy state

namespace Sink

/-- Hands one leaf over. What no body can hold is never asked of the sink. -/
def hand (sink : Sink σ) : KeyPath × Leaf → σ → Fed σ
  | (path, .scalar text), s =>
    let (result, state) := (sink.scalar path text).run.run s
    ⟨[(path, .scalar text)], result, state⟩
  | (path, .file part), s =>
    let (result, state) := (sink.file path part).run.run s
    ⟨[(path, .file part)], result, state⟩
  | (path, .unsupported typeName), s => ⟨[], .error ⟨path.render, typeName⟩, s⟩

/-- Hands leaves over from left to right, up to the first that fails. -/
def feed (sink : Sink σ) : List (KeyPath × Leaf) → σ → Fed σ
  | [], s => ⟨[], .ok (), s⟩
  | leaf :: rest, s => (sink.hand leaf s).followed (sink.feed rest)

theorem feed_append (sink : Sink σ) (xs ys : List (KeyPath × Leaf)) (s : σ) :
    sink.feed (xs ++ ys) s = (sink.feed xs s).followed (sink.feed ys) := by
  induction xs generalizing s with
  | nil => rfl
  | cons leaf xs ih =>
    have later : sink.feed (xs ++ ys) = fun s => (sink.feed xs s).followed (sink.feed ys) :=
      funext ih
    simp only [List.cons_append, feed, later, Fed.followed_assoc]

theorem feed_singleton (sink : Sink σ) (leaf : KeyPath × Leaf) (s : σ) :
    sink.feed [leaf] s = sink.hand leaf s := by
  simp only [feed, Fed.followed]
  obtain ⟨calls, result, state⟩ := sink.hand leaf s
  cases result with
  | error e => rfl
  | ok u => simp

theorem accept_does (sink : Sink σ) (path : KeyPath) (leaf : Leaf) :
    (sink.accept path leaf).Does (sink.feed [(path, leaf)]) := by
  intro s
  rw [feed_singleton]
  cases leaf with
  | scalar text => rfl
  | file part => rfl
  | unsupported typeName => rfl

theorem does_append {sink : Sink σ} {x y : Effect σ Unit} {xs ys : List (KeyPath × Leaf)}
    (hx : x.Does (sink.feed xs)) (hy : y.Does (sink.feed ys)) :
    Effect.Does (x >>= fun _ => y) (sink.feed (xs ++ ys)) := by
  intro s
  rw [feed_append]
  exact hx.followed hy s

/-- What the walk does with a value is what the sink does with its leaves. Members come one after
the other, and so do their leaves, so the step is `does_append` at every level. -/
theorem walkAt_does (sink : Sink σ) (v : Value) :
    ∀ path, (sink.walkAt path v).Does (sink.feed (v.leavesAt path)) := by
  induction v using Value.induction with
  | scalar text => exact fun path => sink.accept_does path (.scalar text)
  | file part => exact fun path => sink.accept_does path (.file part)
  | unsupported typeName => exact fun path => sink.accept_does path (.unsupported typeName)
  | sequence items ih =>
    intro path
    have run (position : Nat) : (sink.walkItems path position items).Does
        (sink.feed (Value.leavesOfItems path position items)) := by
      induction items generalizing position with
      | nil => exact fun _ => rfl
      | cons v items later =>
        have tail := later (fun w hw => ih w (List.mem_cons_of_mem _ hw)) (position + 1)
        exact does_append (ih v List.mem_cons_self (path.index position)) tail
    exact run 0
  | record fields ih =>
    intro path
    have run : (sink.walkFields path fields).Does
        (sink.feed (Value.leavesOfFields path fields)) := by
      induction fields with
      | nil => exact fun _ => rfl
      | cons f fields later =>
        have tail := later fun g hg => ih g (List.mem_cons_of_mem _ hg)
        exact does_append (ih f List.mem_cons_self (path.field f.1)) tail
    exact run

/-- The run of the walk over a whole document. -/
theorem walk_eq_feed (sink : Sink σ) (v : Value) (s : σ) :
    sink.walk v s = ((sink.feed v.leaves s).result, (sink.feed v.leaves s).state) :=
  sink.walkAt_does v KeyPath.root s

theorem hand_calls_of_ok {sink : Sink σ} {leaf : KeyPath × Leaf} {s : σ}
    (h : (sink.hand leaf s).result = .ok ()) : (sink.hand leaf s).calls = [leaf] := by
  obtain ⟨path, leaf⟩ := leaf
  cases leaf with
  | scalar text => rfl
  | file part => rfl
  | unsupported typeName => cases h

/-- A run that ends well has asked for every leaf, once and in order. -/
theorem feed_calls_of_ok {sink : Sink σ} {leaves : List (KeyPath × Leaf)} {s : σ}
    (h : (sink.feed leaves s).result = .ok ()) : (sink.feed leaves s).calls = leaves := by
  induction leaves generalizing s with
  | nil => rfl
  | cons leaf rest ih =>
    rw [feed] at h ⊢
    cases first : (sink.hand leaf s).result with
    | error e =>
      rw [Fed.followed_of_error first, first] at h
      cases h
    | ok u =>
      rw [Fed.followed_of_ok first] at h ⊢
      simp only [hand_calls_of_ok first, ih h, List.singleton_append]

theorem hand_calls_prefix (sink : Sink σ) (leaf : KeyPath × Leaf) (s : σ) :
    (sink.hand leaf s).calls <+: [leaf] := by
  obtain ⟨path, leaf⟩ := leaf
  cases leaf with
  | scalar text => exact List.prefix_refl _
  | file part => exact List.prefix_refl _
  | unsupported typeName => exact List.nil_prefix

/-- However a run ends, it has asked for leaves from the first on, and left out only the last ones. -/
theorem feed_calls_prefix (sink : Sink σ) (leaves : List (KeyPath × Leaf)) (s : σ) :
    (sink.feed leaves s).calls <+: leaves := by
  induction leaves generalizing s with
  | nil => exact List.nil_prefix
  | cons leaf rest ih =>
    rw [feed]
    cases first : (sink.hand leaf s).result with
    | error e =>
      rw [Fed.followed_of_error first]
      exact (sink.hand_calls_prefix leaf s).trans (List.prefix_append [leaf] rest)
    | ok u =>
      rw [Fed.followed_of_ok first]
      simp only [hand_calls_of_ok first, List.singleton_append]
      exact List.cons_prefix_cons.mpr ⟨rfl, ih _⟩

/-- A run that fails has gone well up to some leaf and failed with it. -/
theorem feed_stops {sink : Sink σ} {leaves : List (KeyPath × Leaf)} {s : σ} {e : EncodeError}
    (h : (sink.feed leaves s).result = .error e) :
    ∃ done leaf rest, leaves = done ++ leaf :: rest ∧
      (sink.feed done s).result = .ok () ∧
      (sink.hand leaf (sink.feed done s).state).result = .error e ∧
      sink.feed leaves s = (sink.feed done s).followed (sink.hand leaf) := by
  induction leaves generalizing s with
  | nil => cases h
  | cons leaf rest ih =>
    rw [feed] at h ⊢
    cases first : (sink.hand leaf s).result with
    | error e' =>
      rw [Fed.followed_of_error first] at h ⊢
      exact ⟨[], leaf, rest, rfl, rfl, h, rfl⟩
    | ok u =>
      rw [Fed.followed_of_ok first] at h
      obtain ⟨done, last, rest, rfl, well, fails, whole⟩ := ih h
      refine ⟨leaf :: done, last, rest, rfl, ?_, ?_, ?_⟩
      · rw [feed, Fed.followed_of_ok first]
        exact well
      · rw [feed, Fed.followed_of_ok first]
        exact fails
      · rw [feed, Fed.followed_assoc, Fed.followed_of_ok first, Fed.followed_of_ok first, whole]

/-- The same sink, which also keeps what is asked of it. -/
def logged (sink : Sink σ) : Sink (σ × List (KeyPath × Leaf)) where
  scalar path text := note (path, .scalar text) (sink.scalar path text)
  file path part := note (path, .file part) (sink.file path part)
where
  note (call : KeyPath × Leaf) (x : Effect σ Unit) : Effect (σ × List (KeyPath × Leaf)) Unit :=
    ExceptT.mk fun (s, calls) =>
      let (result, state) := x.run.run s
      (result, (state, calls ++ [call]))

theorem logged_hand (sink : Sink σ) (leaf : KeyPath × Leaf) (s : σ)
    (calls : List (KeyPath × Leaf)) :
    sink.logged.hand leaf (s, calls) =
      ⟨(sink.hand leaf s).calls, (sink.hand leaf s).result,
        ((sink.hand leaf s).state, calls ++ (sink.hand leaf s).calls)⟩ := by
  obtain ⟨path, leaf⟩ := leaf
  cases leaf with
  | scalar text => rfl
  | file part => rfl
  | unsupported typeName => simp only [hand, List.append_nil]

theorem logged_feed (sink : Sink σ) (leaves : List (KeyPath × Leaf)) (s : σ)
    (calls : List (KeyPath × Leaf)) :
    sink.logged.feed leaves (s, calls) =
      ⟨(sink.feed leaves s).calls, (sink.feed leaves s).result,
        ((sink.feed leaves s).state, calls ++ (sink.feed leaves s).calls)⟩ := by
  induction leaves generalizing s calls with
  | nil => simp only [feed, List.append_nil]
  | cons leaf rest ih =>
    simp only [feed, Fed.followed, logged_hand]
    obtain ⟨asked, result, state⟩ := sink.hand leaf s
    cases result with
    | error e => rfl
    | ok u => simp only [ih, List.append_assoc]

/-- The leaves of a document are listed in its order, each with the segments that lead to it: the
position of an item in front of the paths below it, the name of a field likewise. A walk is a run over
this list from left to right. The sink is asked for each leaf once, in order and with its path. At the
first that fails the walk ends with that failure: the sink is asked for nothing more and keeps the
state it has then. -/
theorem walk_asks_for_leaves (sink : Sink σ) (v : Value) (start : σ) :
    ((∀ text, (Value.scalar text).leaves = [([], .scalar text)]) ∧
      (∀ part, (Value.file part).leaves = [([], .file part)]) ∧
      (∀ typeName, (Value.unsupported typeName).leaves = [([], .unsupported typeName)]) ∧
      (∀ items, (Value.sequence items).leaves =
        items.zipIdx.flatMap fun e => e.1.leaves.map fun l => (Segment.index e.2 :: l.1, l.2)) ∧
      ∀ fields, (Value.record fields).leaves =
        fields.flatMap fun f => f.2.leaves.map fun l => (Segment.field f.1 :: l.1, l.2)) ∧
    let fed := sink.feed v.leaves start
    sink.walk v start = (fed.result, fed.state) ∧
    sink.logged.walk v (start, []) = (fed.result, fed.state, fed.calls) ∧
    (fed.result = .ok () → fed.calls = v.leaves) ∧
    ∀ e, fed.result = .error e → ∃ done leaf rest, v.leaves = done ++ leaf :: rest ∧
      (sink.feed done start).result = .ok () ∧
      (sink.hand leaf (sink.feed done start).state).result = .error e ∧
      fed = (sink.feed done start).followed (sink.hand leaf) := by
  refine ⟨⟨fun _ => rfl, fun _ => rfl, fun _ => rfl, Value.leaves_sequence, Value.leaves_record⟩,
    sink.walk_eq_feed v start, ?_, feed_calls_of_ok, fun e => feed_stops⟩
  rw [walk_eq_feed, logged_feed, List.nil_append]

end Sink

end Courier
