import Courier.Proofs.Body.Refusal
import Mathlib.Data.List.Chain
import Mathlib.Data.List.Nodup
/-!
Keys tell the leaves of a document apart.

A key is the segments of a path one after the other, with nothing between them. Where every name is
some text without an opening bracket, and no name comes right behind another, it can be read in one
way only: a bracket opens a position, which the next closing bracket ends, and any other text is a
name up to the next bracket or the end. So in a document whose records name their fields like that
no two leaves have the same key. `keys_tell_leaves_apart` is the main result.
-/

namespace Courier

/-- Some text without an opening bracket. -/
def IsName (name : String) : Prop := name ≠ "" ∧ '[' ∉ name.toList

def Segment.isField : Segment → Bool
  | .field _ => true
  | .index _ => false

namespace KeyPath

/-- A path whose key can be read: its names are names, and no two stand side by side. -/
structure Legible (path : KeyPath) : Prop where
  names : ∀ name, .field name ∈ path → IsName name
  apart : path.IsChain fun s t => ¬ (s.isField ∧ t.isField)

theorem legible_nil : Legible [] := ⟨nofun, .nil⟩

theorem Legible.tail {s : Segment} {path : KeyPath} (h : Legible (s :: path)) : Legible path :=
  ⟨fun name mem => h.names name (List.mem_cons_of_mem s mem), (List.isChain_cons.mp h.apart).2⟩

theorem Legible.index {path : KeyPath} (h : Legible path) (i : Nat) : Legible (.index i :: path) := by
  constructor
  · intro name mem
    cases mem with
    | tail _ later => exact h.names name later
  · refine List.isChain_cons.mpr ⟨?_, h.apart⟩
    rintro s - ⟨field, -⟩
    cases field

theorem Legible.field {path : KeyPath} (h : Legible path) {name : String} (named : IsName name)
    (apart : ∀ s ∈ path.head?, s.isField = false) : Legible (.field name :: path) := by
  constructor
  · intro other mem
    cases mem with
    | head => exact named
    | tail _ later => exact h.names other later
  · refine List.isChain_cons.mpr ⟨?_, h.apart⟩
    intro s first both
    rw [apart s first] at both
    cases both.2

/-! ## Reading a key -/

theorem render_cons (s : Segment) (path : KeyPath) :
    (render (s :: path)).toList = s.render.toList ++ path.render.toList := by
  simp [render]

theorem index_toList (i : Nat) :
    (Segment.index i).render.toList = '[' :: (Nat.toDigits 10 i ++ [']']) := by
  simp [Segment.render]

/-- A path that does not begin with a name has a key that begins with a bracket, or none. -/
theorem head_render {path : KeyPath} (apart : ∀ s ∈ path.head?, s.isField = false) :
    ∀ c ∈ path.render.toList.head?, c = '[' := by
  cases path with
  | nil => exact nofun
  | cons s path =>
    cases s with
    | field name => cases apart _ rfl
    | index i =>
      intro c first
      rw [render_cons, index_toList] at first
      exact (Option.some.inj first).symm

theorem Legible.apart_head {name : String} {path : KeyPath} (h : Legible (.field name :: path)) :
    ∀ s ∈ path.head?, s.isField = false := by
  intro s first
  have chained := (List.isChain_cons.mp h.apart).1 s first
  exact Bool.eq_false_iff.mpr fun field => chained ⟨rfl, field⟩

theorem digits_injective {i j : Nat} (same : Nat.toDigits 10 i = Nat.toDigits 10 j) : i = j := by
  have read := congrArg (Nat.ofDigitChars 10 · 0) same
  simpa only [Nat.ofDigitChars_ten_toDigits] using read

theorem bracket_not_mem_digits (i : Nat) : ']' ∉ Nat.toDigits 10 i := by
  intro mem
  have digit := Nat.isDigit_of_mem_toDigits (by decide) (by decide) mem
  exact absurd digit (by decide)

/-- A position is read up to its closing bracket. -/
theorem index_unique {i j : Nat} {p q : KeyPath}
    (same : (render (.index i :: p)).toList = (render (.index j :: q)).toList) :
    i = j ∧ p.render.toList = q.render.toList := by
  rw [render_cons, render_cons, index_toList, index_toList] at same
  simp only [List.cons_append, List.append_assoc, List.nil_append, List.cons.injEq, true_and] at same
  have closes {rest : List Char} : ∀ c ∈ (']' :: rest).head?, c = ']' :=
    fun c first => (Option.some.inj first).symm
  obtain ⟨digits, tail⟩ :=
    Text.parted_unique (bracket_not_mem_digits i) (bracket_not_mem_digits j) closes closes same
  exact ⟨digits_injective digits, (List.cons.inj tail).2⟩

/-- A name is read up to the next opening bracket. -/
theorem field_unique {m n : String} {p q : KeyPath} (hp : Legible (.field m :: p))
    (hq : Legible (.field n :: q))
    (same : (render (.field m :: p)).toList = (render (.field n :: q)).toList) :
    m = n ∧ p.render.toList = q.render.toList := by
  rw [render_cons, render_cons] at same
  obtain ⟨name, tail⟩ := Text.parted_unique (hp.names m List.mem_cons_self).2
    (hq.names n List.mem_cons_self).2 (head_render hp.apart_head) (head_render hq.apart_head) same
  exact ⟨String.toList_inj.mp name, tail⟩

/-- Where a name stands there is no bracket, and no end. -/
theorem field_head {name : String} (named : IsName name) (path : KeyPath) :
    ∃ c, (render (.field name :: path)).toList.head? = some c ∧ c ≠ '[' := by
  rw [render_cons]
  cases chars : name.toList with
  | nil => exact absurd (String.toList_eq_nil_iff.mp chars) named.1
  | cons c cs =>
    refine ⟨c, by simp [Segment.render, chars], ?_⟩
    rintro rfl
    exact named.2 (by simp [chars])

theorem index_head (i : Nat) (path : KeyPath) :
    (render (.index i :: path)).toList.head? = some '[' := by
  rw [render_cons, index_toList]
  rfl

theorem Legible.render_ne_nil {s : Segment} {path : KeyPath} (h : Legible (s :: path)) :
    (render (s :: path)).toList ≠ [] := by
  intro none
  cases s with
  | index i => simpa [none] using index_head i path
  | field name =>
    obtain ⟨c, first, -⟩ := field_head (h.names name List.mem_cons_self) path
    simp [none] at first

theorem field_ne_index {name : String} {p q : KeyPath} {i : Nat} (h : Legible (.field name :: p)) :
    (render (.field name :: p)).toList ≠ (render (.index i :: q)).toList := by
  intro same
  obtain ⟨c, first, other⟩ := field_head (h.names name List.mem_cons_self) p
  rw [same, index_head] at first
  exact other (Option.some.inj first).symm

/-- Two paths that can be read have different keys. -/
theorem render_injective {p q : KeyPath} (hp : p.Legible) (hq : q.Legible)
    (same : p.render = q.render) : p = q := by
  replace same := congrArg String.toList same
  induction p generalizing q with
  | nil =>
    cases q with
    | nil => rfl
    | cons t q => exact absurd same.symm hq.render_ne_nil
  | cons s p ih =>
    cases q with
    | nil => exact absurd same hp.render_ne_nil
    | cons t q =>
      cases s with
      | field m =>
        cases t with
        | field n =>
          obtain ⟨rfl, tail⟩ := field_unique hp hq same
          rw [ih hp.tail hq.tail tail]
        | index j => exact absurd same (field_ne_index hp)
      | index i =>
        cases t with
        | field n => exact absurd same.symm (field_ne_index hq)
        | index j =>
          obtain ⟨rfl, tail⟩ := index_unique same
          rw [ih hp.tail hq.tail tail]

/-! ## Paths that start apart -/

/-- What lies below different segments has no path in common. -/
theorem nodup_branches {α β : Type} {below : α → List (KeyPath × β)} {branches : List (Segment × α)}
    (segments : (branches.map Prod.fst).Nodup)
    (each : ∀ b ∈ branches, ((below b.2).map Prod.fst).Nodup) :
    ((branches.flatMap fun b => (below b.2).map fun l => (b.1 :: l.1, l.2)).map Prod.fst).Nodup := by
  have paths (b : Segment × α) : ((below b.2).map fun l => (b.1 :: l.1, l.2)).map Prod.fst =
      ((below b.2).map Prod.fst).map (b.1 :: ·) := by
    simp
  simp only [List.map_flatMap, paths, List.nodup_flatMap]
  constructor
  · intro b mem
    exact (each b mem).map fun _ _ same => (List.cons.inj same).2
  · refine (List.pairwise_map.mp segments).imp ?_
    intro b b' apart path here there
    obtain ⟨_, -, rfl⟩ := List.mem_map.mp here
    obtain ⟨_, -, same⟩ := List.mem_map.mp there
    exact apart (List.cons.inj same).1.symm

theorem nodup_indices {α : Type} (items : List α) :
    ((items.zipIdx.map fun e => (Segment.index e.2, e.1)).map Prod.fst).Nodup := by
  have positions : (items.zipIdx.map Prod.snd).Nodup := by
    rw [List.zipIdx_map_snd]
    exact List.nodup_range'
  have wrapped := positions.map (f := Segment.index) fun _ _ same => Segment.index.inj same
  rw [List.map_map] at wrapped ⊢
  exact wrapped

theorem nodup_fields {α : Type} {members : List (String × α)}
    (distinct : (members.map Prod.fst).Nodup) :
    ((members.map fun m => (Segment.field m.1, m.2)).map Prod.fst).Nodup := by
  have wrapped := distinct.map (f := Segment.field) fun _ _ same => Segment.field.inj same
  rw [List.map_map] at wrapped ⊢
  exact wrapped

end KeyPath

namespace Value

/-- Every record names its fields with different names, and no field of it is a record. -/
inductive WellNamed : Value → Prop where
  | scalar (text : String) : WellNamed (.scalar text)
  | file (part : FilePart) : WellNamed (.file part)
  | unsupported (typeName : String) : WellNamed (.unsupported typeName)
  | sequence {items : List Value} : (∀ v ∈ items, WellNamed v) → WellNamed (.sequence items)
  | record {fields : List (String × Value)} :
      (fields.map Prod.fst).Nodup → (∀ f ∈ fields, IsName f.1) →
      (∀ f ∈ fields, f.2.isRecord = false) → (∀ f ∈ fields, WellNamed f.2) →
      WellNamed (.record fields)

attribute [simp] WellNamed.scalar WellNamed.file WellNamed.unsupported

@[simp] theorem wellNamed_sequence {items : List Value} :
    WellNamed (.sequence items) ↔ ∀ v ∈ items, WellNamed v := by
  constructor
  · rintro ⟨⟩
    assumption
  · exact .sequence

@[simp] theorem wellNamed_record {fields : List (String × Value)} :
    WellNamed (.record fields) ↔ (fields.map Prod.fst).Nodup ∧ (∀ f ∈ fields, IsName f.1) ∧
      (∀ f ∈ fields, f.2.isRecord = false) ∧ ∀ f ∈ fields, WellNamed f.2 := by
  constructor
  · rintro ⟨⟩
    refine ⟨?_, ?_, ?_, ?_⟩ <;> assumption
  · rintro ⟨distinct, names, flat, each⟩
    exact .record distinct names flat each

/-! ## Paths of different leaves -/

/-- The leaves of a part of a document, with the segment that leads to it in front. -/
def leavesUnder (part : Segment × Value) : List (KeyPath × Leaf) :=
  part.2.leaves.map fun l => (part.1 :: l.1, l.2)

/-- Parts that are reached by different segments have no path in common. -/
theorem nodup_leavesUnder {parts : List (Segment × Value)} (segments : (parts.map Prod.fst).Nodup)
    (each : ∀ p ∈ parts, (p.2.leaves.map Prod.fst).Nodup) :
    ((parts.flatMap leavesUnder).map Prod.fst).Nodup :=
  KeyPath.nodup_branches segments each

theorem leaves_sequence_under (items : List Value) : (Value.sequence items).leaves =
    (items.zipIdx.map fun e => (Segment.index e.2, e.1)).flatMap leavesUnder := by
  rw [leaves_sequence, List.flatMap_map]
  rfl

theorem leaves_record_under (fields : List (String × Value)) : (Value.record fields).leaves =
    (fields.map fun f => (Segment.field f.1, f.2)).flatMap leavesUnder := by
  rw [leaves_record, List.flatMap_map]
  rfl

theorem WellNamed.nodup_paths {v : Value} (named : v.WellNamed) :
    (v.leaves.map Prod.fst).Nodup := by
  induction named with
  | scalar text => exact List.nodup_singleton _
  | file part => exact List.nodup_singleton _
  | unsupported typeName => exact List.nodup_singleton _
  | @sequence items _ ih =>
    rw [leaves_sequence_under]
    apply nodup_leavesUnder
    · exact KeyPath.nodup_indices items
    · rintro _ mem
      obtain ⟨⟨v, i⟩, inside, rfl⟩ := List.mem_map.mp mem
      exact ih v (List.fst_mem_of_mem_zipIdx inside)
  | @record fields distinct _ _ _ ih =>
    rw [leaves_record_under]
    apply nodup_leavesUnder
    · exact KeyPath.nodup_fields distinct
    · rintro _ mem
      obtain ⟨f, inside, rfl⟩ := List.mem_map.mp mem
      exact ih f inside

theorem mem_leavesUnder {parts : List (Segment × Value)} {l : KeyPath × Leaf}
    (mem : l ∈ parts.flatMap leavesUnder) :
    ∃ p ∈ parts, ∃ m ∈ p.2.leaves, l = (p.1 :: m.1, m.2) := by
  obtain ⟨p, part, inside⟩ := List.mem_flatMap.mp mem
  obtain ⟨m, leaf, rfl⟩ := List.mem_map.mp inside
  exact ⟨p, part, m, leaf, rfl⟩

theorem mem_leaves_sequence {items : List Value} {l : KeyPath × Leaf}
    (mem : l ∈ (Value.sequence items).leaves) :
    ∃ v ∈ items, ∃ m ∈ v.leaves, ∃ i, l = (.index i :: m.1, m.2) := by
  rw [leaves_sequence_under] at mem
  obtain ⟨_, part, m, inside, rfl⟩ := mem_leavesUnder mem
  obtain ⟨⟨v, i⟩, item, rfl⟩ := List.mem_map.mp part
  exact ⟨v, List.fst_mem_of_mem_zipIdx item, m, inside, i, rfl⟩

theorem mem_leaves_record {fields : List (String × Value)} {l : KeyPath × Leaf}
    (mem : l ∈ (Value.record fields).leaves) :
    ∃ f ∈ fields, ∃ m ∈ f.2.leaves, l = (.field f.1 :: m.1, m.2) := by
  rw [leaves_record_under] at mem
  obtain ⟨_, part, m, inside, rfl⟩ := mem_leavesUnder mem
  obtain ⟨f, field, rfl⟩ := List.mem_map.mp part
  exact ⟨f, field, m, inside, rfl⟩

/-- Only the leaves of a record are reached by a name. -/
theorem head_of_not_record {v : Value} (other : v.isRecord = false) :
    ∀ l ∈ v.leaves, ∀ s ∈ l.1.head?, s.isField = false := by
  intro l mem s first
  cases v with
  | record fields => cases other
  | sequence items =>
    obtain ⟨_, -, _, -, i, rfl⟩ := mem_leaves_sequence mem
    cases first
    rfl
  | scalar | file | unsupported =>
    cases List.mem_singleton.mp mem
    cases first

theorem WellNamed.legible {v : Value} (named : v.WellNamed) : ∀ l ∈ v.leaves, l.1.Legible := by
  induction named with
  | scalar | file | unsupported =>
    intro l mem
    cases List.mem_singleton.mp mem
    exact KeyPath.legible_nil
  | sequence _ ih =>
    intro l mem
    obtain ⟨v, item, m, inside, i, rfl⟩ := mem_leaves_sequence mem
    exact (ih v item m inside).index i
  | record _ names flat _ ih =>
    intro l mem
    obtain ⟨f, field, m, inside, rfl⟩ := mem_leaves_record mem
    have apart := head_of_not_record (flat f field) m inside
    exact (ih f field m inside).field (names f field) apart

theorem WellNamed.nodup_keys {v : Value} (named : v.WellNamed) :
    (v.leaves.map fun l => l.1.render).Nodup := by
  have keys : ((v.leaves.map Prod.fst).map KeyPath.render).Nodup := by
    refine named.nodup_paths.map_on ?_
    intro p hp q hq same
    obtain ⟨l, mem, rfl⟩ := List.mem_map.mp hp
    obtain ⟨m, mem', rfl⟩ := List.mem_map.mp hq
    exact KeyPath.render_injective (named.legible l mem) (named.legible m mem') same
  rwa [List.map_map] at keys

end Value

/-! ## Names in bodies -/

/-- What is made of some members of a list, each under the name of its member, has names from those
of the list. -/
theorem names_sublist {α β γ : Type} {f : α → Option β} {name : β → γ} {key : α → γ} {xs : List α}
    (named : ∀ x ∈ xs, ∀ y, f x = some y → name y = key x) :
    ((xs.filterMap f).map name).Sublist (xs.map key) := by
  induction xs with
  | nil => exact .slnil
  | cons x xs ih =>
    have later := ih fun z mem => named z (List.mem_cons_of_mem x mem)
    cases made : f x with
    | none =>
      rw [List.filterMap_cons_none made]
      exact later.cons _
    | some y =>
      rw [List.filterMap_cons_some made, List.map_cons, named x List.mem_cons_self y made]
      exact later.cons_cons _

theorem Form.nodup_names {v : Value} (named : v.WellNamed) : ((pairs v).map Prod.fst).Nodup := by
  refine List.Sublist.nodup (names_sublist ?_) named.nodup_keys
  rintro ⟨path, leaf⟩ - p made
  cases leaf with
  | scalar text =>
    cases made
    rfl
  | file | unsupported => cases made

theorem Multipart.name_of_partOf {s : Segment} {path : KeyPath} {leaf : Leaf} {p : Part}
    (made : partOf (s :: path, leaf) = some p) : p.name = KeyPath.render (s :: path) := by
  cases leaf with
  | scalar | file =>
    cases made
    rfl
  | unsupported => cases made

/-- A file that is the whole document has a name of its own, but then it is the only part. -/
theorem Multipart.nodup_names {v : Value} (named : v.WellNamed) :
    ((parts v).map (·.name)).Nodup := by
  cases v with
  | scalar | file => exact List.nodup_singleton _
  | unsupported => exact List.nodup_nil
  | sequence items =>
    refine List.Sublist.nodup (names_sublist ?_) named.nodup_keys
    intro l mem p made
    obtain ⟨_, -, m, -, i, rfl⟩ := Value.mem_leaves_sequence mem
    exact name_of_partOf made
  | record fields =>
    refine List.Sublist.nodup (names_sublist ?_) named.nodup_keys
    intro l mem p made
    obtain ⟨f, -, m, -, rfl⟩ := Value.mem_leaves_record mem
    exact name_of_partOf made

/-- Paths that can be read have different keys. So in a document whose records name their fields well,
no two leaves have the same key, whatever sink they are handed to, no two pairs of a form body have
the same name, and no two parts of a multipart body. -/
theorem keys_tell_leaves_apart :
    (∀ p q : KeyPath, p.Legible → q.Legible → p.render = q.render → p = q) ∧
    ∀ v : Value, v.WellNamed →
      (v.leaves.map fun l => l.1.render).Nodup ∧
      (∀ {σ : Type} (sink : Sink σ) (start : σ),
        ((sink.logged.walk v (start, [])).2.2.map fun call => call.1.render).Nodup) ∧
      (((Form.pairs v).map Prod.fst).Nodup ∧
        ∀ body, Form.encode v = .ok body → body.toList = Form.joined (Form.pairs v)) ∧
      ((Multipart.parts v).map (·.name)).Nodup ∧
        ∀ b body, Multipart.encode b v = .ok body →
          body = ((Multipart.parts v).map fun p =>
            Multipart.delimiter b ++ Multipart.frame p).flatten ++ Multipart.closing b := by
  refine ⟨fun p q => KeyPath.render_injective, ?_⟩
  intro v named
  refine ⟨named.nodup_keys, ?_, ⟨Form.nodup_names named, ?_⟩, Multipart.nodup_names named, ?_⟩
  · intro σ sink start
    rw [Sink.walk_eq_feed, Sink.logged_feed, List.nil_append]
    have asked := (sink.feed_calls_prefix v.leaves start).sublist
    exact (asked.map _).nodup named.nodup_keys
  · intro body written
    exact (encode_of_form written ⟨""⟩).1
  · intro b body written
    exact Multipart.body_lines written

private def upload : FilePart := { fieldName := "f", fileName := "a.txt", bytes := [] }

private def album : Value :=
  .record [("a", .sequence [.file upload, .file upload, .null]), ("a]0", .scalar "1"),
    ("0", .sequence [.sequence [.null], .record [("a", .null), ("1]a", .sequence [.null])]])]

/-- Items of a sequence, names with digits and closing brackets, and records within sequences. -/
theorem keys_tell_leaves_apart_album :
    (Multipart.parts album).map (·.name) =
        ["a[0]", "a[1]", "a[2]", "a]0", "0[0][0]", "0[1]a", "0[1]1]a[0]"] ∧
      ((Multipart.parts album).map (·.name)).Nodup := by
  have named : album.WellNamed := by
    simp [album, IsName, Value.isRecord, Value.null]
  have names : (Multipart.parts album).map (·.name) =
      ["a[0]", "a[1]", "a[2]", "a]0", "0[0][0]", "0[1]a", "0[1]1]a[0]"] := by decide
  exact ⟨names, (keys_tell_leaves_apart.2 album named).2.2.2.1⟩

end Courier
