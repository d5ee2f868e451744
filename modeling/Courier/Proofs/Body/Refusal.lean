import Courier.Proofs.Body.Form
import Courier.Proofs.Body.Multipart
/-!
What the two kinds of body refuse, and how they compare.

Both bodies are written by the same walk. Whether a body refuses a leaf depends on the leaf alone, so
the first refused leaf of the document decides how the walk ends (`feed_result`). A form refuses more
leaves than a multipart body does, and what both can hold they write alike. `bodies_agree` is the
main result.
-/

namespace Courier

namespace Leaf

def isFile : Leaf → Bool
  | .file _ => true
  | _ => false

def isUnsupported : Leaf → Bool
  | .unsupported _ => true
  | _ => false

end Leaf

namespace Sink

variable {σ : Type}

/-- Which leaves the sink refuses, and with what error, whatever state it is in. -/
def Refuses (sink : Sink σ) (refusal : KeyPath × Leaf → Option EncodeError) : Prop :=
  ∀ leaf s, (sink.hand leaf s).result =
    match refusal leaf with
    | some e => .error e
    | none => .ok ()

/-- The first leaf that is refused ends the run, and without one the run ends well. -/
theorem feed_result {sink : Sink σ} {refusal : KeyPath × Leaf → Option EncodeError}
    (refuses : sink.Refuses refusal) (leaves : List (KeyPath × Leaf)) (s : σ) :
    (sink.feed leaves s).result =
      match leaves.findSome? refusal with
      | some e => .error e
      | none => .ok () := by
  induction leaves generalizing s with
  | nil => rfl
  | cons leaf rest ih =>
    have first := refuses leaf s
    rw [feed, List.findSome?_cons]
    cases refused : refusal leaf with
    | some e =>
      rw [refused] at first
      rw [Fed.followed_of_error first]
      exact first
    | none =>
      rw [refused] at first
      rw [Fed.followed_of_ok first]
      exact ih _

end Sink

/-! ## What each body refuses -/

/-- A form has no place for a file. -/
def Form.refusal? : KeyPath × Leaf → Option EncodeError
  | (_, .scalar _) => none
  | (path, .file _) => some ⟨path.render, "FilePart"⟩
  | (path, .unsupported typeName) => some ⟨path.render, typeName⟩

def Multipart.refusal? : KeyPath × Leaf → Option EncodeError
  | (_, .scalar _) => none
  | (_, .file _) => none
  | (path, .unsupported typeName) => some ⟨path.render, typeName⟩

theorem Form.sink_refuses : sink.Refuses refusal? := by
  rintro ⟨path, leaf⟩ out
  cases leaf with
  | scalar text => rfl
  | file part => rfl
  | unsupported typeName => rfl

theorem Multipart.sink_refuses (b : Boundary) : (sink b).Refuses refusal? := by
  rintro ⟨path, leaf⟩ written
  cases leaf with
  | scalar text => rfl
  | file part => rfl
  | unsupported typeName => rfl

/-- A form body fails with the refusal of the first leaf that it refuses. -/
theorem Form.encode_error_iff (v : Value) (e : EncodeError) :
    encode v = .error e ↔ v.leaves.findSome? refusal? = some e := by
  rw [encode, Sink.walk_eq_feed, Sink.feed_result sink_refuses]
  cases v.leaves.findSome? refusal? <;> simp

/-- A multipart body fails with the refusal of the first leaf that it refuses. -/
theorem Multipart.encode_error_iff (b : Boundary) (v : Value) (e : EncodeError) :
    encode b v = .error e ↔ v.leaves.findSome? refusal? = some e := by
  rw [encode, Sink.walk_eq_feed, Sink.feed_result (sink_refuses b)]
  cases v.leaves.findSome? refusal? <;> simp

/-- A body that is written refuses nothing. -/
theorem kept_of_ok {α : Type} {body : Except EncodeError α} {refusal : Option EncodeError}
    (fails : ∀ e, body = .error e ↔ refusal = some e) {a : α} (written : body = .ok a) :
    refusal = none := by
  apply Option.eq_none_iff_forall_ne_some.mpr
  intro e refused
  rw [(fails e).mpr refused] at written
  cases written

theorem Form.kept_of_encode {v : Value} {body : String} (written : encode v = .ok body) :
    v.leaves.findSome? refusal? = none :=
  kept_of_ok (encode_error_iff v) written

theorem Multipart.kept_of_encode {b : Boundary} {v : Value} {body : Bytes}
    (written : encode b v = .ok body) : v.leaves.findSome? refusal? = none :=
  kept_of_ok (encode_error_iff b v) written

/-- A document that is written is written between delimiter lines with the boundary. -/
theorem Multipart.body_lines {b : Boundary} {v : Value} {body : Bytes}
    (written : encode b v = .ok body) :
    body = ((parts v).map fun p => delimiter b ++ frame p).flatten ++ closing b := by
  have kept := kept_of_encode written
  rw [List.findSome?_eq_none_iff] at kept
  have supported : ∀ l ∈ v.leaves, (partOf l).isSome := by
    rintro ⟨path, leaf⟩ mem
    have refused := kept _ mem
    cases leaf with
    | scalar text => rfl
    | file f => cases path <;> rfl
    | unsupported typeName => cases refused
  rw [encode_framed supported, ← flatten_frames] at written
  exact (Except.ok.inj written).symm

theorem Form.refusal?_isSome (l : KeyPath × Leaf) :
    (refusal? l).isSome ↔ l.2.isUnsupported = true ∨ l.2.isFile = true := by
  obtain ⟨path, leaf⟩ := l
  cases leaf <;> simp [refusal?, Leaf.isUnsupported, Leaf.isFile]

theorem Multipart.refusal?_isSome (l : KeyPath × Leaf) :
    (refusal? l).isSome ↔ l.2.isUnsupported = true := by
  obtain ⟨path, leaf⟩ := l
  cases leaf <;> simp [refusal?, Leaf.isUnsupported]

theorem exists_findSome?_iff {α β : Type} {f : α → Option β} {xs : List α} :
    (∃ y, xs.findSome? f = some y) ↔ ∃ x ∈ xs, (f x).isSome := by
  rw [← Option.isSome_iff_exists, List.findSome?_isSome_iff]

/-! ## Where both fail -/

/-- A form that meets no unsupported leaf before this one is stopped by it, or by the first file that
comes before it. -/
theorem Form.findSome?_refusal? {before : List (KeyPath × Leaf)}
    (first : ∀ l ∈ before, l.2.isUnsupported = false) (path : KeyPath) (typeName : String)
    (after : List (KeyPath × Leaf)) :
    (before ++ (path, .unsupported typeName) :: after).findSome? refusal? =
      match before.find? (·.2.isFile) with
      | none => some ⟨path.render, typeName⟩
      | some file => some ⟨file.1.render, "FilePart"⟩ := by
  induction before with
  | nil => rfl
  | cons l before ih =>
    have later := ih fun k mem => first k (List.mem_cons_of_mem _ mem)
    obtain ⟨own, leaf⟩ := l
    cases leaf with
    | scalar text => exact later
    | file part => rfl
    | unsupported other => exact absurd (first _ List.mem_cons_self) (by simp [Leaf.isUnsupported])

theorem errors_eq_iff {b : Boundary} {v : Value} {e e' : EncodeError}
    (form : Form.encode v = .error e) (multipart : Multipart.encode b v = .error e') :
    ∃ before path typeName after,
      v.leaves = before ++ (path, .unsupported typeName) :: after ∧
      (∀ l ∈ before, l.2.isUnsupported = false) ∧
      (e = e' ↔ (∀ l ∈ before, l.2.isFile = false) ∨
        ∃ file, before.find? (·.2.isFile) = some file ∧
          file.1.render = path.render ∧ typeName = "FilePart") := by
  rw [Form.encode_error_iff] at form
  rw [Multipart.encode_error_iff] at multipart
  obtain ⟨before, ⟨path, leaf⟩, after, split, refused, first⟩ :=
    List.findSome?_eq_some_iff.mp multipart
  cases leaf with
  | scalar text => cases refused
  | file part => cases refused
  | unsupported typeName =>
    have clear : ∀ l ∈ before, l.2.isUnsupported = false := by
      intro l mem
      rw [Bool.eq_false_iff, ne_eq, ← Multipart.refusal?_isSome, first l mem]
      simp
    refine ⟨before, path, typeName, after, split, clear, ?_⟩
    have other := Form.findSome?_refusal? clear path typeName after
    rw [← split, form] at other
    cases refused
    -- a form is stopped by the first file in front of the leaf, or else by the leaf itself
    cases found : before.find? (·.2.isFile) with
    | none =>
      rw [found] at other
      cases other
      have none : ∀ l ∈ before, l.2.isFile = false := by
        intro l mem
        exact Bool.eq_false_iff.mpr (List.find?_eq_none.mp found l mem)
      exact iff_of_true rfl (.inl none)
    | some file =>
      rw [found] at other
      cases other
      rw [EncodeError.mk.injEq]
      constructor
      · rintro ⟨sameKey, sameName⟩
        exact .inr ⟨file, rfl, sameKey, sameName.symm⟩
      · rintro (none | ⟨other, same, sameKey, sameName⟩)
        · have isFile := List.find?_some found
          rw [none file (List.mem_of_find?_eq_some found)] at isFile
          cases isFile
        · cases same
          exact ⟨sameKey, sameName.symm⟩

/-! ## Where both succeed -/

theorem Form.pairOf_of_refusal? {l : KeyPath × Leaf} (kept : refusal? l = none) :
    (pairOf l).isSome ∧
      Multipart.partOf l = (pairOf l).map fun p => ⟨p.1, none, Utf8.encode p.2⟩ := by
  obtain ⟨path, leaf⟩ := l
  cases leaf with
  | scalar text => exact ⟨rfl, rfl⟩
  | file part => cases kept
  | unsupported typeName => cases kept

/-- A scalar part, byte for byte. -/
theorem Multipart.scalarPart_text (b : Boundary) (name text : String) :
    scalarPart b name text =
      Utf8.encode ("--" ++ b.text ++ "\r\nContent-Disposition: form-data; name=\"" ++ name ++
        "\"\r\n\r\n" ++ text ++ "\r\n") := by
  have line : "\"\r\n\r\n" = "\"" ++ "\r\n\r\n" := by decide
  simp only [scalarPart, openPart, line, String.append_assoc]

/-- A document that a form can hold has one scalar part in a multipart body for each pair of the
form, in the same order. -/
theorem encode_of_form {v : Value} {body : String} (written : Form.encode v = .ok body)
    (b : Boundary) :
    body.toList = Form.joined (Form.pairs v) ∧
      Multipart.encode b v =
        .ok (((Form.pairs v).map fun p => Multipart.scalarPart b p.1 p.2).flatten ++
          Multipart.closing b) := by
  have kept : ∀ l ∈ v.leaves, Form.refusal? l = none :=
    List.findSome?_eq_none_iff.mp (Form.kept_of_encode written)
  have scalars : ∀ l ∈ v.leaves, (Form.pairOf l).isSome :=
    fun l mem => (Form.pairOf_of_refusal? (kept l mem)).1
  have same : Multipart.parts v =
      (Form.pairs v).map fun p => ⟨p.1, none, Utf8.encode p.2⟩ := by
    rw [Multipart.parts, Form.pairs, List.map_filterMap]
    apply List.filterMap_congr
    intro l mem
    exact (Form.pairOf_of_refusal? (kept l mem)).2
  have supported : ∀ l ∈ v.leaves, (Multipart.partOf l).isSome := by
    intro l mem
    rw [(Form.pairOf_of_refusal? (kept l mem)).2, Option.isSome_map]
    exact scalars l mem
  constructor
  · rw [Form.encode_joined scalars] at written
    cases written
    rw [String.toList_ofList]
  · rw [Multipart.encode_framed supported, ← Multipart.flatten_frames, same, List.map_map]
    simp only [Function.comp_def, ← Multipart.scalarPart_eq]

/-- A multipart body refuses a document just for an unsupported leaf, a form also for a file, each
with the first such leaf of the document; the two errors are the same just where no file comes
before the first unsupported leaf or the first file cannot be told from it by key and name. Of a
document that a form can hold, both bodies write the same keys and texts in the same order: a pair
with its text escaped here is a scalar part with the text as it is there, and the closing mark comes
behind the last. -/
theorem bodies_agree (b : Boundary) (v : Value) :
    ((∃ e, Multipart.encode b v = .error e) ↔ ∃ l ∈ v.leaves, l.2.isUnsupported) ∧
    ((∃ e, Form.encode v = .error e) ↔ ∃ l ∈ v.leaves, l.2.isUnsupported ∨ l.2.isFile) ∧
    (∀ e, Multipart.encode b v = .error e ↔ v.leaves.findSome? Multipart.refusal? = some e) ∧
    (∀ e, Form.encode v = .error e ↔ v.leaves.findSome? Form.refusal? = some e) ∧
    (∀ e e', Form.encode v = .error e → Multipart.encode b v = .error e' →
      ∃ before path typeName after,
        v.leaves = before ++ (path, .unsupported typeName) :: after ∧
        (∀ l ∈ before, l.2.isUnsupported = false) ∧
        (e = e' ↔ (∀ l ∈ before, l.2.isFile = false) ∨
          ∃ file, before.find? (·.2.isFile) = some file ∧
            file.1.render = path.render ∧ typeName = "FilePart")) ∧
    ∀ body, Form.encode v = .ok body →
      body.toList = Form.joined (Form.pairs v) ∧
      (∀ p ∈ Form.pairs v, Percent.decode? (Form.encodeText p.2) = some p.2) ∧
      Multipart.encode b v =
        .ok (((Form.pairs v).map fun p => Utf8.encode ("--" ++ b.text ++
            "\r\nContent-Disposition: form-data; name=\"" ++ p.1 ++ "\"\r\n\r\n" ++ p.2 ++
            "\r\n")).flatten ++
          Utf8.encode ("--" ++ b.text ++ "--")) := by
  refine ⟨?_, ?_, Multipart.encode_error_iff b v, Form.encode_error_iff v,
    fun e e' => errors_eq_iff, ?_⟩
  · simp only [Multipart.encode_error_iff, exists_findSome?_iff, Multipart.refusal?_isSome]
  · simp only [Form.encode_error_iff, exists_findSome?_iff, Form.refusal?_isSome]
  · intro body written
    obtain ⟨form, multipart⟩ := encode_of_form written b
    simp only [Multipart.scalarPart_text, Multipart.closing] at multipart
    refine ⟨form, ?_, multipart⟩
    intro p _
    exact Percent.decode?_encode Percent.plain_isAlphanumeric p.2

example (part : FilePart) :
    Form.encode (.record [("a", .file part), ("a", .unsupported "FilePart")]) =
        .error ⟨"a", "FilePart"⟩ ∧
      Multipart.encode ⟨"B"⟩ (.record [("a", .file part), ("a", .unsupported "FilePart")]) =
        .error ⟨"a", "FilePart"⟩ := ⟨rfl, rfl⟩

end Courier
