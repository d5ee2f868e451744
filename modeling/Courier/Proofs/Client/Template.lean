import Courier.Proofs.Client.Target
import Courier.Proofs.Text.Cut
import Mathlib.Data.List.Basic
/-!
Path templates.

A template is text with placeholders in it. Its parameters are filled in one after the other, each by
a search through all that the ones before have left. What is put in holds no brace, so after each of
them there is a template again, with the placeholders of one name turned into text
(`replaceAll_render`), and all of them together are one substitution (`fill_render`). Values have no
say in which placeholders there are: `template_filled_at_once` is the main result.
-/

namespace Courier.Target

/-- Text that neither opens nor closes a placeholder. -/
def Braceless (cs : List Char) : Prop := '\x7b' ∉ cs ∧ '\x7d' ∉ cs

instance (cs : List Char) : Decidable (Braceless cs) :=
  inferInstanceAs (Decidable (_ ∧ _))

theorem braceless_escape (value : String) : Braceless (escape value).toList :=
  ⟨not_mem_escape (by decide) value, not_mem_escape (by decide) value⟩

theorem lookup_cons_ite (p : String × String) (params : List (String × String)) (name : String) :
    (p :: params).lookup name = if name = p.1 then some p.2 else params.lookup name := by
  obtain ⟨first, value⟩ := p
  rw [List.lookup_cons]
  by_cases same : name = first
  · simp [same]
  · simp [same, beq_false_of_ne same]

/-- A part of a template: text, or a placeholder. -/
inductive Part where
  | text (cs : List Char) (plain : Braceless cs)
  | hole (name : String) (plain : Braceless name.toList) (unmarked : '?' ∉ name.toList)

namespace Part

def render : Part → List Char
  | .text cs _ => cs
  | .hole name _ _ => placeholder name

/-- A placeholder becomes the escaped value of the first parameter of its name, if there is one. -/
def fill (params : List (String × String)) : Part → Part
  | .text cs plain => .text cs plain
  | .hole name plain unmarked =>
    match params.lookup name with
    | some value => .text (escape value).toList (braceless_escape value)
    | none => .hole name plain unmarked

/-- The first parameter goes ahead of the others. -/
theorem fill_cons (p : String × String) (params : List (String × String)) (part : Part) :
    part.fill (p :: params) = (part.fill [p]).fill params := by
  cases part with
  | text cs plain => rfl
  | hole name plain unmarked =>
    by_cases same : name = p.1
    · simp [fill, lookup_cons_ite, same]
    · simp [fill, lookup_cons_ite, same]

end Part

def render (parts : List Part) : List Char := parts.flatMap Part.render

/-! ## One parameter -/

section replace

variable {p : Char} {ps new done rest : List Char}

theorem replaceFrom_skip (pattern passed : List Char) :
    replaceFrom pattern new done passed.length (passed ++ rest) =
      replaceFrom pattern new done 0 rest := by
  induction passed with
  | nil => rfl
  | cons c passed ih => exact ih

theorem replaceFrom_found :
    replaceFrom (p :: ps) new done 0 (p :: ps ++ rest) =
      replaceFrom (p :: ps) new (new.reverse ++ done) 0 rest := by
  have start : (p :: ps).isPrefixOf (p :: (ps ++ rest)) = true :=
    List.isPrefixOf_iff_prefix.mpr (List.prefix_append (p :: ps) rest)
  rw [List.cons_append, replaceFrom, if_pos start]
  exact replaceFrom_skip (p :: ps) ps

theorem replaceFrom_pass {pattern : List Char} {c : Char} (other : ¬ pattern <+: c :: rest) :
    replaceFrom pattern new done 0 (c :: rest) = replaceFrom pattern new (c :: done) 0 rest := by
  rw [replaceFrom, if_neg]
  rwa [List.isPrefixOf_iff_prefix]

/-- What holds no start of the pattern is kept. -/
theorem replaceFrom_keep {passed : List Char} (free : p ∉ passed) :
    replaceFrom (p :: ps) new done 0 (passed ++ rest) =
      replaceFrom (p :: ps) new (passed.reverse ++ done) 0 rest := by
  induction passed generalizing done with
  | nil => rfl
  | cons c passed ih =>
    have first : p ≠ c := List.ne_of_not_mem_cons free
    rw [List.cons_append, replaceFrom_pass, ih (List.not_mem_of_not_mem_cons free)]
    · simp
    · intro start
      exact first (List.cons_prefix_cons.mp start).1

end replace

/-- A placeholder is read to its closing brace, so another name does not match it. -/
theorem placeholder_matches {name other : String} (plain : Braceless name.toList)
    (plain' : Braceless other.toList) {rest : List Char}
    (start : placeholder name <+: placeholder other ++ rest) : name = other := by
  obtain ⟨more, whole⟩ := start
  simp only [placeholder, List.cons_append, List.append_assoc, List.nil_append, List.cons.injEq,
    true_and] at whole
  have names := congrArg (List.takeWhile (· != '\x7d')) whole
  rw [Text.takeWhile_bne plain.2, Text.takeWhile_bne plain'.2] at names
  exact String.toList_injective names

theorem replaceFrom_part {p : String × String} (plain : Braceless p.1.toList) (part : Part)
    (done rest : List Char) :
    replaceFrom (placeholder p.1) (escape p.2).toList done 0 (part.render ++ rest) =
      replaceFrom (placeholder p.1) (escape p.2).toList
        ((part.fill [p]).render.reverse ++ done) 0 rest := by
  cases part with
  | text cs free => exact replaceFrom_keep free.1
  | hole name free unmarked =>
    by_cases same : name = p.1
    · have filled : (Part.hole name free unmarked).fill [p] =
          .text (escape p.2).toList (braceless_escape p.2) := by
        simp [Part.fill, lookup_cons_ite, same]
      rw [filled, Part.render, Part.render, same]
      exact replaceFrom_found
    · have kept : (Part.hole name free unmarked).fill [p] = .hole name free unmarked := by
        simp [Part.fill, lookup_cons_ite, same]
      have other : ¬ placeholder p.1 <+: placeholder name ++ rest := by
        intro start
        exact same (placeholder_matches plain free start).symm
      have later : '\x7b' ∉ name.toList ++ ['\x7d'] := by
        simp only [List.mem_append, List.mem_singleton, not_or]
        exact ⟨free.1, by decide⟩
      rw [kept, Part.render]
      -- the opening brace is passed over, and there is no other in the placeholder
      calc replaceFrom (placeholder p.1) (escape p.2).toList done 0 (placeholder name ++ rest)
          = replaceFrom (placeholder p.1) (escape p.2).toList ('\x7b' :: done) 0
              (name.toList ++ ['\x7d'] ++ rest) := replaceFrom_pass other
        _ = replaceFrom (placeholder p.1) (escape p.2).toList
              ((name.toList ++ ['\x7d']).reverse ++ '\x7b' :: done) 0 rest := replaceFrom_keep later
        _ = _ := by simp [placeholder]

/-- A search for the placeholders of one name turns them into text and leaves the rest as it is. -/
theorem replaceAll_render {p : String × String} (plain : Braceless p.1.toList) (parts : List Part) :
    replaceAll (placeholder p.1) (escape p.2).toList (render parts) =
      render (parts.map (Part.fill [p])) := by
  have each (parts : List Part) (done : List Char) :
      replaceFrom (placeholder p.1) (escape p.2).toList done 0 (render parts) =
        done.reverse ++ render (parts.map (Part.fill [p])) := by
    induction parts generalizing done with
    | nil => simp [render, replaceFrom]
    | cons part parts ih =>
      have step := replaceFrom_part plain part done (render parts)
      rw [ih] at step
      simpa [render] using step
  exact each parts []

/-! ## All parameters -/

/-- Filling in the parameters one after the other is one substitution. -/
theorem fill_render {params : List (String × String)}
    (named : ∀ p ∈ params, Braceless p.1.toList) (parts : List Part) :
    fill (render parts) params = render (parts.map (Part.fill params)) := by
  induction params generalizing parts with
  | nil =>
    have same : Part.fill [] = id := by
      funext part
      cases part <;> rfl
    rw [same, List.map_id]
    rfl
  | cons p params ih =>
    have first := replaceAll_render (named p List.mem_cons_self) parts
    have later := ih (fun q mem => named q (List.mem_cons_of_mem _ mem))
    calc fill (render parts) (p :: params)
        = fill (replaceAll (placeholder p.1) (escape p.2).toList (render parts)) params := rfl
      _ = render ((parts.map (Part.fill [p])).map (Part.fill params)) := by rw [first, later]
      _ = render (parts.map (Part.fill (p :: params))) := by
        rw [List.map_map]
        congr 1
        apply List.map_congr_left
        intro part _
        exact (Part.fill_cons p params part).symm

/-! ## Placeholders that are left -/

/-- The names of the placeholders in front of the first `?`. -/
def early : List Part → List String
  | [] => []
  | .text cs _ :: rest => if '?' ∈ cs then [] else early rest
  | .hole name _ _ :: rest => name :: early rest

/-- The first placeholder in front of any `?` that no parameter fills. -/
def missing? (parts : List Part) (params : List (String × String)) : Option String :=
  (early parts).find? fun name => (params.lookup name).isNone

theorem unfilled?_text {cs : List Char} (plain : Braceless cs) (rest : List Char) :
    unfilled? (cs ++ rest) = if '?' ∈ cs then none else unfilled? rest := by
  split
  next question =>
    have before : (cs ++ rest).takeWhile (· != '?') = cs.takeWhile (· != '?') := by
      apply Uri.takeWhile_append_of_stops
      exact .inl ⟨'?', question, rfl⟩
    have unopened : '\x7b' ∉ cs.takeWhile (· != '?') := by
      intro mem
      exact plain.1 ((List.takeWhile_prefix _).subset mem)
    simp [unfilled?, before, Text.dropWhile_bne_of_not_mem unopened]
  next clear =>
    have before : (cs ++ rest).takeWhile (· != '?') = cs ++ rest.takeWhile (· != '?') :=
      List.takeWhile_append_of_pos (Text.bne_of_not_mem clear)
    rw [unfilled?, before, List.dropWhile_append_of_pos (Text.bne_of_not_mem plain.1), unfilled?]

theorem unfilled?_hole {name : String} (plain : Braceless name.toList)
    (unmarked : '?' ∉ name.toList) (rest : List Char) :
    unfilled? (placeholder name ++ rest) = some (placeholder name) := by
  have unmarked' : '?' ∉ placeholder name := by
    simp [placeholder, unmarked]
  have before : (placeholder name ++ rest).takeWhile (· != '?') =
      placeholder name ++ rest.takeWhile (· != '?') :=
    List.takeWhile_append_of_pos (Text.bne_of_not_mem unmarked')
  have inside := Text.takeWhile_bne plain.2 (rest.takeWhile (· != '?'))
  rw [unfilled?, before]
  simp [placeholder, inside]

/-- What is found is the first placeholder in front of any `?`. -/
theorem unfilled?_render (parts : List Part) :
    unfilled? (render parts) = (early parts).head?.map placeholder := by
  induction parts with
  | nil => rfl
  | cons part parts ih =>
    rw [render, List.flatMap_cons, ← render]
    cases part with
    | text cs plain =>
      rw [Part.render, unfilled?_text plain, early]
      split
      · rfl
      · exact ih
    | hole name plain unmarked =>
      rw [Part.render, unfilled?_hole plain unmarked, early]
      rfl

theorem early_fill (parts : List Part) (params : List (String × String)) :
    early (parts.map (Part.fill params)) =
      (early parts).filter fun name => (params.lookup name).isNone := by
  induction parts with
  | nil => rfl
  | cons part parts ih =>
    cases part with
    | text cs plain =>
      by_cases question : '?' ∈ cs
      · simp [Part.fill, early, question]
      · simp [Part.fill, early, question, ih]
    | hole name plain unmarked =>
      cases found : params.lookup name with
      | none => simp [Part.fill, early, found, ih]
      | some value =>
        have clear : '?' ∉ (escape value).toList := not_mem_escape (by decide) value
        simp [Part.fill, early, found, clear, ih]

theorem unfilled?_fill (parts : List Part) (params : List (String × String)) :
    unfilled? (render (parts.map (Part.fill params))) = (missing? parts params).map placeholder := by
  rw [unfilled?_render, early_fill, List.head?_filter, missing?]

/-! ## Values and order -/

theorem lookup_isNone (params : List (String × String)) (name : String) :
    (params.lookup name).isNone = !(params.map Prod.fst).contains name := by
  induction params with
  | nil => rfl
  | cons p params ih =>
    rw [lookup_cons_ite]
    by_cases same : name = p.1
    · simp [same]
    · simp [same, ih, beq_false_of_ne same]

/-- With one parameter of each name, their order does not matter. -/
theorem lookup_perm {params other : List (String × String)} (perm : params.Perm other)
    (distinct : (params.map Prod.fst).Nodup) (name : String) :
    other.lookup name = params.lookup name := by
  induction perm with
  | nil => rfl
  | cons p _ ih =>
    rw [List.map_cons, List.nodup_cons] at distinct
    simp only [lookup_cons_ite, ih distinct.2]
  | swap p q params =>
    have apart : q.1 ≠ p.1 := by
      intro same
      simp [same] at distinct
    simp only [lookup_cons_ite]
    by_cases first : name = p.1
    · simp [first, Ne.symm apart]
    · simp [first]
  | trans first _ ih ih' =>
    rw [ih' ((first.map Prod.fst).nodup_iff.mp distinct), ih distinct]

/-- The characters that give a path its structure: braces, and what ends a segment, the path or the
query. -/
def marks : List Char := ['\x7b', '\x7d', '/', '?', '#']

theorem filter_marks_escape (value : String) : (escape value).toList.filter (· ∈ marks) = [] := by
  have checked : marks.all Percent.isReservedChar = true := by decide
  rw [List.filter_eq_nil_iff]
  intro c mem mark
  have reserved := List.all_eq_true.mp checked c (of_decide_eq_true mark)
  exact not_mem_escape reserved value mem

/-- The structure of a path depends on which names there are, and not on their values. -/
theorem filter_marks_fill {params other : List (String × String)}
    (names : other.map Prod.fst = params.map Prod.fst) (parts : List Part) :
    (render (parts.map (Part.fill other))).filter (· ∈ marks) =
      (render (parts.map (Part.fill params))).filter (· ∈ marks) := by
  have each (part : Part) : (part.fill other).render.filter (· ∈ marks) =
      (part.fill params).render.filter (· ∈ marks) := by
    cases part with
    | text cs plain => rfl
    | hole name plain unmarked =>
      have both : (other.lookup name).isNone = (params.lookup name).isNone := by
        rw [lookup_isNone, lookup_isNone, names]
      cases found : params.lookup name with
      | none =>
        rw [found] at both
        rw [Part.fill, Part.fill, Option.isNone_iff_eq_none.mp both, found]
      | some value =>
        rw [found, Option.isNone_some, Option.isNone_eq_false_iff] at both
        obtain ⟨value', found'⟩ := Option.isSome_iff_exists.mp both
        simp only [Part.fill, found, found', Part.render, filter_marks_escape]
  induction parts with
  | nil => rfl
  | cons part parts ih =>
    simp only [render, List.map_cons, List.flatMap_cons, List.filter_append] at ih ⊢
    rw [each part, ih]

/-- In a template every placeholder becomes the escaped value of the first parameter of its name, all
at once. If one in front of the first `?` has none, the first of these is reported instead. What is
put in is spelled in unreserved characters and escapes and stands for the value, and no choice of
values changes the structure of the path or what is missing. With one parameter of each name their
order does not matter. -/
theorem template_filled_at_once (base : String) (parts : List Part)
    (params : List (String × String)) (named : ∀ p ∈ params, Braceless p.1.toList)
    (query : List (String × String)) :
    let path := String.ofList (render parts)
    let filled := render (parts.map (Part.fill params))
    (missing? parts params = none →
      build base path params query = .ok (addQuery (join base filled) query)) ∧
    (∀ name, missing? parts params = some name →
      build base path params query =
        .error (.missingParameter (String.ofList (placeholder name)) (String.ofList filled))) ∧
    (∀ value, Percent.Escaped (escape value).toList ∧
      Percent.decodeBytes? (escape value).toList = some (Utf8.encode value)) ∧
    (∀ other, other.map Prod.fst = params.map Prod.fst →
      missing? parts other = missing? parts params ∧
      (render (parts.map (Part.fill other))).filter (· ∈ marks) = filled.filter (· ∈ marks)) ∧
    ∀ other, params.Perm other → (params.map Prod.fst).Nodup →
      build base path other query = build base path params query := by
  intro path filled
  have whole : fill path.toList params = filled := by
    rw [String.toList_ofList, fill_render named]
  refine ⟨?_, ?_, ?_, ?_, ?_⟩
  · intro none
    simp [build, whole, filled, unfilled?_fill, none]
  · intro name first
    simp [build, whole, filled, unfilled?_fill, first]
  · intro value
    exact ⟨Percent.escaped_encode value, Percent.decodeBytes?_encode Percent.plain_isUnreserved value⟩
  · intro other names
    refine ⟨?_, filter_marks_fill names parts⟩
    simp only [missing?, lookup_isNone, names]
  · intro other perm distinct
    have same : Part.fill other = Part.fill params := by
      funext part
      cases part with
      | text cs plain => rfl
      | hole name plain unmarked => rw [Part.fill, Part.fill, lookup_perm perm distinct]
    have named' : ∀ p ∈ other, Braceless p.1.toList := fun p mem => named p (perm.mem_iff.mpr mem)
    have whole' : fill path.toList other = filled := by
      rw [String.toList_ofList, fill_render named', same]
    simp only [build, whole, whole']

private def visit : List Part :=
  [.text "/a/".toList (by decide), .hole "id" (by decide) (by decide), .text "/".toList (by decide),
    .hole "other" (by decide) (by decide), .text "?q=".toList (by decide),
    .hole "q" (by decide) (by decide)]

/-- A value that looks like another placeholder with a path and a query behind it, a second value of
one name, and a placeholder without a value behind the `?`. -/
theorem template_filled_at_once_hostile :
    build "http://host" "/a/{id}/{other}?q={q}" [("id", "{other}/?"), ("id", "2"), ("other", "é")] [] =
        .ok "http://host/a/%7Bother%7D%2F%3F/%C3%A9?q={q}" ∧
      build "http://host" "/a/{id}/{other}?q={q}" [("id", "{other}/?")] [] =
        .error (.missingParameter "{other}" "/a/%7Bother%7D%2F%3F/{other}?q={q}") := by
  have path : String.ofList (render visit) = "/a/{id}/{other}?q={q}" := by decide +kernel
  obtain ⟨whole, -⟩ := template_filled_at_once "http://host" visit
    [("id", "{other}/?"), ("id", "2"), ("other", "é")] (by decide) []
  obtain ⟨-, lacking, -⟩ := template_filled_at_once "http://host" visit
    [("id", "{other}/?")] (by decide) []
  rw [path] at whole lacking
  refine ⟨(whole (by decide +kernel)).trans ?_, (lacking "other" (by decide +kernel)).trans ?_⟩
  · decide +kernel
  · decide +kernel

end Courier.Target
