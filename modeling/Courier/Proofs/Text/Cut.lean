import Courier.Text.Cut
/-!
Where a list is cut. The first occurrence of a pattern is found right behind a text that holds no
start of it, and also behind a text that holds no whole of it, provided that the first symbol of the
pattern comes in it only once: then an occurrence cannot lie across the end of the text.
-/

namespace Courier.Text

variable {α : Type} {p : α} {ps before rest : List α}

/-- A pattern whose first symbol does not come again never lies across the end of a text. -/
theorem not_prefix_across (once : p ∉ ps) {text : List α} (nonempty : text ≠ [])
    (free : ¬ p :: ps <:+: text) : ¬ p :: ps <+: text ++ (p :: ps ++ rest) := by
  intro start
  obtain whole | ⟨beyond, split⟩ :=
    List.prefix_or_prefix_of_prefix start (List.prefix_append text _)
  · exact free whole.isInfix
  · obtain ⟨x, text, rfl⟩ := List.exists_cons_of_ne_nil nonempty
    cases beyond with
    | nil =>
      rw [List.append_nil] at split
      exact free (split ▸ List.infix_refl _)
    | cons y beyond =>
      -- The part that lies over the end starts as the pattern does, and is part of its tail.
      rw [← split, List.prefix_append_right_inj, split, List.cons_append] at start
      have again : y = p := (List.cons_prefix_cons.mp start).1
      rw [List.cons_append, List.cons.injEq] at split
      exact once (by simp [← split.2, again])

variable [BEq α] [LawfulBEq α]

@[simp] theorem after?_append (pattern rest : List α) :
    after? pattern (pattern ++ rest) = some rest := by
  have h : pattern.isPrefixOf (pattern ++ rest) = true :=
    List.isPrefixOf_iff_prefix.mpr (List.prefix_append pattern rest)
  simp [after?, h]

theorem cutFrom_found (before rest : List α) :
    cutFrom (p :: ps) before (p :: ps ++ rest) = some (before.reverse, rest) := by
  have h : (p :: ps).isPrefixOf (p :: ps ++ rest) = true :=
    List.isPrefixOf_iff_prefix.mpr (List.prefix_append (p :: ps) rest)
  rw [List.cons_append] at h ⊢
  simp [cutFrom, h]

theorem cutFrom_pass {pattern : List α} {x : α} (h : ¬ pattern <+: x :: rest) :
    cutFrom pattern before (x :: rest) = cutFrom pattern (x :: before) rest := by
  have h' : pattern.isPrefixOf (x :: rest) = false := by
    rw [Bool.eq_false_iff, ne_eq, List.isPrefixOf_iff_prefix]
    exact h
  rw [cutFrom, h']
  rfl

/-- What holds no start of the pattern is passed over. -/
theorem cutFrom_skip {passed : List α} (h : p ∉ passed) :
    cutFrom (p :: ps) before (passed ++ rest) =
      cutFrom (p :: ps) (passed.reverse ++ before) rest := by
  induction passed generalizing before with
  | nil => rfl
  | cons x passed ih =>
    have first : p ≠ x := List.ne_of_not_mem_cons h
    have later : p ∉ passed := List.not_mem_of_not_mem_cons h
    rw [List.cons_append, cutFrom_pass, ih later]
    · simp
    · intro start
      exact first (List.cons_prefix_cons.mp start).1

theorem cut?_of_not_mem {passed : List α} (h : p ∉ passed) :
    cut? (p :: ps) (passed ++ (p :: ps ++ rest)) = some (passed, rest) := by
  rw [cut?, cutFrom_skip h, cutFrom_found]
  simp

theorem cutFrom_of_not_infix (once : p ∉ ps) {text : List α} (free : ¬ p :: ps <:+: text) :
    cutFrom (p :: ps) before (text ++ (p :: ps ++ rest)) = some (before.reverse ++ text, rest) := by
  induction text generalizing before with
  | nil => rw [List.nil_append, cutFrom_found, List.append_nil]
  | cons x text ih =>
    have later : ¬ p :: ps <:+: text := fun h => free (h.trans (List.suffix_cons x text).isInfix)
    rw [List.cons_append, cutFrom_pass, ih later]
    · simp
    · exact not_prefix_across once (List.cons_ne_nil x text) free

theorem cut?_of_not_infix (once : p ∉ ps) {text : List α} (free : ¬ p :: ps <:+: text) :
    cut? (p :: ps) (text ++ (p :: ps ++ rest)) = some (text, rest) := by
  rw [cut?, cutFrom_of_not_infix once free]
  rfl

/-! ## One symbol -/

/-- Text in which a symbol does not come is passed over in a search for it. -/
theorem bne_of_not_mem {m : α} {xs : List α} (none : m ∉ xs) : ∀ x ∈ xs, (x != m) = true := by
  intro x mem
  rw [bne_iff_ne]
  rintro rfl
  exact none mem

theorem takeWhile_bne {m : α} {xs : List α} (none : m ∉ xs) (rest : List α) :
    (xs ++ m :: rest).takeWhile (· != m) = xs := by
  rw [List.takeWhile_append_of_pos (bne_of_not_mem none)]
  simp

theorem dropWhile_bne {m : α} {xs : List α} (none : m ∉ xs) (rest : List α) :
    (xs ++ m :: rest).dropWhile (· != m) = m :: rest := by
  rw [List.dropWhile_append_of_pos (bne_of_not_mem none)]
  simp

theorem dropWhile_bne_of_not_mem {m : α} {xs : List α} (none : m ∉ xs) :
    xs.dropWhile (· != m) = [] := by
  have all : (xs ++ []).dropWhile (· != m) = [] :=
    List.dropWhile_append_of_pos (bne_of_not_mem none)
  rwa [List.append_nil] at all

omit [BEq α] [LawfulBEq α] in
/-- A text is parted in one way only, if a symbol does not come in the first part and nothing but that
symbol begins the second. -/
theorem parted_unique {m : α} {xs ys rest rest' : List α} (first : m ∉ xs) (first' : m ∉ ys)
    (stops : ∀ x ∈ rest.head?, x = m) (stops' : ∀ x ∈ rest'.head?, x = m)
    (same : xs ++ rest = ys ++ rest') : xs = ys ∧ rest = rest' := by
  induction xs generalizing ys with
  | nil =>
    cases ys with
    | nil => exact ⟨rfl, same⟩
    | cons y ys =>
      have begins : rest = y :: (ys ++ rest') := same
      rw [begins] at stops
      exact absurd (stops y rfl) (List.ne_of_not_mem_cons first').symm
  | cons x xs ih =>
    cases ys with
    | nil =>
      have begins : rest' = x :: (xs ++ rest) := same.symm
      rw [begins] at stops'
      exact absurd (stops' x rfl) (List.ne_of_not_mem_cons first).symm
    | cons y ys =>
      obtain ⟨rfl, tail⟩ := List.cons.inj same
      obtain ⟨rfl, rfl⟩ := ih (List.not_mem_of_not_mem_cons first)
        (List.not_mem_of_not_mem_cons first') tail
      exact ⟨rfl, rfl⟩

end Courier.Text
