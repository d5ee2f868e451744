import Courier.Client.Target
import Courier.Proofs.Text.Cut
import Courier.Proofs.Text.Slice
import Mathlib.Data.List.TakeWhile
/-!
The placeholder that is reported when a path is not filled.

`First` says which one it is: from the first opening brace in front of any `?` to the first closing
brace behind that. A search that goes by offsets in the UTF-8 form, with a cut after each of them,
finds the same one (`First.seek`), and none of its cuts fails, whatever characters stand around the
braces. `first_placeholder_found` is the main result.
-/

namespace Courier.Target

open Utf8 (spell spell_append slice? slice?_between length_spell_concat offset? offset?_none
  offset?_found)

/-- The first placeholder of a text. There is none behind a brace that is not closed. -/
inductive First (text : List Char) : Option (List Char) → Prop where
  | unopened (absent : '\x7b' ∉ text) : First text none
  | unclosed {a b : List Char} (whole : text = a ++ '\x7b' :: b) (first : '\x7b' ∉ a)
      (absent : '\x7d' ∉ b) : First text none
  | found {a inside rest : List Char} (whole : text = a ++ '\x7b' :: (inside ++ '\x7d' :: rest))
      (first : '\x7b' ∉ a) (closed : '\x7d' ∉ inside) :
      First text (some ('\x7b' :: inside ++ ['\x7d']))

/-- Some opening brace is followed by a closing brace, both in front of any `?`. -/
def Unfilled (path : List Char) : Prop :=
  ∃ a b c, path.takeWhile (· != '?') = a ++ '\x7b' :: (b ++ '\x7d' :: c)

theorem exists_first (text : List Char) : ∃ found?, First text found? := by
  by_cases opened : '\x7b' ∈ text
  · obtain ⟨a, b, rfl, first⟩ := List.eq_append_cons_of_mem opened
    by_cases closed : '\x7d' ∈ b
    · obtain ⟨inside, rest, rfl, closes⟩ := List.eq_append_cons_of_mem closed
      exact ⟨_, .found rfl first closes⟩
    · exact ⟨_, .unclosed rfl first closed⟩
  · exact ⟨_, .unopened opened⟩

theorem exists_found (a b c : List Char) :
    ∃ p, First (a ++ '\x7b' :: (b ++ '\x7d' :: c)) (some p) := by
  have opens : ∃ x y, a ++ '\x7b' :: (b ++ '\x7d' :: c) = x ++ '\x7b' :: y ∧
      '\x7b' ∉ x ∧ '\x7d' ∈ y := by
    by_cases before : '\x7b' ∈ a
    · obtain ⟨x, y, rfl, first⟩ := List.eq_append_cons_of_mem before
      exact ⟨x, y ++ '\x7b' :: (b ++ '\x7d' :: c), by simp, first, by simp⟩
    · exact ⟨a, b ++ '\x7d' :: c, rfl, before, by simp⟩
  obtain ⟨x, y, whole, first, closed⟩ := opens
  obtain ⟨inside, rest, rfl, closes⟩ := List.eq_append_cons_of_mem closed
  exact ⟨_, .found whole first closes⟩

/-! ## By characters -/

theorem First.unfilled? {path : List Char} {found? : Option (List Char)}
    (first : First (path.takeWhile (· != '?')) found?) : unfilled? path = found? := by
  cases first with
  | unopened absent => simp [Target.unfilled?, Text.dropWhile_bne_of_not_mem absent]
  | unclosed whole first absent =>
    simp [Target.unfilled?, whole, Text.dropWhile_bne first, absent]
  | @found a inside rest whole first closed =>
    have upto := Text.takeWhile_bne closed rest
    simp [Target.unfilled?, whole, Text.dropWhile_bne first, upto]

theorem unfilled?_eq_none_iff (path : List Char) : unfilled? path = none ↔ ¬ Unfilled path := by
  constructor
  · rintro nothing ⟨a, b, c, whole⟩
    obtain ⟨p, found⟩ := exists_found a b c
    rw [← whole] at found
    rw [found.unfilled?] at nothing
    cases nothing
  · intro filled
    obtain ⟨found?, first⟩ := exists_first (path.takeWhile (· != '?'))
    rw [first.unfilled?]
    cases first with
    | unopened absent => rfl
    | unclosed whole first absent => rfl
    | found whole first closed => exact absurd ⟨_, _, _, whole⟩ filled

theorem unfilled?_eq_some_iff (path p : List Char) :
    unfilled? path = some p ↔ ∃ a inside rest,
      path.takeWhile (· != '?') = a ++ p ++ rest ∧ p = '\x7b' :: inside ++ ['\x7d'] ∧
        '\x7b' ∉ a ∧ '\x7d' ∉ inside := by
  constructor
  · intro here
    obtain ⟨found?, first⟩ := exists_first (path.takeWhile (· != '?'))
    rw [first.unfilled?] at here
    subst here
    cases first with
    | @found a inside rest whole first closed =>
      exact ⟨a, inside, rest, by simp [whole], rfl, first, closed⟩
  · rintro ⟨a, inside, rest, whole, rfl, first, closed⟩
    have whole' : path.takeWhile (· != '?') = a ++ '\x7b' :: (inside ++ '\x7d' :: rest) := by
      simp [whole]
    exact (First.found whole' first closed).unfilled?

/-! ## By offsets -/

/-- The first placeholder of a text, if every cut on the way to it is possible. -/
def seek (text : Bytes) : Option (Option Bytes) :=
  match offset? '\x7b' text with
  | none => some none
  | some start => do
    let rest ← slice? text start text.length
    match offset? '\x7d' rest with
    | none => some none
    | some length => (slice? text start (start + length + 1)).map some

/-- The first placeholder in front of any `?`, if every cut on the way to it is possible. -/
def seekUnfilled (path : Bytes) : Option (Option Bytes) := do
  let before ← slice? path 0 ((offset? '?' path).getD path.length)
  seek before

/-- What stands from the first opening brace on is cut out whole and searched for the closing one. -/
theorem seek_opened {a : List Char} (first : '\x7b' ∉ a) (b : List Char) :
    seek (spell (a ++ '\x7b' :: b)) =
      match offset? '\x7d' (spell ('\x7b' :: b)) with
      | none => some none
      | some length =>
        (slice? (spell (a ++ '\x7b' :: b)) (spell a).length ((spell a).length + length + 1)).map
          some := by
  have rest := slice?_between a ('\x7b' :: b) []
  rw [List.append_nil] at rest
  rw [seek, offset?_found (by decide) first]
  simp only [rest, Option.bind_eq_bind, Option.bind_some]

theorem First.seek {text : List Char} {found? : Option (List Char)} (first : First text found?) :
    seek (spell text) = some (found?.map spell) := by
  cases first with
  | unopened absent =>
    rw [Target.seek, offset?_none (by decide) absent]
    rfl
  | @unclosed a b whole first absent =>
    have unclosed : '\x7d' ∉ '\x7b' :: b := by
      simp [absent]
    rw [whole, seek_opened first, offset?_none (by decide) unclosed]
    rfl
  | @found a inside rest whole first closed =>
    have closed' : '\x7d' ∉ '\x7b' :: inside := by
      simp [closed]
    -- one further on from where the closing brace begins is where it ends
    have last : (spell (a ++ ('\x7b' :: inside ++ ['\x7d']))).length =
        (spell a).length + (spell ('\x7b' :: inside)).length + 1 := by
      rw [← List.append_assoc, length_spell_concat (by decide), spell_append, List.length_append]
    have cut := slice?_between a ('\x7b' :: inside ++ ['\x7d']) rest
    have parts : a ++ ('\x7b' :: inside ++ ['\x7d']) ++ rest =
        a ++ ('\x7b' :: inside ++ '\x7d' :: rest) := by
      simp
    rw [last, parts] at cut
    rw [whole, seek_opened first, ← List.cons_append, offset?_found (by decide) closed' rest]
    simp only [cut, Option.map_some]

theorem seekUnfilled_spell (path : List Char) :
    seekUnfilled (spell path) = some ((unfilled? path).map spell) := by
  have cut : slice? (spell path) 0 ((offset? '?' (spell path)).getD (spell path).length) =
      some (spell (path.takeWhile (· != '?'))) := by
    by_cases mark : '?' ∈ path
    · obtain ⟨before, rest, rfl, first⟩ := List.eq_append_cons_of_mem mark
      rw [offset?_found (by decide) first, Text.takeWhile_bne first]
      exact slice?_between [] before ('?' :: rest)
    · rw [offset?_none (by decide) mark, List.takeWhile_eq_self_iff.mpr (Text.bne_of_not_mem mark)]
      have all := slice?_between [] path []
      rw [List.append_nil] at all
      exact all
  obtain ⟨found?, first⟩ := exists_first (path.takeWhile (· != '?'))
  rw [seekUnfilled, cut, first.unfilled?]
  exact first.seek

/-- The search by offsets never cuts out of range or inside a character, and finds what the search by
characters finds. That is nothing exactly if no opening brace is followed by a closing brace in front
of the first `?`, and else what stands from the first opening brace to the first closing brace behind
it. So a URL is built exactly if no such braces are left in the path. -/
theorem first_placeholder_found (path : String) :
    seekUnfilled (Utf8.encode path) =
      some ((unfilled? path.toList).map fun p => Utf8.encode (String.ofList p)) ∧
    (unfilled? path.toList = none ↔ ¬ Unfilled path.toList) ∧
    (∀ p, unfilled? path.toList = some p ↔ ∃ a inside rest,
      path.toList.takeWhile (· != '?') = a ++ p ++ rest ∧ p = '\x7b' :: inside ++ ['\x7d'] ∧
        '\x7b' ∉ a ∧ '\x7d' ∉ inside) ∧
    ∀ base template params query,
      (∃ url, build base template params query = .ok url) ↔
        ¬ Unfilled (fill template.toList params) := by
  refine ⟨?_, unfilled?_eq_none_iff path.toList, unfilled?_eq_some_iff path.toList, ?_⟩
  · have found := seekUnfilled_spell path.toList
    rw [spell, String.ofList_toList] at found
    exact found
  · intro base template params query
    rw [← unfilled?_eq_none_iff, build]
    cases unfilled? (fill template.toList params) with
    | none => simp
    | some p => simp

example : unfilled? "/é{ü{b}}?{d}".toList = some "\x7bü\x7bb\x7d".toList := by decide +kernel

end Courier.Target
