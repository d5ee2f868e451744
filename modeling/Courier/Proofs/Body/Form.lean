import Courier.Body.Form
import Courier.Proofs.Body.Walk
import Courier.Proofs.Text.Percent
/-!
Form bodies are uniquely decodable.

The text written so far is always the pieces of the pairs handed over so far, joined by `&`. A piece
is never empty and holds no `&`, and an escaped value holds no `=`, so the reader finds every pair
again. `form_uniquely_decodable` is the main result.
-/

namespace Courier.Form

/-- The key and text that a scalar leaf is written with. No other leaf fits a form. -/
def pairOf : KeyPath × Leaf → Option (String × String)
  | (path, .scalar text) => some (path.render, text)
  | (_, .file _) => none
  | (_, .unsupported _) => none

def pairs (v : Value) : List (String × String) := v.leaves.filterMap pairOf

/-- A form can hold the document and its keys keep clear of the separator. -/
structure Fits (v : Value) : Prop where
  scalars : ∀ l ∈ v.leaves, (pairOf l).isSome
  keys : ∀ l ∈ v.leaves, '&' ∉ l.1.render.toList

def piece (p : String × String) : List Char := p.1.toList ++ '=' :: (encodeText p.2).toList

theorem piece_ne_nil (p : String × String) : piece p ≠ [] := by
  simp [piece]

/-! ## One pair -/

/-- An escaped value holds no delimiter. -/
theorem encodeText_plain {text : String} {c : Char} (h : c ∈ (encodeText text).toList) :
    c ≠ '&' ∧ c ≠ '=' := by
  obtain rfl | ⟨b, hb, rfl⟩ := Percent.mem_encode h
  · decide
  · have alnum : Percent.isAlphanumeric b = true := hb.elim id id
    have checked := forall_ascii_byte (P := fun b => Percent.isAlphanumeric b = true →
      Char.ofNat b.toNat ≠ '&' ∧ Char.ofNat b.toNat ≠ '=') (by decide)
      (Percent.isAlphanumeric_ascii alnum)
    exact checked alnum

theorem separator_not_mem_piece {p : String × String} (h : '&' ∉ p.1.toList) : '&' ∉ piece p := by
  intro member
  simp only [piece, List.mem_append, List.mem_cons] at member
  obtain key | mark | value := member
  · exact h key
  · exact absurd mark (by decide)
  · exact (encodeText_plain value).1 rfl

/-- A pair is told apart at its last `=`, for the value has none. -/
theorem decodePair?_piece (p : String × String) : decodePair? (piece p) = some p := by
  obtain ⟨key, text⟩ := p
  have value : ∀ c ∈ (encodeText text).toList.reverse, (c != '=') = true := by
    intro c hc
    simpa using (encodeText_plain (List.mem_reverse.mp hc)).2
  have flipped : (piece (key, text)).reverse =
      (encodeText text).toList.reverse ++ '=' :: key.toList.reverse := by
    simp [piece]
  have rest : (piece (key, text)).reverse.dropWhile (· != '=') = '=' :: key.toList.reverse := by
    rw [flipped, List.dropWhile_append_of_pos value]
    rfl
  have front : (piece (key, text)).reverse.takeWhile (· != '=') =
      (encodeText text).toList.reverse := by
    rw [flipped, List.takeWhile_append_of_pos value]
    simp
  have read : Percent.decode? (encodeText text) = some text :=
    Percent.decode?_encode Percent.plain_isAlphanumeric text
  simp [decodePair?, rest, front, read]

/-! ## The whole body -/

def joined (ps : List (String × String)) : List Char := ['&'].intercalate (ps.map piece)

theorem joined_concat {ps : List (String × String)} (h : ps ≠ []) (p : String × String) :
    joined (ps ++ [p]) = joined ps ++ '&' :: piece p := by
  induction ps with
  | nil => exact absurd rfl h
  | cons q ps ih =>
    cases ps with
    | nil => simp [joined]
    | cons r ps =>
      have tail := ih (by simp)
      simp only [joined, List.cons_append, List.map_cons, List.intercalate_cons_cons] at tail ⊢
      rw [tail]
      simp

theorem joined_ne_nil {ps : List (String × String)} (h : ps ≠ []) : joined ps ≠ [] := by
  obtain ⟨ps, p, rfl⟩ := List.eq_nil_or_concat ps |>.resolve_left h
  cases ps with
  | nil => simpa [joined] using piece_ne_nil p
  | cons q ps =>
    rw [List.concat_eq_append, joined_concat (by simp)]
    simp

/-- Writing a pair keeps the body joined: the separator stands exactly when a pair stands before. -/
theorem writePair_joined {out : String} {ps : List (String × String)}
    (h : out.toList = joined ps) (p : String × String) :
    (writePair out p.1 p.2).toList = joined (ps ++ [p]) := by
  by_cases empty : ps = []
  · subst empty
    have none : out = "" := String.toList_eq_nil_iff.mp h
    subst none
    simp [writePair, joined, piece]
  · have some : out.isEmpty = false := by
      rw [Bool.eq_false_iff, ne_eq, String.isEmpty_iff, ← String.toList_eq_nil_iff, h]
      exact joined_ne_nil empty
    rw [joined_concat empty, ← h]
    simp [writePair, piece, some]

theorem feed_joined {leaves : List (KeyPath × Leaf)} (scalars : ∀ l ∈ leaves, (pairOf l).isSome)
    {out : String} {ps : List (String × String)} (h : out.toList = joined ps) :
    (sink.feed leaves out).result = .ok () ∧
      (sink.feed leaves out).state.toList = joined (ps ++ leaves.filterMap pairOf) := by
  induction leaves generalizing out ps with
  | nil => simpa [Sink.feed] using h
  | cons leaf rest ih =>
    obtain ⟨path, leaf⟩ := leaf
    cases leaf with
    | file part => exact absurd (scalars _ List.mem_cons_self) (by simp [pairOf])
    | unsupported typeName => exact absurd (scalars _ List.mem_cons_self) (by simp [pairOf])
    | scalar text =>
      have step := writePair_joined h (path.render, text)
      have later := ih (fun l hl => scalars l (List.mem_cons_of_mem _ hl)) step
      rw [List.append_assoc] at later
      exact later

theorem encode_joined {v : Value} (scalars : ∀ l ∈ v.leaves, (pairOf l).isSome) :
    encode v = .ok (String.ofList (joined (pairs v))) := by
  have run := feed_joined scalars (show "".toList = joined [] from rfl)
  rw [List.nil_append] at run
  rw [encode, Sink.walk_eq_feed, run.1]
  simp only [pairs, ← run.2, String.ofList_toList]

theorem splitOn_joined {ps : List (String × String)} (keys : ∀ p ∈ ps, '&' ∉ p.1.toList)
    (h : ps ≠ []) : (joined ps).splitOn '&' = ps.map piece := by
  apply List.splitOn_intercalate
  · intro text ht
    obtain ⟨p, hp, rfl⟩ := List.mem_map.mp ht
    exact separator_not_mem_piece (keys p hp)
  · simpa using h

theorem mapM_decodePair? (ps : List (String × String)) :
    (ps.map piece).mapM decodePair? = some ps := by
  induction ps with
  | nil => rfl
  | cons p ps ih => simp [decodePair?_piece, ih]

theorem decode?_joined {ps : List (String × String)} (keys : ∀ p ∈ ps, '&' ∉ p.1.toList) :
    decode? (String.ofList (joined ps)) = some ps := by
  by_cases empty : ps = []
  · subst empty
    rfl
  · have some : (String.ofList (joined ps)).isEmpty = false := by
      rw [Bool.eq_false_iff, ne_eq, String.isEmpty_iff, ← String.toList_eq_nil_iff,
        String.toList_ofList]
      exact joined_ne_nil empty
    rw [decode?, some, String.toList_ofList, splitOn_joined keys empty]
    exact mapM_decodePair? ps

theorem count_joined {ps : List (String × String)} (keys : ∀ p ∈ ps, '&' ∉ p.1.toList) :
    (joined ps).count '&' = ps.length - 1 := by
  induction ps with
  | nil => rfl
  | cons p ps ih =>
    have own := separator_not_mem_piece (keys p List.mem_cons_self)
    have tail := ih fun q hq => keys q (List.mem_cons_of_mem _ hq)
    cases ps with
    | nil => simpa [joined] using List.count_eq_zero.mpr own
    | cons q ps =>
      simp only [joined, List.map_cons, List.intercalate_cons_cons, List.count_append,
        List.count_eq_zero.mpr own, List.count_singleton_self, List.length_cons] at tail ⊢
      omega

/-- No two separators meet and none stands at an end: an empty piece would lie there. -/
theorem joined_no_empty_piece {ps : List (String × String)} (keys : ∀ p ∈ ps, '&' ∉ p.1.toList)
    {before after : List Char} (h : joined ps = before ++ '&' :: after) :
    before ≠ [] ∧ after ≠ [] ∧ after.head? ≠ some '&' := by
  have some : ps ≠ [] := by
    rintro rfl
    simp [joined] at h
  have pieces := splitOn_joined keys some
  rw [h, List.splitOn_append_cons_self] at pieces
  have nonempty : [] ∉ before.splitOn '&' ++ after.splitOn '&' := by
    rw [pieces]
    intro member
    obtain ⟨p, _, hp⟩ := List.mem_map.mp member
    exact piece_ne_nil p hp
  refine ⟨?_, ?_, ?_⟩
  · rintro rfl
    simp at nonempty
  · rintro rfl
    simp at nonempty
  · intro head
    obtain ⟨rest, rfl⟩ : ∃ rest, after = '&' :: rest := by
      cases after with
      | nil => simp at head
      | cons c rest => exact ⟨rest, by simpa using head⟩
    simp [List.splitOn_cons_eq_if_modifyHead] at nonempty

theorem Fits.pair_keys {v : Value} (fits : Fits v) : ∀ p ∈ pairs v, '&' ∉ p.1.toList := by
  intro p hp
  obtain ⟨⟨path, leaf⟩, member, eq⟩ := List.mem_filterMap.mp hp
  cases leaf with
  | scalar text =>
    cases eq
    exact fits.keys _ member
  | file part => cases eq
  | unsupported typeName => cases eq

/-- A document that fits a form is written, and the reader finds its leaves again: one pair for each
leaf, in order. Separators stand between pairs only, and documents with different pairs are written
differently. -/
theorem form_uniquely_decodable {v : Value} (fits : Fits v) :
    v.leaves.map pairOf = (pairs v).map some ∧
    (∃ body, encode v = .ok body ∧ decode? body = some (pairs v) ∧
      body.toList.count '&' = v.leaves.length - 1 ∧
      ∀ before after, body.toList = before ++ '&' :: after →
        before ≠ [] ∧ after ≠ [] ∧ after.head? ≠ some '&') ∧
    ∀ w, Fits w → pairs w ≠ pairs v → encode w ≠ encode v := by
  have all := map_eq_map_filterMap fits.scalars
  have keys := fits.pair_keys
  refine ⟨all, ⟨_, encode_joined fits.scalars, decode?_joined keys, ?_, ?_⟩, ?_⟩
  · have length : v.leaves.length = (pairs v).length := by
      simpa [pairs] using congrArg List.length all
    rw [String.toList_ofList, count_joined keys, length]
  · intro before after h
    rw [String.toList_ofList] at h
    exact joined_no_empty_piece keys h
  · intro w other differ same
    rw [encode_joined other.scalars, encode_joined fits.scalars, Except.ok.injEq] at same
    have read := congrArg decode? same
    rw [decode?_joined other.pair_keys, decode?_joined keys, Option.some.injEq] at read
    exact differ read

/-- Empty keys and texts, and an `=` in a key, are told apart. -/
theorem form_uniquely_decodable_empty_names :
    (∃ body, encode (.record [("", .null), ("a=", .sequence [.scalar "é&", .null])]) = .ok body ∧
      decode? body = some [("", ""), ("a=[0]", "é&"), ("a=[1]", "")]) ∧
    encode (.record [("", .null)]) ≠
      encode (.record [("", .null), ("a=", .sequence [.scalar "é&", .null])]) := by
  have fits : Fits (.record [("", .null), ("a=", .sequence [.scalar "é&", .null])]) :=
    ⟨by decide, by decide⟩
  obtain ⟨_, ⟨body, written, read, _⟩, apart⟩ := form_uniquely_decodable fits
  exact ⟨⟨body, written, read⟩, apart _ ⟨by decide, by decide⟩ (by decide)⟩

end Courier.Form
