import Courier.Http.MediaType
import Courier.Proofs.Text.Cut
/-!
How a parameter of a media type is read.

A value that is not quoted is read up to the first character that no token holds, and a quoted one is
always longer than what it stands for. So of all texts that can be put behind the `=` as they are, the
tokens and no others are read back: `parameter?_first_iff` is the main result.
-/

namespace Courier.MediaType

/-- Text that can be a value without quotes. -/
def IsToken (cs : List Char) : Prop := cs ≠ [] ∧ ∀ c ∈ cs, isTokenChar c = true

instance (cs : List Char) : Decidable (IsToken cs) :=
  decidable_of_iff ((!cs.isEmpty && cs.all isTokenChar) = true) (by simp [IsToken])

/-- Quotes and escapes are not a part of what is read. -/
theorem readQuoted_length {read cs value rest : List Char}
    (h : readQuoted read cs = some (value, rest)) :
    value.length + rest.length < read.length + cs.length := by
  fun_induction readQuoted read cs with
  | case1 read => cases h
  | case2 read rest' =>
    cases h
    simp
  | case3 read quote => cases h
  | case4 read d rest' quote ih =>
    have shorter := ih h
    simp only [List.length_cons] at shorter ⊢
    omega
  | case5 read c rest' quote escape ih =>
    have shorter := ih h
    simp only [List.length_cons] at shorter ⊢
    omega

theorem takeWhile_token {cs : List Char} (token : IsToken cs) (rest : List Char)
    (ends : ∀ c ∈ rest.head?, isTokenChar c = false) :
    (cs ++ rest).takeWhile isTokenChar = cs ∧ (cs ++ rest).dropWhile isTokenChar = rest := by
  rw [List.takeWhile_append_of_pos token.2, List.dropWhile_append_of_pos token.2]
  cases rest with
  | nil => simp
  | cons c rest =>
    have stop := ends c rfl
    simp [stop]

theorem readValue_of_unquoted {cs : List Char} (unquoted : cs.head? ≠ some '"') :
    readValue cs =
      if (cs.takeWhile isTokenChar).isEmpty then none
      else some (cs.takeWhile isTokenChar, cs.dropWhile isTokenChar) := by
  unfold readValue
  split
  · exact absurd rfl unquoted
  · rfl

theorem readValue_token {cs : List Char} (token : IsToken cs) : readValue cs = some (cs, []) := by
  have unquoted : cs.head? ≠ some '"' := by
    intro quote
    have odd := token.2 '"' (List.mem_of_mem_head? quote)
    exact absurd odd (by decide)
  obtain ⟨taken, dropped⟩ := takeWhile_token token [] nofun
  rw [List.append_nil] at taken dropped
  rw [readValue_of_unquoted unquoted, taken, dropped]
  simp [token.1]

/-- Only a token is read as itself. -/
theorem isToken_of_readValue {cs rest : List Char} (h : readValue cs = some (cs, rest)) :
    IsToken cs := by
  cases cs with
  | nil => cases h
  | cons c inside =>
    by_cases quoted : c = '"'
    · subst quoted
      have shorter :=
        readQuoted_length (show readQuoted [] inside = some ('"' :: inside, rest) from h)
      simp only [List.length_cons, List.length_nil] at shorter
      omega
    · rw [readValue_of_unquoted (by simpa using quoted)] at h
      split at h
      · cases h
      · simp only [Option.some.injEq, Prod.mk.injEq] at h
        refine ⟨List.cons_ne_nil c inside, ?_⟩
        intro d mem
        rw [← h.1] at mem
        exact List.all_eq_true.mp List.all_takeWhile d mem

/-- What comes of the first parameter, if it has the name that is asked for. -/
theorem findParameter_first {front key value : List Char} (plain : ';' ∉ front)
    (token : IsToken key) (lower : key.map Char.toLower = key) (bound : Nat) :
    findParameter key (bound + 1) (front ++ ';' :: ' ' :: (key ++ '=' :: value)) =
      (readValue value).bind fun read => if endsValue read.2 then some read.1 else none := by
  have cut : Text.cut? [';'] (front ++ ';' :: ' ' :: (key ++ '=' :: value)) =
      some (front, ' ' :: (key ++ '=' :: value)) := Text.cut?_of_not_mem plain
  have blank : (' ' :: (key ++ '=' :: value)).dropWhile isBlank = key ++ '=' :: value := by
    obtain ⟨c, rest, rfl⟩ := List.exists_cons_of_ne_nil token.1
    have solid : ¬ isBlank c = true := by
      intro blank
      simp only [isBlank, Bool.or_eq_true, beq_iff_eq] at blank
      have first := token.2 c List.mem_cons_self
      obtain rfl | rfl := blank
      · exact absurd first (by decide)
      · exact absurd first (by decide)
    rw [List.cons_append, List.dropWhile_cons_of_pos (by decide), List.dropWhile_cons_of_neg solid]
  have stop : ∀ c ∈ ('=' :: value).head?, isTokenChar c = false := by
    rintro c ⟨⟩
    decide
  obtain ⟨taken, dropped⟩ := takeWhile_token token ('=' :: value) stop
  have behind : Text.after? ['='] ('=' :: value) = some value := Text.after?_append ['='] value
  simp only [findParameter, cut, Option.bind_eq_bind, Option.bind_some, blank, taken, dropped,
    behind, lower, if_true]
  cases readValue value with
  | none => rfl
  | some read =>
    cases ends : endsValue read.2 with
    | false => simp [ends]
    | true => simp [ends]

/-- A text that is put behind the `=` as it is, as the value of the first parameter, is read back if
and only if it is a token. -/
theorem parameter?_first_iff {front key : List Char} (plain : ';' ∉ front) (token : IsToken key)
    (lower : key.map Char.toLower = key) (value : List Char) :
    parameter? (String.ofList key) (String.ofList (front ++ ';' :: ' ' :: (key ++ '=' :: value))) =
      some (String.ofList value) ↔ IsToken value := by
  rw [parameter?, String.toList_ofList, String.toList_ofList,
    findParameter_first plain token lower]
  constructor
  · intro h
    cases read : readValue value with
    | none => simp [read] at h
    | some r =>
      obtain ⟨text, rest⟩ := r
      rw [read, Option.bind_some] at h
      split at h
      · simp only [Option.map_some, Option.some.injEq, String.ofList_inj] at h
        rw [h] at read
        exact isToken_of_readValue read
      · cases h
  · intro valued
    rw [readValue_token valued]
    rfl

end Courier.MediaType
