import Courier.Http.Uri
/-!
How absolute URIs are read.

A text with a scheme is cut into scheme, authority, path and query (`readFull_ok`). What is appended
behind the end of the authority changes neither scheme nor authority (`parse_append`), and path and
query are read from where the authority ends (`parse_append_tail`).
-/

namespace Courier.Uri

/-- The text has neither a query nor a fragment. -/
def Unmarked (cs : List Char) : Prop := '?' ∉ cs ∧ '#' ∉ cs

instance (cs : List Char) : Decidable (Unmarked cs) :=
  inferInstanceAs (Decidable (_ ∧ _))

theorem unmarked_append {cs more : List Char} :
    Unmarked (cs ++ more) ↔ Unmarked cs ∧ Unmarked more := by
  simp only [Unmarked, List.mem_append, not_or]
  exact and_and_and_comm

/-- The text begins with this scheme and `://`, in any case. -/
def Begins (word cs : List Char) : Prop :=
  (cs.take (word.length + 3)).map Char.toLower = word ++ [':', '/', '/']

instance (word cs : List Char) : Decidable (Begins word cs) :=
  inferInstanceAs (Decidable ((cs.take (word.length + 3)).map Char.toLower = _))

theorem splitScheme_eq (cs : List Char) :
    splitScheme cs =
      if Begins ['h', 't', 't', 'p'] cs then .ok (some "http", cs.drop 7)
      else if Begins ['h', 't', 't', 'p', 's'] cs then .ok (some "https", cs.drop 8)
      else
        match cs.dropWhile isSchemeChar with
        | ':' :: '/' :: '/' :: rest =>
          if (cs.takeWhile isSchemeChar).isEmpty && rest.isEmpty then .ok (none, cs)
          else if greatestSchemeLength < (cs.takeWhile isSchemeChar).length then
            .error .schemeTooLong
          else .ok (some (String.ofList (cs.takeWhile isSchemeChar)), rest)
        | _ => .ok (none, cs) :=
  rfl

section begins

variable {word cs more : List Char}

theorem Begins.length (h : Begins word cs) : word.length + 3 ≤ cs.length := by
  have count := congrArg List.length h
  simp only [List.length_map, List.length_take, List.length_append, List.length_cons,
    List.length_nil] at count
  omega

theorem begins_append (long : word.length + 3 ≤ cs.length) :
    Begins word (cs ++ more) ↔ Begins word cs := by
  rw [Begins, Begins, List.take_append_of_le_length long]

/-- What is appended to a text with another scheme does not make the scheme a known one: the colon
of a shorter scheme would stand inside the known one. -/
theorem begins_of_append {scheme rest : List Char} (noColon : ':' ∉ word)
    (h : Begins word (scheme ++ ':' :: '/' :: '/' :: rest ++ more)) :
    Begins word (scheme ++ ':' :: '/' :: '/' :: rest) := by
  by_cases long : word.length ≤ scheme.length
  · exact (begins_append (by simp; omega)).mp h
  · exfalso
    have short : scheme.length < word.length := Nat.lt_of_not_le long
    have colon := congrArg (fun cs => cs[scheme.length]?) h
    simp only [List.append_assoc, List.cons_append, List.getElem?_map, List.getElem?_take,
      List.getElem?_append_left short, show scheme.length < word.length + 3 by omega, if_true,
      Nat.le_refl, List.getElem?_append_right, Nat.sub_self, List.getElem?_cons_zero,
      Option.map_some] at colon
    exact noColon (List.mem_of_getElem? colon.symm)

/-- A known scheme is followed by the rest of the text, and has neither a mark in it nor a slash
before its colon. -/
theorem Begins.head {c : Char} {tail : List Char} (h : Begins (c :: tail) cs)
    (plain : c ≠ '/' ∧ Unmarked (c :: tail)) :
    Unmarked (cs.take ((c :: tail).length + 3)) ∧
      ∃ d e rest, cs.take ((c :: tail).length + 3) = d :: e :: rest ∧ d ≠ '/' := by
  have absent {m : Char} (same : m.toLower = m) (other : m ∉ c :: tail)
      (mark : m ∉ [':', '/', '/']) : m ∉ cs.take ((c :: tail).length + 3) := by
    intro mem
    have lowered : m ∈ (cs.take ((c :: tail).length + 3)).map Char.toLower :=
      List.mem_map.mpr ⟨m, mem, same⟩
    rw [h] at lowered
    exact (List.mem_append.mp lowered).elim other mark
  constructor
  · exact ⟨absent (by decide) plain.2.1 (by decide), absent (by decide) plain.2.2 (by decide)⟩
  · have long := h.length
    match cs, h, long with
    | d :: e :: rest, h, _ =>
      refine ⟨d, e, rest.take (tail.length + 2), rfl, ?_⟩
      rintro rfl
      have first := congrArg List.head? h
      exact plain.1 (Option.some.inj first).symm

end begins

/-- The cut of a text behind a scheme that is not a known one. -/
theorem takeWhile_scheme {scheme : List Char} (rest : List Char)
    (plain : ∀ c ∈ scheme, isSchemeChar c = true) :
    (scheme ++ ':' :: rest).takeWhile isSchemeChar = scheme ∧
      (scheme ++ ':' :: rest).dropWhile isSchemeChar = ':' :: rest := by
  have colon : isSchemeChar ':' = false := by decide
  constructor
  · rw [List.takeWhile_append_of_pos plain, List.takeWhile_cons, if_neg (by simp [colon]),
      List.append_nil]
  · rw [List.dropWhile_append_of_pos plain, List.dropWhile_cons, if_neg (by simp [colon])]

section unknown

variable {scheme rest : List Char}

theorem unknown_head (plain : ∀ c ∈ scheme, isSchemeChar c = true) :
    ∃ head, scheme ++ ':' :: '/' :: '/' :: rest = head ++ rest ∧ Unmarked head ∧
      ∃ c d tail, head = c :: d :: tail ∧ c ≠ '/' := by
  have absent {m : Char} (other : isSchemeChar m = false) (mark : m ∉ [':', '/', '/']) :
      m ∉ scheme ++ [':', '/', '/'] := by
    intro mem
    refine (List.mem_append.mp mem).elim ?_ mark
    intro inside
    rw [plain m inside] at other
    cases other
  refine ⟨scheme ++ [':', '/', '/'], by simp, ?_, ?_⟩
  · exact ⟨absent (by decide) (by decide), absent (by decide) (by decide)⟩
  · cases scheme with
    | nil => exact ⟨':', '/', ['/'], rfl, by decide⟩
    | cons c tail =>
      have other : c ≠ '/' := by
        rintro rfl
        exact absurd (plain '/' List.mem_cons_self) (by decide)
      cases tail with
      | nil => exact ⟨c, ':', ['/', '/'], rfl, other⟩
      | cons d tail => exact ⟨c, d, tail ++ [':', '/', '/'], rfl, other⟩

theorem splitScheme_unknown_append
    (http : ¬ Begins ['h', 't', 't', 'p'] (scheme ++ ':' :: '/' :: '/' :: rest))
    (https : ¬ Begins ['h', 't', 't', 'p', 's'] (scheme ++ ':' :: '/' :: '/' :: rest))
    (plain : ∀ c ∈ scheme, isSchemeChar c = true)
    (filled : ¬ (scheme.isEmpty && rest.isEmpty) = true)
    (short : ¬ greatestSchemeLength < scheme.length) (more : List Char) :
    splitScheme (scheme ++ ':' :: '/' :: '/' :: rest ++ more) =
      .ok (some (String.ofList scheme), rest ++ more) := by
  have split : scheme ++ ':' :: '/' :: '/' :: rest ++ more =
      scheme ++ ':' :: ('/' :: '/' :: (rest ++ more)) := by simp
  obtain ⟨take, drop⟩ := takeWhile_scheme ('/' :: '/' :: (rest ++ more)) plain
  have still : ¬ (scheme.isEmpty && (rest ++ more).isEmpty) = true := by
    intro none
    simp only [Bool.and_eq_true, List.isEmpty_iff, List.append_eq_nil_iff] at filled none
    exact filled ⟨none.1, none.2.1⟩
  rw [splitScheme_eq, if_neg fun h => http (begins_of_append (by decide) h),
    if_neg fun h => https (begins_of_append (by decide) h), split, take, drop]
  simp only [if_neg still, if_neg short]

end unknown

/-- A text that has a scheme is its scheme, with neither a mark in it nor a slash in front, and a
rest; it keeps the scheme when more is appended. -/
theorem splitScheme_some {cs rest : List Char} {s : String}
    (h : splitScheme cs = .ok (some s, rest)) :
    (∃ head, cs = head ++ rest ∧ Unmarked head ∧ ∃ c d tail, head = c :: d :: tail ∧ c ≠ '/') ∧
      ∀ more, splitScheme (cs ++ more) = .ok (some s, rest ++ more) := by
  rw [splitScheme_eq] at h
  split at h
  next http =>
    cases h
    have long : 7 ≤ cs.length := http.length
    refine ⟨⟨cs.take 7, (List.take_append_drop 7 cs).symm, http.head (by decide)⟩, fun more => ?_⟩
    rw [splitScheme_eq, if_pos ((begins_append http.length).mpr http),
      List.drop_append_of_le_length long]
  next other =>
    split at h
    next https =>
      cases h
      have long : 8 ≤ cs.length := https.length
      refine ⟨⟨cs.take 8, (List.take_append_drop 8 cs).symm, https.head (by decide)⟩,
        fun more => ?_⟩
      have still : ¬ Begins ['h', 't', 't', 'p'] (cs ++ more) :=
        fun http => other ((begins_append (by simp; omega)).mp http)
      rw [splitScheme_eq, if_neg still, if_pos ((begins_append https.length).mpr https),
        List.drop_append_of_le_length long]
    next other' =>
      split at h
      next rest' cut =>
        have plain : ∀ c ∈ cs.takeWhile isSchemeChar, isSchemeChar c = true :=
          List.all_eq_true.mp List.all_takeWhile
        have text : cs = cs.takeWhile isSchemeChar ++ ':' :: '/' :: '/' :: rest' := by
          rw [← cut, List.takeWhile_append_dropWhile]
        generalize cs.takeWhile isSchemeChar = scheme at h plain text
        subst text
        split at h
        · cases h
        next filled =>
          split at h
          · cases h
          next short =>
            cases h
            exact ⟨unknown_head plain, fun more =>
              splitScheme_unknown_append other other' plain filled short more⟩
      next => cases h

/-- A text read in full is cut into its scheme, its authority and, behind a scheme, path and
query. -/
theorem readFull_ok {cs : List Char} {u : Uri} (h : readFull cs = .ok u) :
    ∃ rest, splitScheme cs = .ok (u.scheme, rest) ∧
      u.authority = some (String.ofList (rest.takeWhile (!endsAuthority ·))) ∧
      (u.scheme.isSome → ∃ path,
        readTail (rest.dropWhile (!endsAuthority ·)) = .ok (path, u.query) ∧
          u.path = rooted path) := by
  simp only [readFull, bind, Except.bind] at h
  split at h
  · cases h
  next cut split =>
    obtain ⟨scheme, rest⟩ := cut
    simp only at h
    split at h
    · cases h
    · cases scheme with
      | none =>
        simp only at h
        split at h
        · cases h
          exact ⟨rest, split, rfl, nofun⟩
        · cases h
      | some scheme =>
        simp only at h
        split at h
        · cases h
        · split at h
          · cases h
          next tail read =>
            cases h
            exact ⟨rest, split, rfl, fun _ => ⟨tail.1, read, rfl⟩⟩

/-- A text is read in full unless it is a single character or begins with a slash, and then it has
no scheme. -/
theorem parse_ok {text : String} {u : Uri} (h : parse text = .ok u) :
    readFull text.toList = .ok u ∨
      u.scheme = none ∧ ∀ c d tail, text.toList = c :: d :: tail → c = '/' := by
  unfold parse at h
  split at h
  · cases h
  · split at h
    · cases h
    next chars =>
      cases h
      exact .inr ⟨rfl, by simp [chars]⟩
    next chars =>
      cases h
      exact .inr ⟨rfl, by simp [chars]⟩
    next chars =>
      split at h
      · cases h
      · simp only [bind, Except.bind] at h
        split at h
        · cases h
        · cases h
          exact .inr ⟨rfl, by simp [chars]⟩
    next chars =>
      simp only [bind, Except.bind] at h
      split at h
      · cases h
      · cases h
        exact .inr ⟨rfl, fun c d tail eq => by rw [chars] at eq; exact (List.cons.inj eq).1.symm⟩
    next => exact .inl h

theorem takeWhile_append_of_stops {p : Char → Bool} {rest more : List Char}
    (stops : (∃ c ∈ rest, p c = false) ∨ ∀ c ∈ more.head?, p c = false) :
    (rest ++ more).takeWhile p = rest.takeWhile p := by
  induction rest with
  | nil =>
    cases more with
    | nil => rfl
    | cons c tail =>
      have first : p c = false := stops.elim nofun fun h => h c rfl
      simp [first]
  | cons c rest ih =>
    by_cases goes : p c = true
    · have later : (∃ c ∈ rest, p c = false) ∨ ∀ c ∈ more.head?, p c = false := by
        refine stops.imp_left ?_
        rintro ⟨d, mem, stop⟩
        cases mem with
        | head => rw [goes] at stop; cases stop
        | tail _ mem => exact ⟨d, mem, stop⟩
      simp only [List.cons_append, List.takeWhile_cons, goes, if_true, ih later]
    · simp only [List.cons_append, List.takeWhile_cons, goes, if_false, Bool.false_eq_true]

theorem dropWhile_append_of_stops {p : Char → Bool} {rest more : List Char}
    (stops : (∃ c ∈ rest, p c = false) ∨ ∀ c ∈ more.head?, p c = false) :
    (rest ++ more).dropWhile p = rest.dropWhile p ++ more := by
  have whole : (rest ++ more).takeWhile p ++ (rest ++ more).dropWhile p =
      (rest ++ more).takeWhile p ++ (rest.dropWhile p ++ more) := by
    rw [List.takeWhile_append_dropWhile, takeWhile_append_of_stops stops, ← List.append_assoc,
      List.takeWhile_append_dropWhile]
  exact List.append_cancel_left whole

/-- The path ends at the first mark. -/
def pathOf (cs : List Char) : List Char := cs.takeWhile fun c => c != '?' && c != '#'

/-- The query runs from the first mark, if that is a `?`, to the next `#`. -/
def queryOf (cs : List Char) : Option (List Char) :=
  match cs.dropWhile fun c => c != '?' && c != '#' with
  | '?' :: rest => some (rest.takeWhile (· != '#'))
  | _ => none

theorem queryOf_of_question {cs rest : List Char}
    (cut : (cs.dropWhile fun c => c != '?' && c != '#') = '?' :: rest) :
    queryOf cs = some (rest.takeWhile (· != '#')) := by
  rw [queryOf, cut]
  rfl

theorem queryOf_of_no_question {cs : List Char}
    (other : ∀ rest, (cs.dropWhile fun c => c != '?' && c != '#') ≠ '?' :: rest) :
    queryOf cs = none := by
  unfold queryOf
  split
  next rest cut => exact absurd cut (other rest)
  next => rfl

theorem readTail_ok {cs : List Char} {path : String} {query : Option String}
    (h : readTail cs = .ok (path, query)) :
    path = String.ofList (pathOf cs) ∧ query = (queryOf cs).map String.ofList := by
  simp only [readTail] at h
  split at h
  · cases h
  · split at h
    next rest cut =>
      split at h
      · cases h
        exact ⟨rfl, by rw [queryOf_of_question cut]; rfl⟩
      · cases h
    next other =>
      cases h
      exact ⟨rfl, by rw [queryOf_of_no_question other]; rfl⟩

theorem readFull_absolute {cs rest : List Char} {u : Uri} (h : readFull cs = .ok u)
    (absolute : u.scheme.isSome) (split : splitScheme cs = .ok (u.scheme, rest)) :
    u.authority = some (String.ofList (rest.takeWhile (!endsAuthority ·))) ∧
      u.path = rooted (String.ofList (pathOf (rest.dropWhile (!endsAuthority ·)))) ∧
      u.query = (queryOf (rest.dropWhile (!endsAuthority ·))).map String.ofList := by
  obtain ⟨rest', split', authority, tail⟩ := readFull_ok h
  rw [split] at split'
  cases split'
  obtain ⟨path, read, same⟩ := tail absolute
  obtain ⟨rfl, query⟩ := readTail_ok read
  exact ⟨authority, same, query⟩

/-- An absolute URI with text appended to it is cut behind the same scheme. -/
theorem readFull_append {base text : String} {u v : Uri} {more : List Char}
    (hu : parse base = .ok u) (absolute : u.scheme.isSome)
    (appended : text.toList = base.toList ++ more) (hv : parse text = .ok v) :
    ∃ head rest, base.toList = head ++ rest ∧ Unmarked head ∧
      readFull base.toList = .ok u ∧ splitScheme base.toList = .ok (u.scheme, rest) ∧
      readFull text.toList = .ok v ∧ splitScheme text.toList = .ok (u.scheme, rest ++ more) := by
  have full : readFull base.toList = .ok u := by
    refine (parse_ok hu).resolve_right ?_
    rintro ⟨none, -⟩
    simp [none] at absolute
  obtain ⟨scheme, hs⟩ := Option.isSome_iff_exists.mp absolute
  obtain ⟨rest, split, -, -⟩ := readFull_ok full
  rw [hs] at split
  obtain ⟨⟨head, chars, noMark, c, d, tail, two, noSlash⟩, keeps⟩ := splitScheme_some split
  have full' : readFull text.toList = .ok v := by
    refine (parse_ok hv).resolve_right ?_
    rintro ⟨-, slash⟩
    refine noSlash (slash c d (tail ++ rest ++ more) ?_)
    simp [appended, chars, two]
  refine ⟨head, rest, chars, noMark, full, ?_, full', ?_⟩
  · rw [hs, split]
  · rw [hs, appended, keeps]

theorem unmarked_authority (rest : List Char) : Unmarked (rest.takeWhile (!endsAuthority ·)) := by
  have absent {m : Char} (mark : endsAuthority m = true) :
      m ∉ rest.takeWhile (!endsAuthority ·) := by
    intro mem
    have inside := List.all_eq_true.mp List.all_takeWhile m mem
    rw [mark] at inside
    cases inside
  exact ⟨absent (by decide), absent (by decide)⟩

/-- Where the authority has come to its end, by a `?` in the URI or by the first character of the
appended text, the appended text goes on with what stands behind the authority: path and query are
read from both together. -/
theorem parse_append_tail {base text : String} {u v : Uri} {more : List Char}
    (hu : parse base = .ok u) (absolute : u.scheme.isSome)
    (appended : text.toList = base.toList ++ more) (hv : parse text = .ok v)
    (ends : '?' ∈ base.toList ∨ ∀ c ∈ more.head?, endsAuthority c = true) :
    (v.scheme = u.scheme ∧ v.authority = u.authority) ∧
      ∃ head tail, base.toList = head ++ tail ∧ Unmarked head ∧
        u.path = rooted (String.ofList (pathOf tail)) ∧
        v.path = rooted (String.ofList (pathOf (tail ++ more))) ∧
        v.query = (queryOf (tail ++ more)).map String.ofList := by
  obtain ⟨head, rest, chars, noMark, full, split, full', split'⟩ :=
    readFull_append hu absolute appended hv
  obtain ⟨_, split'', -, -⟩ := readFull_ok full'
  have sameScheme : v.scheme = u.scheme := by
    rw [split'] at split''
    exact (Prod.mk.inj (Except.ok.inj split'')).1.symm
  obtain ⟨authority, path, -⟩ := readFull_absolute full absolute split
  obtain ⟨authority', path', query'⟩ :=
    readFull_absolute full' (sameScheme ▸ absolute) (sameScheme ▸ split')
  have stops : (∃ c ∈ rest, (!endsAuthority c) = false) ∨
      ∀ c ∈ more.head?, (!endsAuthority c) = false := by
    refine ends.imp ?_ ?_
    · intro mem
      rw [chars] at mem
      exact ⟨'?', (List.mem_append.mp mem).resolve_left noMark.1, by decide⟩
    · intro all c first
      simp [all c first]
  rw [takeWhile_append_of_stops stops] at authority'
  rw [dropWhile_append_of_stops stops] at path' query'
  refine ⟨⟨sameScheme, authority'.trans authority.symm⟩,
    head ++ rest.takeWhile (!endsAuthority ·), rest.dropWhile (!endsAuthority ·), ?_, ?_, path,
    path', query'⟩
  · rw [List.append_assoc, List.takeWhile_append_dropWhile, chars]
  · exact unmarked_append.mpr ⟨noMark, unmarked_authority rest⟩

/-- Text appended to an absolute URI leaves scheme and authority alone if the authority has come to
its end: the URI has a `?`, or the appended text begins with what ends an authority. -/
theorem parse_append {base text : String} {u v : Uri} {more : List Char}
    (hu : parse base = .ok u) (absolute : u.scheme.isSome)
    (appended : text.toList = base.toList ++ more) (hv : parse text = .ok v)
    (ends : '?' ∈ base.toList ∨ ∀ c ∈ more.head?, endsAuthority c = true) :
    v.scheme = u.scheme ∧ v.authority = u.authority :=
  (parse_append_tail hu absolute appended hv ends).1

/-! ## Marks -/

theorem Unmarked.all {cs : List Char} (plain : Unmarked cs) :
    ∀ c ∈ cs, (c != '?' && c != '#') = true := by
  intro c mem
  have question : c ≠ '?' := fun same => plain.1 (same ▸ mem)
  have fragment : c ≠ '#' := fun same => plain.2 (same ▸ mem)
  simp [question, fragment]

/-- A mark ends the path, and so does the end of the text. -/
theorem pathOf_append {cs more : List Char} (plain : Unmarked cs)
    (marked : ∀ c ∈ more.head?, c = '?' ∨ c = '#') : pathOf (cs ++ more) = cs := by
  rw [pathOf, List.takeWhile_append_of_pos plain.all]
  cases more with
  | nil => simp
  | cons c more =>
    obtain rfl | rfl := marked c rfl <;> simp

theorem pathOf_of_unmarked {cs : List Char} (plain : Unmarked cs) : pathOf cs = cs := by
  have read : pathOf (cs ++ []) = cs := pathOf_append plain (by simp)
  rwa [List.append_nil] at read

theorem pathOf_append_of_marked {cs : List Char} (marked : ¬ Unmarked cs) (more : List Char) :
    pathOf (cs ++ more) = pathOf cs := by
  apply takeWhile_append_of_stops
  left
  by_cases question : '?' ∈ cs
  · exact ⟨'?', question, by decide⟩
  · have fragment : '#' ∈ cs := Classical.byContradiction fun none => marked ⟨question, none⟩
    exact ⟨'#', fragment, by decide⟩

theorem queryOf_append_of_unmarked {cs : List Char} (plain : Unmarked cs) (more : List Char) :
    queryOf (cs ++ more) = queryOf more := by
  rw [queryOf, List.dropWhile_append_of_pos plain.all, ← queryOf]

theorem queryOf_of_unmarked {cs : List Char} (plain : Unmarked cs) : queryOf cs = none := by
  have read := queryOf_append_of_unmarked plain []
  rwa [List.append_nil] at read

theorem exists_first_mark {cs : List Char} (marked : ¬ Unmarked cs) :
    ∃ before m rest, cs = before ++ m :: rest ∧ Unmarked before ∧ (m = '?' ∨ m = '#') := by
  induction cs with
  | nil => exact absurd ⟨List.not_mem_nil, List.not_mem_nil⟩ marked
  | cons c cs ih =>
    by_cases mark : c = '?' ∨ c = '#'
    · exact ⟨[], c, cs, rfl, ⟨List.not_mem_nil, List.not_mem_nil⟩, mark⟩
    · have single : Unmarked [c] := by
        simp only [not_or] at mark
        exact ⟨by simp [Ne.symm mark.1], by simp [Ne.symm mark.2]⟩
      have later : ¬ Unmarked cs := fun plain => marked (unmarked_append.mpr ⟨single, plain⟩)
      obtain ⟨before, m, rest, rfl, plain, isMark⟩ := ih later
      exact ⟨c :: before, m, rest, rfl, unmarked_append.mpr ⟨single, plain⟩, isMark⟩

theorem queryOf_mark {before : List Char} (plain : Unmarked before) (rest : List Char) :
    queryOf (before ++ '?' :: rest) = some (rest.takeWhile (· != '#')) := by
  rw [queryOf_append_of_unmarked plain]
  rfl

theorem queryOf_mark_of_whole {before rest : List Char} (plain : Unmarked before)
    (whole : '#' ∉ rest) : queryOf (before ++ '?' :: rest) = some rest := by
  have all : ∀ c ∈ rest, (c != '#') = true := by
    intro c mem
    rw [bne_iff_ne]
    rintro rfl
    exact whole mem
  have kept : (rest ++ []).takeWhile (· != '#') = rest ++ [] := by
    rw [List.takeWhile_append_of_pos all]
    rfl
  rw [List.append_nil] at kept
  rw [queryOf_mark plain, kept]

/-- Nothing behind a fragment is part of the query. -/
theorem queryOf_append_of_fragment {cs : List Char} (fragment : '#' ∈ cs) (more : List Char) :
    queryOf (cs ++ more) = queryOf cs := by
  obtain ⟨before, m, rest, rfl, plain, rfl | rfl⟩ := exists_first_mark fun plain => plain.2 fragment
  · have later : '#' ∈ rest := by simpa [plain.2] using fragment
    rw [List.append_assoc, List.cons_append, queryOf_mark plain, queryOf_mark plain,
      takeWhile_append_of_stops (.inl ⟨'#', later, by decide⟩)]
  · rw [List.append_assoc, queryOf_append_of_unmarked plain, queryOf_append_of_unmarked plain]
    rfl

end Courier.Uri
