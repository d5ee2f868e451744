import Courier.Proofs.Client.Draft
import Courier.Proofs.Client.Target
/-!
Query pairs on their way into a request.

Pairs are escaped, so each of them is a piece of its own between two `&`, and they come last in the
URL. Whether they come behind the `?` of the path or bring their own, they are the last pieces of the
query that is read from the URL, unless the path has a fragment: then they are a part of it, and a
fragment is not sent. `query_pairs_arrive` is the main result.
-/

namespace Courier

/-- The pieces of a query between its `&`. -/
def Uri.pieces (u : Uri) : List (List Char) :=
  match u.query with
  | none => []
  | some query => query.toList.splitOn '&'

namespace Target

/-- Reads a pair: the name up to the first `=`, the value after it. -/
def readPair? (piece : List Char) : Option (String × String) :=
  match piece.dropWhile (· != '=') with
  | [] => none
  | _ :: value => do
    let name ← Percent.decode? (String.ofList (piece.takeWhile (· != '=')))
    return (name, ← Percent.decode? (String.ofList value))

/-! ## One pair -/

theorem pair_toList (p : String × String) :
    (pair p).toList = (escape p.1).toList ++ '=' :: (escape p.2).toList := by
  simp [pair]

/-- A pair holds nothing reserved but the `=` between name and value. -/
theorem not_mem_pair {m : Char} (reserved : Percent.isReservedChar m = true) (other : m ≠ '=')
    (p : String × String) : m ∉ (pair p).toList := by
  rw [pair_toList, List.mem_append, List.mem_cons, not_or, not_or]
  exact ⟨not_mem_escape reserved p.1, other, not_mem_escape reserved p.2⟩

theorem delimiter_not_mem_pair {m : Char} (mark : m ∈ delimiters) (other : m ≠ '=')
    (p : String × String) : m ∉ (pair p).toList :=
  not_mem_pair (delimiter_reserved mark) other p

theorem readPair?_pair (p : String × String) : readPair? (pair p).toList = some p := by
  have name : '=' ∉ (escape p.1).toList := delimiter_not_mem_escape (by decide) p.1
  have front : (pair p).toList.takeWhile (· != '=') = (escape p.1).toList := by
    rw [pair_toList, Text.takeWhile_bne name]
  have rest : (pair p).toList.dropWhile (· != '=') = '=' :: (escape p.2).toList := by
    rw [pair_toList, Text.dropWhile_bne name]
  have read (text : String) : Percent.decode? (escape text) = some text :=
    Percent.decode?_encode Percent.plain_isUnreserved text
  simp [readPair?, front, rest, read]

theorem mapM_readPair? (query : List (String × String)) :
    (query.map fun p => (pair p).toList).mapM readPair? = some query := by
  induction query with
  | nil => rfl
  | cons p query ih => simp [readPair?_pair, ih]

/-! ## All pairs -/

theorem queried_cons (mark : Char) (p : String × String) (query : List (String × String)) :
    queried mark (p :: query) =
      mark :: ['&'].intercalate ((p :: query).map fun p => (pair p).toList) := by
  induction query generalizing p with
  | nil => simp [queried]
  | cons q query ih =>
    have tail := ih q
    simp only [queried, List.cons_append, List.cons.injEq, true_and] at tail
    simpa [queried, List.intercalate_cons_cons] using tail

theorem splitOn_pairs (p : String × String) (query : List (String × String)) :
    (['&'].intercalate ((p :: query).map fun p => (pair p).toList)).splitOn '&' =
      (p :: query).map fun p => (pair p).toList := by
  apply List.splitOn_intercalate
  · intro piece mem
    obtain ⟨q, -, rfl⟩ := List.mem_map.mp mem
    exact delimiter_not_mem_pair (by decide) (by decide) q
  · simp

theorem fragment_not_mem_queried {mark : Char} (other : mark ≠ '#')
    (query : List (String × String)) : '#' ∉ queried mark query := by
  have each (p : String × String) : '#' ∉ (pair p).toList :=
    delimiter_not_mem_pair (by decide) (by decide) p
  cases query with
  | nil => simp [queried]
  | cons p query => simp [queried, each, Ne.symm other]

/-- Where the path has a query of its own, the pairs go on with it. -/
theorem queryOf_go_on {before own : List Char} (plain : Uri.Unmarked before) (whole : '#' ∉ own)
    (query : List (String × String)) :
    ∃ first, (Uri.queryOf (before ++ '?' :: own ++ queried '&' query)).map (·.splitOn '&') =
      some (first ++ query.map fun p => (pair p).toList) := by
  have rest : '#' ∉ own ++ queried '&' query := by
    rw [List.mem_append, not_or]
    exact ⟨whole, fragment_not_mem_queried (by decide) query⟩
  rw [List.append_assoc, List.cons_append, Uri.queryOf_mark_of_whole plain rest, Option.map_some]
  refine ⟨own.splitOn '&', ?_⟩
  cases query with
  | nil => simp [queried]
  | cons p query => rw [queried_cons, List.splitOn_append_cons_self, splitOn_pairs]

/-- Where the path has no query, the pairs bring the mark and are all there is. -/
theorem queryOf_begin {before : List Char} (plain : Uri.Unmarked before) (p : String × String)
    (query : List (String × String)) :
    (Uri.queryOf (before ++ queried '?' (p :: query))).map (·.splitOn '&') =
      some ((p :: query).map fun p => (pair p).toList) := by
  have whole : '#' ∉ queried '?' (p :: query) := fragment_not_mem_queried (by decide) _
  rw [queried_cons, List.mem_cons, not_or] at whole
  rw [queried_cons, Uri.queryOf_mark_of_whole plain whole.2, Option.map_some, splitOn_pairs]

/-- The pairs are the last pieces of what is read as the query, if neither the base nor the path has
a fragment. -/
theorem queryOf_tail {base behind filled : List Char} (bare : '?' ∉ base)
    (plain : Uri.Unmarked behind) (whole : '#' ∉ filled) (query : List (String × String)) :
    ∃ own, ((Uri.queryOf (behind ++ tail base filled query)).map (·.splitOn '&')).getD [] =
      own ++ query.map fun p => (pair p).toList := by
  have whole' : '#' ∉ slashed filled := by rwa [mem_slashed (by decide)]
  unfold tail
  rw [← List.append_assoc]
  by_cases question : '?' ∈ slashed filled
  · -- the first mark of the path is its `?`, as it has no fragment
    obtain ⟨before, m, own, split, plain', rfl | rfl⟩ :=
      Uri.exists_first_mark fun none => none.1 question
    · rw [if_pos (List.mem_append_right base question)]
      rw [split] at whole' ⊢
      have rest : '#' ∉ own := fun mem => whole' (by simp [mem])
      obtain ⟨first, read⟩ := queryOf_go_on (Uri.unmarked_append.mpr ⟨plain, plain'⟩) rest query
      rw [← List.append_assoc behind, read]
      exact ⟨first, rfl⟩
    · exact absurd (by simp [split]) whole'
  · -- no mark so far, so the first pair brings it
    have none : '?' ∉ base ++ slashed filled := by simp [bare, question]
    rw [if_neg none]
    have plain' := Uri.unmarked_append.mpr ⟨plain, question, whole'⟩
    refine ⟨[], ?_⟩
    cases query with
    | nil => simp [queried, Uri.queryOf_of_unmarked plain']
    | cons p query =>
      rw [queryOf_begin plain']
      rfl

theorem queryOf_slashed (path : List Char) : Uri.queryOf (slashed path) = Uri.queryOf path := by
  unfold slashed
  split
  · rfl
  · rfl
  · exact Uri.queryOf_append_of_unmarked (by decide : Uri.Unmarked ['/']) path

/-- Behind a fragment the pairs are no part of the query. -/
theorem queryOf_tail_of_fragment {base behind filled : List Char} (plain : Uri.Unmarked behind)
    (fragment : '#' ∈ filled) (query : List (String × String)) :
    Uri.queryOf (behind ++ tail base filled query) = Uri.queryOf filled := by
  have fragment' : '#' ∈ slashed filled := by rwa [mem_slashed (by decide)]
  rw [tail, Uri.queryOf_append_of_unmarked plain, Uri.queryOf_append_of_fragment fragment',
    queryOf_slashed]

end Target

namespace Client

/-- To a base URL without a query and a fragment, all pairs that the steps of a draft add arrive as
the last pieces of the query of the request, in order, and each is read as the name and the value it
was added with, unless the path has a fragment. With one the query is that of the path alone,
whatever pairs are added. -/
theorem query_pairs_arrive {config : Config} {network : Exchange} {c : Client}
    (built : config.build network = .ok c) (plain : Uri.Unmarked config.baseUrl.toList)
    {method path : String} {steps : List Draft.Step} {request : Request}
    (assembled : c.build (steps.foldl Draft.apply { method, path }) = .ok request) :
    let filled := Target.fill path.toList (steps.filterMap Draft.Step.param?)
    let added := steps.filterMap Draft.Step.pair?
    ('#' ∉ filled ∨ added = [] →
      ∃ own last, request.uri.pieces = own ++ last ∧ last.mapM Target.readPair? = some added) ∧
    ('#' ∈ filled → request.uri.query = (Uri.queryOf filled).map String.ofList) := by
  intro filled added
  have adds := Draft.foldl_adds steps { method, path }
  obtain ⟨-, base, read, absolute, -⟩ := Config.build_ok built
  obtain ⟨head, behind, split, -, -, -, query⟩ := build_behind read absolute assembled
  rw [adds.path, adds.params, adds.query, List.nil_append, List.nil_append] at query
  have plain' := (Config.build_unmarked built).mpr plain
  have clear : Uri.Unmarked behind := by
    rw [split, Uri.unmarked_append] at plain'
    exact plain'.2
  constructor
  · rintro (whole | none)
    · obtain ⟨own, last⟩ := Target.queryOf_tail plain'.1 clear whole added
      refine ⟨own, _, ?_, Target.mapM_readPair? added⟩
      rw [← last, Uri.pieces, query]
      cases Uri.queryOf (behind ++ Target.tail c.baseUrl.toList filled added) <;> simp
    · exact ⟨request.uri.pieces, [], by simp, by rw [none]; rfl⟩
  · intro fragment
    rw [query, Target.queryOf_tail_of_fragment clear fragment]

private def finder : Config := { baseUrl := "http://host/api/" }

private def finderClient : Client :=
  { baseUrl := "http://host/api", headers := .empty, timeout := none, chain := .empty,
    exchange := fun _ => .never }

private theorem finder_built : finder.build (fun _ => .never) = .ok finderClient := by
  have base : Config.trimmed finder.baseUrl = "http://host/api" := by decide +kernel
  have read : Uri.parse "http://host/api" = .ok ⟨some "http", some "host", "/api", none⟩ := by
    decide +kernel
  exact Config.build_of_parse base read (by decide) _

private def finding : List Draft.Step :=
  [.query "q" "a&b=c#d", .param "kind" "x#?", .queryOpt "page" none, .queryOpt "" (some "é")]

private def found : Request :=
  { method := "GET",
    uri := ⟨some "http", some "host", "/api/find/x%23%3F",
      some "sort=asc&q=a%26b%3Dc%23d&=%C3%A9"⟩ }

/-- A path with a query of its own, a parameter with marks in it, and pairs with every delimiter and
without a name. -/
theorem query_pairs_arrive_behind_own :
    finderClient.build (finding.foldl Draft.apply { method := "GET", path := "/find/{kind}?sort=asc" })
        = .ok found ∧
      ∃ own last, found.uri.pieces = own ++ last ∧
        last.mapM Target.readPair? = some [("q", "a&b=c#d"), ("", "é")] := by
  have drafted : finding.foldl Draft.apply { method := "GET", path := "/find/{kind}?sort=asc" } =
      { method := "GET", path := "/find/{kind}?sort=asc", params := [("kind", "x#?")],
        query := [("q", "a&b=c#d"), ("", "é")] } := by rfl
  have assembled :
      finderClient.build (finding.foldl Draft.apply
        { method := "GET", path := "/find/{kind}?sort=asc" }) = .ok found := by
    rw [drafted]
    decide +kernel
  have whole : '#' ∉ Target.fill "/find/{kind}?sort=asc".toList [("kind", "x#?")] := by
    decide +kernel
  obtain ⟨arrive, -⟩ := query_pairs_arrive finder_built (by decide) assembled
  exact ⟨assembled, arrive (.inl whole)⟩

private def lost : Request :=
  { method := "GET", uri := ⟨some "http", some "host", "/api/a", none⟩ }

/-- A pair that is added to a path with a fragment does not arrive. -/
theorem query_pair_lost_behind_fragment :
    finder.build (fun _ => .never) = .ok finderClient ∧
      Uri.Unmarked finder.baseUrl.toList ∧
      finderClient.build ([Draft.Step.query "q" "1"].foldl Draft.apply
        { method := "GET", path := "/a#top" }) = .ok lost ∧
      ¬ ∃ own last, lost.uri.pieces = own ++ last ∧
        last.mapM Target.readPair? = some [("q", "1")] := by
  have drafted : [Draft.Step.query "q" "1"].foldl Draft.apply { method := "GET", path := "/a#top" } =
      { method := "GET", path := "/a#top", query := [("q", "1")] } := by rfl
  refine ⟨finder_built, by decide, ?_, ?_⟩
  · rw [drafted]
    decide +kernel
  · rintro ⟨own, last, pieces, read⟩
    obtain ⟨-, rfl⟩ := List.append_eq_nil_iff.mp pieces.symm
    cases read

end Client

end Courier
