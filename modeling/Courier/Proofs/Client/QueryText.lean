import Courier.Proofs.Client.Query
import Mathlib.Data.List.Forall2
/-!
Query pairs in the text of a URL.

Whatever base, path and parameters there are, pairs are put behind the URL that there is without
them, and they are told from what it holds already: the pieces behind its first `?` are those it has
of its own, and then one for each pair. `query_text_appended` is the main result. It is about the text
alone, before anyone reads it as a URI.
-/

namespace Courier.Target

/-- The pieces between the `&` of what stands behind the first `?`, if there is one. -/
def queryPieces (url : List Char) : List (List Char) :=
  match url.dropWhile (· != '?') with
  | [] => []
  | _ :: query => query.splitOn '&'

theorem queryPieces_mark {before : List Char} (unmarked : '?' ∉ before) (query : List Char) :
    queryPieces (before ++ '?' :: query) = query.splitOn '&' := by
  rw [queryPieces, Text.dropWhile_bne unmarked]

theorem queryPieces_of_not_mem {url : List Char} (unmarked : '?' ∉ url) : queryPieces url = [] := by
  rw [queryPieces, Text.dropWhile_bne_of_not_mem unmarked]

/-- The piece is cut by its only `=` into what stands for the name and what stands for the value. -/
def Spells (piece : List Char) (p : String × String) : Prop :=
  ∃ name value, piece = name ++ '=' :: value ∧ '=' ∉ name ∧ '=' ∉ value ∧
    Percent.decode? (String.ofList name) = some p.1 ∧
    Percent.decode? (String.ofList value) = some p.2

theorem pair_spells (p : String × String) : Spells (pair p).toList p := by
  have read (text : String) : Percent.decode? (String.ofList (escape text).toList) = some text := by
    rw [String.ofList_toList]
    exact Percent.decode?_encode Percent.plain_isUnreserved text
  exact ⟨_, _, pair_toList p, delimiter_not_mem_escape (by decide) p.1,
    delimiter_not_mem_escape (by decide) p.2, read p.1, read p.2⟩

/-! ## What is appended -/

/-- Whether a URL can be made does not depend on the pairs, and they come last in it. -/
theorem build_bare {base path url : String} {params query : List (String × String)}
    (built : build base path params query = .ok url) :
    ∃ bare, url = addQuery bare query ∧
      ∀ other, build base path params other = .ok (addQuery bare other) := by
  unfold build at built ⊢
  simp only at built ⊢
  split at built
  · cases built
  · cases built
    exact ⟨join base (fill path.toList params), rfl, fun other => rfl⟩

theorem queryPieces_addQuery (bare : String) (query : List (String × String)) :
    queryPieces (addQuery bare query).toList =
      queryPieces bare.toList ++ query.map fun p => (pair p).toList := by
  rw [addQuery_toList]
  cases query with
  | nil => simp [queried]
  | cons p query =>
    rw [queried_cons]
    by_cases marked : '?' ∈ bare.toList
    · -- the pairs go on with the query that there is
      obtain ⟨before, own, split, unmarked⟩ := List.eq_append_cons_of_mem marked
      rw [if_pos marked, split, List.append_assoc, List.cons_append, queryPieces_mark unmarked,
        queryPieces_mark unmarked, List.splitOn_append_cons_self, splitOn_pairs]
    · rw [if_neg marked, queryPieces_mark marked, queryPieces_of_not_mem marked, splitOn_pairs,
        List.nil_append]

theorem queried_injective {mark : Char} {query other : List (String × String)}
    (same : queried mark query = queried mark other) : query = other := by
  cases query with
  | nil =>
    cases other with
    | nil => rfl
    | cons q other => simp [queried] at same
  | cons p query =>
    cases other with
    | nil => simp [queried] at same
    | cons q other =>
      rw [queried_cons, queried_cons, List.cons.injEq] at same
      have pieces := congrArg (List.splitOn '&') same.2
      rw [splitOn_pairs, splitOn_pairs] at pieces
      have read := congrArg (List.mapM readPair?) pieces
      rw [mapM_readPair?, mapM_readPair?] at read
      exact Option.some.inj read

/-- The URL with query pairs is the one without them, then one separator, which is `?` unless there
is a `?` already, and then the pairs with `&` between them. So its pieces are those it has without the
pairs, and then one for each pair in order, which spells the name and the value of the pair and holds
no other delimiter. No other list of pairs gives the same URL. -/
theorem query_text_appended {base path url : String} {params query : List (String × String)}
    (built : build base path params query = .ok url) :
    ∃ bare, build base path params [] = .ok bare ∧
      let pieces := query.map fun p => (pair p).toList
      (query ≠ [] → url.toList =
        bare.toList ++ (if '?' ∈ bare.toList then '&' else '?') :: ['&'].intercalate pieces) ∧
      queryPieces url.toList = queryPieces bare.toList ++ pieces ∧
      pieces.Forall₂ Spells query ∧
      (∀ piece ∈ pieces, ∀ m ∈ ['?', '#', '/', ' ', '&'], m ∉ piece) ∧
      ∀ other, build base path params other = .ok url → other = query := by
  obtain ⟨bare, rfl, each⟩ := build_bare built
  refine ⟨bare, each [], ?_, queryPieces_addQuery bare query, ?_, ?_, ?_⟩
  · intro some
    obtain ⟨p, rest, rfl⟩ := List.exists_cons_of_ne_nil some
    rw [addQuery_toList, queried_cons]
  · rw [List.forall₂_map_left_iff, List.forall₂_same]
    intro p _
    exact pair_spells p
  · intro piece mem m mark
    obtain ⟨p, -, rfl⟩ := List.mem_map.mp mem
    have checked : ['?', '#', '/', ' ', '&'].all Percent.isReservedChar = true := by decide
    have other : m ≠ '=' := by
      rintro rfl
      exact absurd mark (by decide)
    exact not_mem_pair (List.all_eq_true.mp checked m mark) other p
  · intro other same
    rw [each other, Except.ok.injEq] at same
    have texts := congrArg String.toList same
    rw [addQuery_toList, addQuery_toList] at texts
    exact queried_injective (List.append_cancel_left texts)

/-- A path with an unfinished query of its own, and pairs with delimiters and without any text. -/
theorem query_text_appended_unfinished :
    build "http://host" "/find?sort=asc&" [] [("a b", "c=d&e?"), ("", "")] =
        .ok "http://host/find?sort=asc&&a%20b=c%3Dd%26e%3F&=" ∧
      queryPieces "http://host/find?sort=asc&&a%20b=c%3Dd%26e%3F&=".toList =
        ["sort=asc".toList, "".toList, "a%20b=c%3Dd%26e%3F".toList, "=".toList] ∧
      ∀ other, build "http://host" "/find?sort=asc&" [] other =
          .ok "http://host/find?sort=asc&&a%20b=c%3Dd%26e%3F&=" →
        other = [("a b", "c=d&e?"), ("", "")] := by
  have built : build "http://host" "/find?sort=asc&" [] [("a b", "c=d&e?"), ("", "")] =
      .ok "http://host/find?sort=asc&&a%20b=c%3Dd%26e%3F&=" := by decide +kernel
  have bare : build "http://host" "/find?sort=asc&" [] [] = .ok "http://host/find?sort=asc&" := by
    decide +kernel
  obtain ⟨url, without, -, pieces, -, -, only⟩ := query_text_appended built
  cases bare.symm.trans without
  refine ⟨built, pieces.trans ?_, only⟩
  decide +kernel

end Courier.Target
