import Courier.Proofs.Client.Target
/-!
The path of a request.

The path of a template comes behind the path of the base URL, with one slash between them, and what
is filled in for its parameters brings no delimiter. But it is put behind the whole text of the base
URL: if that has a query or a fragment, the template becomes a part of it, and the request keeps the
path of the base. `request_path_from_base` is the main result.
-/

namespace Courier

/-! ## Filling in -/

namespace Target

/-- Replacing brings in nothing but the new text. -/
theorem mem_replaceFrom {pattern new done text : List Char} {skip : Nat} {c : Char}
    (mem : c ∈ replaceFrom pattern new done skip text) : c ∈ done ∨ c ∈ text ∨ c ∈ new := by
  induction text generalizing done skip with
  | nil =>
    rw [replaceFrom, List.mem_reverse] at mem
    exact .inl mem
  | cons d text ih =>
    cases skip with
    | succ skip =>
      have later := ih mem
      grind
    | zero =>
      rw [replaceFrom] at mem
      split at mem
      · have later := ih mem
        grind
      · have later := ih mem
        grind

theorem mem_fill {template : List Char} {params : List (String × String)} {c : Char}
    (mem : c ∈ fill template params) :
    c ∈ template ∨ ∃ p ∈ params, c ∈ (escape p.2).toList := by
  induction params generalizing template with
  | nil => exact .inl mem
  | cons p params ih =>
    obtain first | ⟨q, inside, escaped⟩ := ih mem
    · obtain none | old | new := mem_replaceFrom first
      · cases none
      · exact .inl old
      · exact .inr ⟨p, List.mem_cons_self, new⟩
    · exact .inr ⟨q, List.mem_cons_of_mem _ inside, escaped⟩

/-- A template without marks has none when it is filled in, whatever the values hold. -/
theorem unmarked_fill {template : List Char} (plain : Uri.Unmarked template)
    (params : List (String × String)) : Uri.Unmarked (fill template params) := by
  have absent {m : Char} (mark : m ∈ delimiters) (none : m ∉ template) :
      m ∉ fill template params := by
    intro mem
    obtain old | ⟨p, -, escaped⟩ := mem_fill mem
    · exact none old
    · exact delimiter_not_mem_escape mark p.2 escaped
  exact ⟨absent (by decide) plain.1, absent (by decide) plain.2⟩

theorem unmarked_slashed {path : List Char} (plain : Uri.Unmarked path) :
    Uri.Unmarked (slashed path) := by
  unfold Uri.Unmarked
  rwa [mem_slashed (by decide), mem_slashed (by decide)]

theorem queried_head (mark : Char) (query : List (String × String)) :
    ∀ c ∈ (queried mark query).head?, c = mark := by
  cases query <;> simp [queried]

/-- Without marks in front of it, the first mark of the URL is that of the query pairs. -/
theorem pathOf_tail {base behind filled : List Char} (bare : '?' ∉ base)
    (plain : Uri.Unmarked behind) (plain' : Uri.Unmarked filled)
    (query : List (String × String)) :
    Uri.pathOf (behind ++ tail base filled query) = behind ++ slashed filled := by
  have slashed' := unmarked_slashed plain'
  have none : '?' ∉ base ++ slashed filled := by simp [bare, slashed'.1]
  rw [tail, if_neg none, ← List.append_assoc]
  apply Uri.pathOf_append (Uri.unmarked_append.mpr ⟨plain, slashed'⟩)
  intro c first
  exact .inl (queried_head '?' query c first)

end Target

/-! ## Slashes at the end -/

namespace Client

namespace Config

theorem trimmed_last (url : String) : (trimmed url).toList.getLast? ≠ some '/' := by
  rw [trimmed, String.toList_ofList, List.getLast?_reverse]
  intro slash
  have stop := List.head?_dropWhile_not (· == '/') url.toList.reverse
  rw [slash] at stop
  exact absurd stop (by decide)

/-- All slashes at the end are taken, and nothing else is. -/
theorem trimmed_ofList_append {cs slashes : List Char} (last : cs.getLast? ≠ some '/')
    (all : ∀ c ∈ slashes, c = '/') : trimmed (String.ofList (cs ++ slashes)) = String.ofList cs := by
  have slash : ∀ c ∈ slashes.reverse, (c == '/') = true := by
    intro c mem
    rw [all c (List.mem_reverse.mp mem)]
    rfl
  rw [trimmed, String.toList_ofList, List.reverse_append, List.dropWhile_append_of_pos slash]
  have kept : cs.reverse.dropWhile (· == '/') = cs.reverse := by
    cases flipped : cs.reverse with
    | nil => rfl
    | cons c rest =>
      have first : cs.getLast? = some c := by rw [← List.head?_reverse, flipped]; rfl
      have other : c ≠ '/' := fun same => last (same ▸ first)
      simp [other]
  rw [kept, List.reverse_reverse]

theorem trimmed_rooted {cs slashes : List Char} (last : cs.getLast? ≠ some '/')
    (all : ∀ c ∈ slashes, c = '/') :
    trimmed (Uri.rooted (String.ofList (cs ++ slashes))) = String.ofList cs := by
  by_cases empty : cs ++ slashes = []
  · obtain ⟨rfl, rfl⟩ := List.append_eq_nil_iff.mp empty
    decide
  · have some : (String.ofList (cs ++ slashes)).isEmpty = false := by
      rw [Bool.eq_false_iff, ne_eq, String.isEmpty_iff, ← String.toList_eq_nil_iff,
        String.toList_ofList]
      exact empty
    rw [Uri.rooted, some]
    exact trimmed_ofList_append last all

theorem trimmed_rooted_self {cs : List Char} (last : cs.getLast? ≠ some '/') :
    trimmed (Uri.rooted (String.ofList cs)) = String.ofList cs := by
  have none : trimmed (Uri.rooted (String.ofList (cs ++ []))) = String.ofList cs :=
    trimmed_rooted last (by simp)
  rwa [List.append_nil] at none

variable {config : Config} {network : Exchange} {c : Client}

/-- What stands behind the authority of a base URL ends with no slash. -/
theorem behind_last (built : config.build network = .ok c) {head behind : List Char}
    (split : c.baseUrl.toList = head ++ behind) : behind.getLast? ≠ some '/' := by
  intro slash
  have last := trimmed_last config.baseUrl
  rw [(build_ok built).1] at split
  rw [split, List.getLast?_append, slash] at last
  exact last rfl

/-- The path of a base URL as it is given differs from that of the client by slashes at its end. -/
theorem given_path (built : config.build network = .ok c) {base given : Uri}
    (read : Uri.parse c.baseUrl = .ok base) (absolute : base.scheme.isSome)
    (whole : Uri.parse config.baseUrl = .ok given) :
    trimmed given.path = trimmed base.path := by
  obtain ⟨slashes, cut, all⟩ := build_slashes built
  have ended : ∀ c ∈ slashes.head?, Uri.endsAuthority c = true := by
    intro c first
    rw [all c (List.mem_of_mem_head? first)]
    decide
  obtain ⟨-, head, behind, split, -, path, path', -⟩ :=
    Uri.parse_append_tail read absolute cut whole (.inr ended)
  by_cases plain : Uri.Unmarked behind
  · have last := behind_last built split
    have other {m : Char} (mark : m ≠ '/') : m ∉ slashes := fun mem => mark (all m mem)
    have plain' : Uri.Unmarked slashes := ⟨other (by decide), other (by decide)⟩
    rw [path, path', Uri.pathOf_of_unmarked plain,
      Uri.pathOf_of_unmarked (Uri.unmarked_append.mpr ⟨plain, plain'⟩), trimmed_rooted last all,
      trimmed_rooted_self last]
  · -- the slashes belong to the query or to the fragment
    rw [path, path', Uri.pathOf_append_of_marked plain]

end Config

/-- The path of a request is that of the base URL without the slashes at its end, then the template
with its parameters filled in and a slash in front, unless it is empty or has one. That is so where
the base URL has neither a query nor a fragment; with one the path of the base is all there is. -/
theorem request_path_from_base {config : Config} {network : Exchange} {c : Client}
    (built : config.build network = .ok c) {d : Draft} {request : Request}
    (assembled : c.build d = .ok request) (plain : Uri.Unmarked d.path.toList) :
    ∃ base, Uri.parse c.baseUrl = .ok base ∧
      (∀ given, Uri.parse config.baseUrl = .ok given →
        Config.trimmed given.path = Config.trimmed base.path) ∧
      (Uri.Unmarked config.baseUrl.toList →
        request.uri.path = Uri.rooted (Config.trimmed base.path ++
          String.ofList (Target.slashed (Target.fill d.path.toList d.params)))) ∧
      (¬ Uri.Unmarked config.baseUrl.toList → request.uri.path = base.path) := by
  obtain ⟨-, base, read, absolute, -⟩ := Config.build_ok built
  obtain ⟨head, behind, split, plainHead, path, path', -⟩ := build_behind read absolute assembled
  refine ⟨base, read, fun given => Config.given_path built read absolute, ?_, ?_⟩
  · intro clear
    rw [← Config.build_unmarked built] at clear
    have clear' : Uri.Unmarked behind := by
      rw [split, Uri.unmarked_append] at clear
      exact clear.2
    rw [path', Target.pathOf_tail clear.1 clear' (Target.unmarked_fill plain d.params), path,
      Uri.pathOf_of_unmarked clear', Config.trimmed_rooted_self (Config.behind_last built split),
      String.ofList_append]
  · intro marked
    rw [← Config.build_unmarked built, split, Uri.unmarked_append] at marked
    have marked' : ¬ Uri.Unmarked behind := fun clear => marked ⟨plainHead, clear⟩
    rw [path', Uri.pathOf_append_of_marked marked', path]

private def nested : Config := { baseUrl := "http://host/api//" }

private def nestedClient : Client :=
  { baseUrl := "http://host/api", headers := .empty, timeout := none, chain := .empty,
    exchange := fun _ => .never }

private def fetched : Draft :=
  { method := "GET", path := "users/{id}", params := [("id", "a/b?#")], query := [("q", "1")] }

private def fetchedRequest : Request :=
  { method := "GET",
    uri := ⟨some "http", some "host", "/api/users/a%2Fb%3F%23", some "q=1"⟩ }

/-- A base URL with a path and two slashes too many, a template without a slash, and a value with
marks in it. -/
theorem request_path_from_base_nested :
    nestedClient.build fetched = .ok fetchedRequest ∧
      fetchedRequest.uri.path = Uri.rooted (Config.trimmed "/api" ++
        String.ofList (Target.slashed (Target.fill "users/{id}".toList [("id", "a/b?#")]))) := by
  have base : Config.trimmed nested.baseUrl = "http://host/api" := by decide +kernel
  have parsed : Uri.parse "http://host/api" = .ok ⟨some "http", some "host", "/api", none⟩ := by
    decide +kernel
  have built : nested.build (fun _ => .never) = .ok nestedClient :=
    Config.build_of_parse base parsed (by decide) _
  have assembled : nestedClient.build fetched = .ok fetchedRequest := by decide +kernel
  obtain ⟨uri, read, -, relative, -⟩ := request_path_from_base built assembled (by decide)
  cases parsed.symm.trans read
  exact ⟨assembled, relative (by decide)⟩

private def pinned : Config := { baseUrl := "http://host#x" }

private def pinnedClient : Client :=
  { baseUrl := "http://host#x", headers := .empty, timeout := none, chain := .empty,
    exchange := fun _ => .never }

private def pinnedRequest : Request :=
  { method := "GET", uri := ⟨some "http", some "host", "/", none⟩ }

/-- Behind a base URL with a fragment the path of a request is lost. -/
theorem request_path_lost_behind_fragment :
    pinned.build (fun _ => .never) = .ok pinnedClient ∧
      Uri.parse "http://host#x" = .ok ⟨some "http", some "host", "/", none⟩ ∧
      Uri.Unmarked "/users".toList ∧
      pinnedClient.build { method := "GET", path := "/users" } = .ok pinnedRequest ∧
      pinnedRequest.uri.path ≠ Uri.rooted (Config.trimmed "/" ++
        String.ofList (Target.slashed (Target.fill "/users".toList []))) := by
  have base : Config.trimmed pinned.baseUrl = "http://host#x" := by decide +kernel
  have parsed : Uri.parse "http://host#x" = .ok ⟨some "http", some "host", "/", none⟩ := by
    decide +kernel
  have built : pinned.build (fun _ => .never) = .ok pinnedClient :=
    Config.build_of_parse base parsed (by decide) _
  exact ⟨built, parsed, by decide, by decide +kernel, by decide +kernel⟩

end Client

end Courier
