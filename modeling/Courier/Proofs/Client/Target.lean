import Courier.Proofs.Client.Assembly
import Courier.Proofs.Http.Uri
import Courier.Proofs.Text.Percent
/-!
Where requests go.

The URL of a request is the base URL with something appended (`build_tail`), and what is appended
begins where the authority of the base has come to its end. So no path template, parameter or query
pair can send a request to another host: `request_stays_at_base` is the main result.
-/

namespace Courier

namespace Target

/-- The characters by which URLs and their queries are taken apart. -/
def delimiters : List Char := ['/', '?', '#', '&', '=']

/-- Reserved characters do not get through. -/
theorem not_mem_escape {m : Char} (reserved : Percent.isReservedChar m = true) (text : String) :
    m ∉ (escape text).toList := by
  intro mem
  have other := (Percent.escaped_encode text).not_reserved mem
  rw [reserved] at other
  cases other

theorem delimiter_reserved {m : Char} (mark : m ∈ delimiters) : Percent.isReservedChar m = true := by
  have checked : delimiters.all Percent.isReservedChar = true := by decide
  exact List.all_eq_true.mp checked m mark

theorem delimiter_not_mem_escape {m : Char} (mark : m ∈ delimiters) (text : String) :
    m ∉ (escape text).toList :=
  not_mem_escape (delimiter_reserved mark) text

/-- What a path adds to the base: itself, with a slash in front unless it has one or is empty. -/
def slashed : List Char → List Char
  | [] => []
  | '/' :: rest => '/' :: rest
  | cs => '/' :: cs

theorem join_toList (base : String) (path : List Char) :
    (join base path).toList = base.toList ++ slashed path := by
  unfold join slashed
  split <;> simp

theorem slashed_head (path : List Char) : ∀ c ∈ (slashed path).head?, c = '/' := by
  unfold slashed
  split <;> simp

theorem mem_slashed {m : Char} (other : m ≠ '/') (path : List Char) :
    m ∈ slashed path ↔ m ∈ path := by
  unfold slashed
  split <;> simp [other]

/-- What query pairs add to a URL: the mark in front of the first, `&` in front of the others. -/
def queried (mark : Char) : List (String × String) → List Char
  | [] => []
  | p :: rest => mark :: (pair p).toList ++ rest.flatMap fun p => '&' :: (pair p).toList

theorem addQuery_toList (url : String) (query : List (String × String)) :
    (addQuery url query).toList =
      url.toList ++ queried (if '?' ∈ url.toList then '&' else '?') query := by
  have later (pairs : List (String × String)) (url : String) :
      (pairs.foldl (fun url p => url ++ "&" ++ pair p) url).toList =
        url.toList ++ pairs.flatMap fun p => '&' :: (pair p).toList := by
    induction pairs generalizing url with
    | nil => simp
    | cons p pairs ih =>
      rw [List.foldl_cons, ih]
      simp
  cases query with
  | nil => simp [addQuery, queried]
  | cons p rest =>
    simp only [addQuery, later, queried]
    by_cases mark : '?' ∈ url.toList <;> simp [mark]

/-- What a path, with its parameters filled in, and query pairs append to a base. -/
def tail (base path : List Char) (query : List (String × String)) : List Char :=
  slashed path ++ queried (if '?' ∈ base ++ slashed path then '&' else '?') query

/-- A URL is its base and what path and query append to it. Unless the base has a query, that begins
with a character that ends an authority. -/
theorem build_tail {base path url : String} {params query : List (String × String)}
    (h : build base path params query = .ok url) :
    url.toList = base.toList ++ tail base.toList (fill path.toList params) query ∧
      ('?' ∈ base.toList ∨ ∀ c ∈ (tail base.toList (fill path.toList params) query).head?,
        Uri.endsAuthority c = true) := by
  unfold build at h
  simp only at h
  split at h
  · cases h
  · cases h
    generalize fill path.toList params = filled
    constructor
    · rw [addQuery_toList, join_toList, List.append_assoc, tail]
    · by_cases marked : '?' ∈ base.toList
      · exact .inl marked
      · right
        intro c first
        unfold tail at first
        cases empty : slashed filled with
        | nil =>
          -- no path, so the query comes right behind the base and brings the mark
          rw [empty, List.append_nil, if_neg marked, List.nil_append] at first
          cases query with
          | nil => simp [queried] at first
          | cons p rest =>
            simp only [queried, List.cons_append, List.head?_cons, Option.mem_some_iff] at first
            subst first
            decide
        | cons d tail =>
          have slash : c = '/' := by
            apply slashed_head filled
            simpa [empty] using first
          subst slash
          decide

theorem build_append {base path url : String} {params query : List (String × String)}
    (h : build base path params query = .ok url) :
    ∃ more, url.toList = base.toList ++ more ∧
      ('?' ∈ base.toList ∨ ∀ c ∈ more.head?, Uri.endsAuthority c = true) :=
  ⟨_, build_tail h⟩

end Target

namespace Client

/-- Only slashes are taken from a base URL, so its marks stay. -/
theorem Config.build_unmarked {config : Config} {network : Exchange} {c : Client}
    (built : config.build network = .ok c) :
    Uri.Unmarked c.baseUrl.toList ↔ Uri.Unmarked config.baseUrl.toList := by
  obtain ⟨slashes, cut, all⟩ := Config.build_slashes built
  have apart {m : Char} (other : m ≠ '/') : m ∈ config.baseUrl.toList ↔ m ∈ c.baseUrl.toList := by
    rw [cut, List.mem_append]
    refine or_iff_left ?_
    intro mem
    exact other (all m mem)
  unfold Uri.Unmarked
  rw [apart (by decide), apart (by decide)]

/-- Path and query of a request are read from its URL behind the authority of the base. -/
theorem build_behind {c : Client} {base : Uri} (read : Uri.parse c.baseUrl = .ok base)
    (absolute : base.scheme.isSome) {d : Draft} {request : Request}
    (assembled : c.build d = .ok request) :
    ∃ head behind, c.baseUrl.toList = head ++ behind ∧ Uri.Unmarked head ∧
      base.path = Uri.rooted (String.ofList (Uri.pathOf behind)) ∧
      let tail := Target.tail c.baseUrl.toList (Target.fill d.path.toList d.params) d.query
      request.uri.path = Uri.rooted (String.ofList (Uri.pathOf (behind ++ tail))) ∧
        request.uri.query = (Uri.queryOf (behind ++ tail)).map String.ofList := by
  obtain ⟨-, ⟨url, joined, parsed⟩, -⟩ := build_ok assembled
  obtain ⟨appended, ends⟩ := Target.build_tail joined
  exact (Uri.parse_append_tail read absolute appended parsed ends).2

/-- Whatever a draft asks for, its request has the scheme and the authority of the base URL the
client was given, and so the same user, host and port. -/
theorem request_stays_at_base {config : Config} {network : Exchange} {c : Client}
    (built : config.build network = .ok c) {d : Draft} {request : Request}
    (assembled : c.build d = .ok request) :
    ∃ base, Uri.parse c.baseUrl = .ok base ∧ base.scheme.isSome ∧ base.authority.isSome ∧
      request.uri.scheme = base.scheme ∧ request.uri.authority = base.authority ∧
      ∀ given, Uri.parse config.baseUrl = .ok given →
        given.scheme = base.scheme ∧ given.authority = base.authority := by
  obtain ⟨settings, base, read, scheme, authority⟩ := Config.build_ok built
  obtain ⟨-, ⟨url, joined, parsed⟩, -⟩ := build_ok assembled
  obtain ⟨more, appended, ends⟩ := Target.build_append joined
  obtain ⟨sameScheme, sameAuthority⟩ := Uri.parse_append read scheme appended parsed ends
  refine ⟨base, read, scheme, authority, sameScheme, sameAuthority, ?_⟩
  intro given whole
  obtain ⟨slashes, cut, all⟩ := Config.trimmed_append config.baseUrl
  have trimmed : c.baseUrl = Config.trimmed config.baseUrl := by rw [settings]
  have ended : ∀ c ∈ slashes.head?, Uri.endsAuthority c = true := by
    intro c first
    rw [all c (List.mem_of_mem_head? first)]
    decide
  exact Uri.parse_append read scheme (trimmed ▸ cut) whole (.inr ended)

private def home : Config := { baseUrl := "HTTP://me@host:80/" }

private def homeClient : Client :=
  { baseUrl := Config.trimmed home.baseUrl, headers := .empty, timeout := none, chain := .empty,
    exchange := fun _ => .never }

private def hostile : Draft :=
  { method := "GET", path := "//evil.org/{id}", params := [("id", "@there:81/?#")],
    query := [("to", "//evil.org")] }

private def hostileRequest : Request :=
  { method := "GET",
    uri := ⟨some "http", some "me@host:80", "//evil.org/%40there%3A81%2F%3F%23",
      some "to=%2F%2Fevil.org"⟩ }

/-- A path that looks like an authority, and a parameter with everything that could end one. -/
theorem request_stays_at_base_hostile :
    home.build (fun _ => .never) = .ok homeClient ∧
      homeClient.build hostile = .ok hostileRequest ∧
      hostileRequest.uri.authority = some "me@host:80" := by
  have whole : Uri.parse homeClient.baseUrl =
      .ok ⟨some "http", some "me@host:80", "/", none⟩ := by decide +kernel
  have built : home.build (fun _ => .never) = .ok homeClient := by
    simp only [Config.build, show Uri.parse (Config.trimmed home.baseUrl) = _ from whole]
    rfl
  have assembled : homeClient.build hostile = .ok hostileRequest := by decide +kernel
  obtain ⟨base, read, -, -, -, same, -⟩ := request_stays_at_base built assembled
  rw [whole] at read
  cases read
  exact ⟨built, assembled, same⟩

end Client

end Courier
