import Courier.Http.MediaType
import Courier.Proofs.Client.Payload
import Courier.Proofs.Http.MediaType
/-!
The boundary that a request announces.

The delimiter lines of a multipart body are made with the boundary, and the content type of the
request names it behind a `=`, as it is. A boundary is refused if it does not fit in a header, and no
other is. Since it is not quoted, the receiver reads the boundary of the body if and only if it is a
token; a boundary that fits in a header and is none is announced wrongly. `boundary_announced` is the
main result.
-/

namespace Courier

/-- The boundary that the content type of a request names. -/
def Request.boundary? (r : Request) : Option String :=
  match r.headers.values .contentType with
  | [v] => (Utf8.decode? v.bytes).bind (MediaType.parameter? "boundary")
  | _ => none

namespace Multipart

/-! ## The content type -/

theorem contentType_toList (b : Boundary) :
    (contentType b).toList = "multipart/form-data".toList ++
      ';' :: ' ' :: ("boundary".toList ++ '=' :: b.text.toList) := by
  have front : "multipart/form-data; boundary=".toList = "multipart/form-data".toList ++
      ';' :: ' ' :: ("boundary".toList ++ ['=']) := by decide
  unfold contentType
  rw [String.toList_append, front]
  simp only [List.append_assoc, List.cons_append, List.nil_append]

theorem parameter?_contentType_iff (b : Boundary) :
    MediaType.parameter? "boundary" (contentType b) = some b.text ↔
      MediaType.IsToken b.text.toList := by
  have plain : ';' ∉ "multipart/form-data".toList := by decide
  have token : MediaType.IsToken "boundary".toList := by decide
  have first := MediaType.parameter?_first_iff plain token (by decide) b.text.toList
  rwa [← contentType_toList, String.ofList_toList, String.ofList_toList, String.ofList_toList] at first

theorem ofText?_contentType_iff (b : Boundary) :
    HeaderValue.ofText? (contentType b) = none ↔
      ∃ byte ∈ Utf8.encode b.text, HeaderValue.isValueByte byte = false := by
  have front : (Utf8.encode "multipart/form-data; boundary=").all HeaderValue.isValueByte = true := by
    decide
  unfold contentType
  rw [HeaderValue.ofText?, HeaderValue.ofBytes?, Utf8.encode_append, List.all_append, front,
    Bool.true_and, ite_eq_right_iff]
  simp only [reduceCtorEq, imp_false, List.all_eq_true, Classical.not_forall, exists_prop,
    Bool.not_eq_true]

/-- A token fits in a header. -/
theorem isValueByte_of_token {text : String} (token : MediaType.IsToken text.toList) :
    ∀ byte ∈ Utf8.encode text, HeaderValue.isValueByte byte = true := by
  intro byte mem
  obtain ⟨c, inside, spelled⟩ := List.mem_flatMap.mp mem
  have checked : ∀ n < 127, 33 ≤ n →
      (String.utf8EncodeChar (Char.ofNat n)).all HeaderValue.isValueByte = true := by decide
  have visible := token.2 c inside
  simp only [MediaType.isTokenChar, Bool.and_eq_true, decide_eq_true_eq] at visible
  have number := checked c.toNat (by omega) visible.1.1
  rw [Char.ofNat_toNat] at number
  exact List.all_eq_true.mp number byte spelled

end Multipart

namespace Draft

variable {d : Draft}

/-- After a multipart body and steps that set no other, a draft without a fault carries that body and
its content type. -/
theorem multipart_kept {b : Boundary} {v : Value} {later : List Step}
    (silent : ∀ step ∈ later, step.valueFor "content-type" = none)
    (ok : (later.foldl apply (d.apply (.multipart b v))).fault = none) :
    Multipart.encode b v = .ok (later.foldl apply (d.apply (.multipart b v))).body ∧
      (later.foldl apply (d.apply (.multipart b v))).headers.values .contentType =
        [knownType (Multipart.contentType b)] := by
  obtain ⟨sets, typed⟩ := payload_kept rfl silent ok
  cases sets with
  | multipart written => exact ⟨written, typed⟩

end Draft

namespace Client

/-- A request whose last body is a multipart one, with a content type that nothing else names, has the
boundary in its delimiter lines and in its closing one, and the receiver reads this boundary from the
content type if and only if it is a token. A token is never refused. What does not fit in a header is,
whatever the document holds, and nothing else is refused for the sake of the boundary. -/
theorem boundary_announced (c : Client) (method path : String) (earlier : List Draft.Step)
    (b : Boundary) (v : Value) (later : List Draft.Step)
    (silent : ∀ step ∈ later, step.valueFor "content-type" = none) :
    let d := (earlier ++ .multipart b v :: later).foldl Draft.apply { method, path }
    let fits := ∀ byte ∈ Utf8.encode b.text, HeaderValue.isValueByte byte = true
    (∀ request, c.build d = .ok request →
      Multipart.encode b v = .ok request.body ∧
      request.body = ((Multipart.parts v).map fun p =>
        Multipart.delimiter b ++ Multipart.frame p).flatten ++ Multipart.closing b ∧
      (d.options.headers.values .contentType = [] →
        (request.boundary? = some b.text ↔ MediaType.IsToken b.text.toList))) ∧
    (MediaType.IsToken b.text.toList → fits) ∧
    (fits → Draft.Step.fault? (.multipart b v) = (v.leaves.findSome? Multipart.refusal?).map .body) ∧
    (¬ fits → earlier.findSome? Draft.Step.fault? = none →
      c.build d = .error (.request (.boundary b.text))) := by
  intro d fits
  have fits_iff : fits ↔ HeaderValue.ofText? (Multipart.contentType b) ≠ none := by
    rw [ne_eq, Multipart.ofText?_contentType_iff]
    simp [fits]
  refine ⟨?_, Multipart.isValueByte_of_token, ?_, ?_⟩
  · intro request assembled
    obtain ⟨clean, -, -, body, headers⟩ := build_ok assembled
    have run : d = later.foldl Draft.apply
        ((earlier.foldl Draft.apply { method, path }).apply (.multipart b v)) := by
      rw [← List.foldl_cons, ← List.foldl_append]
    rw [run] at clean
    obtain ⟨written, typed⟩ := Draft.multipart_kept silent clean
    rw [← run, ← body] at written
    rw [← run] at typed
    refine ⟨written, Multipart.body_lines written, ?_⟩
    intro bare
    have named : request.headers.values .contentType =
        [Draft.knownType (Multipart.contentType b)] := by
      rw [headers, Headers.values_extend, if_pos bare, Headers.values_extend, typed, if_neg nofun]
    rw [Request.boundary?, named, ← Multipart.parameter?_contentType_iff]
    simp [Draft.knownType]
  · intro fit
    rw [Draft.Step.fault?, if_neg (fits_iff.mp fit)]
  · intro large first
    have refused : HeaderValue.ofText? (Multipart.contentType b) = none := by
      rw [fits_iff, ne_eq, Classical.not_not] at large
      exact large
    apply build_of_fault
    rw [(Draft.foldl_adds _ _).fault, List.findSome?_append, first, List.findSome?_cons,
      Draft.Step.fault?, if_pos refused]
    rfl

private def poster : Client :=
  { baseUrl := "http://localhost", headers := .empty, timeout := none, chain := .empty,
    exchange := fun _ => .never }

private def enclosing : List Draft.Step :=
  [.body ⟨[97]⟩ [1]] ++ .multipart ⟨"x+1."⟩ (.scalar "v") :: [.query "q" "1"]

private def enclosed : Request :=
  { method := "POST", uri := ⟨some "http", some "localhost", "/", some "q=1"⟩,
    headers := ⟨[(.contentType, ⟨Utf8.encode "multipart/form-data; boundary=x+1."⟩)]⟩,
    body := Utf8.encode
      "--x+1.\r\nContent-Disposition: form-data; name=\"\"\r\n\r\nv\r\n--x+1.--" }

/-- A body with another type comes before, and a query pair behind. -/
theorem boundary_announced_token :
    poster.build (enclosing.foldl Draft.apply { method := "POST", path := "" }) = .ok enclosed ∧
      enclosed.boundary? = some "x+1." := by
  have built : poster.build (enclosing.foldl Draft.apply { method := "POST", path := "" }) =
      .ok enclosed := by decide +kernel
  obtain ⟨announced, -⟩ := boundary_announced poster "POST" "" [.body ⟨[97]⟩ [1]] ⟨"x+1."⟩ (.scalar "v")
    [.query "q" "1"] (by decide +kernel)
  obtain ⟨-, -, read⟩ := announced enclosed built
  exact ⟨built, (read rfl).mpr (by decide +kernel)⟩

private def cut : Request :=
  { method := "POST", uri := ⟨some "http", some "localhost", "/", none⟩,
    headers := ⟨[(.contentType, ⟨Utf8.encode "multipart/form-data; boundary=a b"⟩)]⟩,
    body := Utf8.encode "--a b--" }

/-- A boundary with a blank in it fits in a header and is not refused, but another one is read. -/
theorem boundary_cut_at_blank :
    poster.build ([Draft.Step.multipart ⟨"a b"⟩ (.record [])].foldl Draft.apply
        { method := "POST", path := "" }) = .ok cut ∧
      cut.boundary? = some "a" := by
  constructor
  · decide +kernel
  · decide +kernel

end Client

end Courier
