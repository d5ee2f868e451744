import Courier.Proofs.Client.Draft
import Courier.Proofs.Client.Headers
/-!
A body and what it says of itself stay together.

The body of a draft and its content type are kept in two places. Every step that sets the one sets
the other, and no other step touches either, a header that names the content type apart. So whatever
steps are taken, a request has the body and the type of the last step that set a body.
`body_keeps_its_type` is the main result.
-/

namespace Courier

namespace Draft

variable {d : Draft}

theorem contentType_lower : "content-type".toLower = "content-type" := by decide +kernel

theorem setHeader_body (d : Draft) (name value : String) : (d.setHeader name value).body = d.body := by
  unfold setHeader
  split
  · rfl
  · rw [fail_eq]

/-- A step that names no content type sets no body. -/
theorem apply_body (d : Draft) {step : Step} (silent : step.valueFor "content-type" = none) :
    (d.apply step).body = d.body := by
  have bare (typed : step.valueFor "content-type" = step.contentType?) :
      step.contentType? = none := typed.symm.trans silent
  cases step with
  | header name value => exact d.setHeader_body name value
  | queryOpt name value => cases value <;> rfl
  | param | query | options | timeout => rfl
  | body | form | multipart | json | document => cases bare (if_pos contentType_lower)

theorem foldl_body (d : Draft) {steps : List Step}
    (silent : ∀ step ∈ steps, step.valueFor "content-type" = none) :
    (steps.foldl apply d).body = d.body := by
  induction steps generalizing d with
  | nil => rfl
  | cons step steps ih =>
    rw [List.foldl_cons, ih _ fun later mem => silent later (List.mem_cons_of_mem _ mem)]
    exact d.apply_body (silent step List.mem_cons_self)

/-- Steps that name no content type leave the one that the draft has. -/
theorem foldl_type {steps : List Step}
    (silent : ∀ step ∈ steps, step.valueFor "content-type" = none)
    (ok : (steps.foldl apply d).fault = none) :
    (steps.foldl apply d).headers.values .contentType = d.headers.values .contentType := by
  obtain ⟨-, headers, -⟩ := foldl_apply steps ok
  have typed := headers "content-type"
  rw [contentType_lower, lastSaid_eq_none_iff.mpr silent] at typed
  exact typed

/-- After a step that sets a body and steps that name no content type, a draft without a fault carries
that body and its type. -/
theorem payload_kept {step : Step} {contentType : HeaderValue}
    (typed : step.contentType? = some contentType) {later : List Step}
    (silent : ∀ other ∈ later, other.valueFor "content-type" = none)
    (ok : (later.foldl apply (d.apply step)).fault = none) :
    step.Sets contentType (later.foldl apply (d.apply step)).body ∧
      (later.foldl apply (d.apply step)).headers.values .contentType = [contentType] := by
  obtain ⟨clean, -, -⟩ := foldl_apply later ok
  obtain ⟨content, sets, set⟩ := apply_sets typed clean
  rw [foldl_body _ silent, foldl_type silent ok, set]
  exact ⟨sets, Headers.values_insert_self _ _ _⟩

/-- A step that is no header of that name and sets no body names no content type. -/
theorem Step.valueFor_contentType {step : Step}
    (unnamed : ∀ name value, step = .header name value → name.toLower ≠ "content-type")
    (bodiless : step.contentType? = none) : step.valueFor "content-type" = none := by
  cases step with
  | header name value =>
    have other := unnamed name value rfl
    rw [← contentType_lower] at other
    exact if_neg other
  | param | query | queryOpt | options | timeout => exact ite_self none
  | body | form | multipart | json | document => cases bodiless

end Draft

namespace Client

/-- Where no header, no option that counts and no setting of the client names a content type, a request
has an empty body and no content type if no step set a body, and otherwise the body and the type of
the last step that did. -/
theorem body_keeps_its_type (c : Client) (method path : String) {steps : List Draft.Step}
    (unnamed : ∀ name value, .header name value ∈ steps → name.toLower ≠ "content-type")
    (bare : ((lastSaid Draft.Step.options? steps).getD {}).headers.values .contentType = [])
    (plain : c.headers.values .contentType = [])
    {request : Request} (built : c.build (steps.foldl Draft.apply { method, path }) = .ok request) :
    ((∀ step ∈ steps, step.contentType? = none) ∧
      request.body = [] ∧ request.headers.values .contentType = []) ∨
    ∃ before step after contentType, steps = before ++ step :: after ∧
      (∀ other ∈ after, other.contentType? = none) ∧
      step.Sets contentType request.body ∧ request.headers.values .contentType = [contentType] := by
  obtain ⟨clean, -, -, body, headers⟩ := build_ok built
  obtain ⟨-, -, options⟩ := Draft.foldl_apply steps clean
  have own : request.headers.values .contentType =
      (steps.foldl Draft.apply { method, path }).headers.values .contentType := by
    rw [headers, Headers.values_extend, options, if_pos bare, Headers.values_extend, plain]
    exact ite_eq_right_iff.mpr Eq.symm
  have silent {step : Draft.Step} (mem : step ∈ steps) (bodiless : step.contentType? = none) :
      step.valueFor "content-type" = none :=
    Draft.Step.valueFor_contentType (fun name value same => unnamed name value (same ▸ mem)) bodiless
  rw [own, body]
  cases last : lastSaid Draft.Step.contentType? steps with
  | none =>
    rw [lastSaid_eq_none_iff] at last
    have all : ∀ step ∈ steps, step.valueFor "content-type" = none :=
      fun step mem => silent mem (last step mem)
    exact .inl ⟨last, Draft.foldl_body _ all, Draft.foldl_type all clean⟩
  | some contentType =>
    obtain ⟨before, step, after, rfl, typed, bodiless⟩ := lastSaid_eq_some_iff.mp last
    have later : ∀ other ∈ after, other.valueFor "content-type" = none := fun other mem =>
      silent (List.mem_append_right before (List.mem_cons_of_mem step mem)) (bodiless other mem)
    rw [List.foldl_append, List.foldl_cons] at clean ⊢
    exact .inr ⟨before, step, after, contentType, rfl, bodiless, Draft.payload_kept typed later clean⟩

private def submitter : Client :=
  { baseUrl := "http://localhost", headers := ⟨[(⟨"accept"⟩, ⟨[42]⟩)]⟩, timeout := none,
    chain := .empty, exchange := fun _ => .never }

private def submitting : List Draft.Step :=
  [.body ⟨[97]⟩ [1], .options { headers := ⟨[(.contentType, ⟨[98]⟩)]⟩ }, .multipart ⟨"B"⟩ (.scalar "v"),
    .header "X-Id" "7", .form (.record [("a", .scalar "b c")]), .query "q" "1", .options {},
    .timeout (.ofMilliseconds 5)]

private def submitted : Request :=
  { method := "POST", uri := ⟨some "http", some "localhost", "/", some "q=1"⟩,
    headers := ⟨[(⟨"accept"⟩, ⟨[42]⟩),
      (.contentType, ⟨Utf8.encode "application/x-www-form-urlencoded"⟩), (⟨"x-id"⟩, ⟨[55]⟩)]⟩,
    body := Utf8.encode "a=b%20c" }

/-- Three bodies, the last of them a form, and options that name a type but do not count. -/
theorem body_keeps_its_type_form :
    submitter.build (submitting.foldl Draft.apply { method := "POST", path := "" }) = .ok submitted ∧
      ∃ step ∈ submitting, ∃ contentType, step.Sets contentType (Utf8.encode "a=b%20c") ∧
        submitted.headers.values .contentType = [contentType] := by
  have built : submitter.build (submitting.foldl Draft.apply { method := "POST", path := "" }) =
      .ok submitted := by decide +kernel
  have unnamed : ∀ name value, .header name value ∈ submitting → name.toLower ≠ "content-type" := by
    intro name value mem
    obtain ⟨rfl, rfl⟩ : name = "X-Id" ∧ value = "7" := by simpa [submitting] using mem
    decide +kernel
  refine ⟨built, ?_⟩
  obtain ⟨none, -⟩ | ⟨before, step, after, contentType, split, -, sets, typed⟩ :=
    body_keeps_its_type submitter "POST" "" unnamed rfl rfl built
  · cases none (.body ⟨[97]⟩ [1]) List.mem_cons_self
  · have mem : step ∈ submitting := by
      rw [split]
      exact List.mem_append_right before List.mem_cons_self
    exact ⟨step, mem, contentType, sets, typed⟩

end Client

end Courier
