import Courier.Proofs.Client.Assembly
/-!
Which headers a request carries.

Headers come from three layers: those of the client, those of the draft, and those of the options of
the call. In each the last value set for a name counts, and a later layer goes over an earlier one.
`request_headers` is the main result.
-/

namespace Courier

namespace Headers

theorem values_insert (h : Headers) (name other : HeaderName) (v : HeaderValue) :
    (h.insert name v).values other = if other = name then [v] else h.values other := by
  by_cases same : other = name
  · rw [same, values_insert_self, if_pos rfl]
  · rw [values_insert_of_ne h v same, if_neg same]

theorem mem_names (h : Headers) (name : HeaderName) : name ∈ h.names ↔ h.values name ≠ [] := by
  simp only [names, values, List.mem_eraseDups, ne_eq, List.map_eq_nil_iff, List.filter_eq_nil_iff,
    decide_eq_true_eq, List.mem_map]
  constructor
  · rintro ⟨field, mem, same⟩ none
    exact none field mem same
  · intro some
    apply Classical.byContradiction
    intro none
    exact some fun field mem same => none ⟨field, mem, same⟩

/-- A name of the upper list has the values it has there, and any other name keeps its own. -/
theorem values_extend (h top : Headers) (name : HeaderName) :
    (h.extend top).values name =
      if top.values name = [] then h.values name else top.values name := by
  have replaced (names : List HeaderName) (h : Headers) :
      (names.foldl (fun h other => h.setAll other (top.values other)) h).values name =
        if name ∈ names then top.values name else h.values name := by
    induction names generalizing h with
    | nil => simp
    | cons other names ih =>
      rw [List.foldl_cons, ih]
      by_cases later : name ∈ names
      · simp [later]
      · by_cases same : name = other
        · subst same
          simp [later, setAll, values_setAllIn_self]
        · simp [later, same, setAll, values_setAllIn_of_ne _ _ same]
  rw [extend, replaced]
  by_cases none : top.values name = []
  · rw [if_pos none, if_neg fun mem => (mem_names top name).mp mem none]
  · rw [if_neg none, if_pos ((mem_names top name).mpr none)]

end Headers

theorem readField_ok {name value : String} {field : HeaderName × HeaderValue}
    (h : readField name value = .ok field) : field = (⟨name.toLower⟩, ⟨Utf8.encode value⟩) := by
  unfold readField HeaderName.ofText? HeaderValue.ofText? HeaderValue.ofBytes? at h
  grind

theorem ofText_eq {text : String} {v : HeaderValue} (h : HeaderValue.ofText? text = some v) :
    v = ⟨Utf8.encode text⟩ := by
  unfold HeaderValue.ofText? HeaderValue.ofBytes? at h
  split at h
  · exact (Option.some.inj h).symm
  · cases h

section last

variable {τ β : Type}

/-- What the last of the calls that say anything says. -/
def lastSaid (said : τ → Option β) (calls : List τ) : Option β := calls.reverse.findSome? said

@[simp] theorem lastSaid_nil (said : τ → Option β) : lastSaid said [] = none := rfl

@[simp] theorem lastSaid_cons (said : τ → Option β) (call : τ) (calls : List τ) :
    lastSaid said (call :: calls) = (lastSaid said calls).or (said call) := by
  simp [lastSaid, List.findSome?_append]

theorem lastSaid_eq_none_iff {said : τ → Option β} {calls : List τ} :
    lastSaid said calls = none ↔ ∀ call ∈ calls, said call = none := by
  simp [lastSaid]

theorem lastSaid_eq_some_iff {said : τ → Option β} {calls : List τ} {b : β} :
    lastSaid said calls = some b ↔
      ∃ before call after, calls = before ++ call :: after ∧ said call = some b ∧
        ∀ other ∈ after, said other = none := by
  rw [lastSaid, List.findSome?_eq_some_iff]
  constructor
  · rintro ⟨after, call, before, split, answer, silent⟩
    refine ⟨before.reverse, call, after.reverse, ?_, answer, ?_⟩
    · rw [← List.reverse_reverse calls, split]
      simp
    · intro other mem
      exact silent other (List.mem_reverse.mp mem)
  · rintro ⟨before, call, after, rfl, answer, silent⟩
    refine ⟨after.reverse, call, before.reverse, by simp, answer, ?_⟩
    intro other mem
    exact silent other (List.mem_reverse.mp mem)

end last

/-- The value that a call gives a header; names are compared without regard to case. -/
def valueFor (name : String) (call : String × String) : Option HeaderValue :=
  if call.1.toLower = name.toLower then some ⟨Utf8.encode call.2⟩ else none

section calls

variable {σ : Type} (headers : σ → Headers) {set : σ → String → String → Except HeaderFault σ}

/-- Where each call sets one header, the last call for a name gives its value. -/
theorem values_foldlM
    (sets : ∀ {s s' : σ} {name value : String}, set s name value = .ok s' →
      ∃ field, readField name value = .ok field ∧ headers s' = (headers s).insert field.1 field.2)
    {calls : List (String × String)} {s s' : σ}
    (made : calls.foldlM (fun s call => set s call.1 call.2) s = .ok s') (name : String) :
    (headers s').values ⟨name.toLower⟩ =
      match lastSaid (valueFor name) calls with
      | some v => [v]
      | none => (headers s).values ⟨name.toLower⟩ := by
  induction calls generalizing s with
  | nil =>
    cases made
    rfl
  | cons call calls ih =>
    simp only [List.foldlM_cons, bind, Except.bind] at made
    split at made
    · cases made
    next mid first =>
      obtain ⟨field, read, inserted⟩ := sets first
      rw [ih made, lastSaid_cons]
      cases lastSaid (valueFor name) calls with
      | some v => rfl
      | none =>
        simp only [Option.none_or]
        rw [inserted, Headers.values_insert, readField_ok read, valueFor]
        by_cases same : call.1.toLower = name.toLower
        · simp [same]
        · simp [same, Ne.symm same]

end calls

theorem Client.Config.setHeader_ok {c c' : Client.Config} {name value : String}
    (h : c.setHeader name value = .ok c') :
    ∃ field, readField name value = .ok field ∧ c'.headers = c.headers.insert field.1 field.2 := by
  simp only [setHeader, bind, Except.bind] at h
  split at h
  · cases h
  next field read =>
    cases h
    exact ⟨field, read, rfl⟩

theorem Options.setHeader_ok {o o' : Options} {name value : String}
    (h : o.setHeader name value = .ok o') :
    ∃ field, readField name value = .ok field ∧ o'.headers = o.headers.insert field.1 field.2 := by
  simp only [setHeader, bind, Except.bind] at h
  split at h
  · cases h
  next field read =>
    cases h
    exact ⟨field, read, rfl⟩

namespace Draft

/-- What a step says about the body, if it sets one. -/
def Step.contentType? : Step → Option HeaderValue
  | .body contentType _ => some contentType
  | .form _ => some ⟨Utf8.encode "application/x-www-form-urlencoded"⟩
  | .multipart boundary _ =>
    some ⟨Utf8.encode ("multipart/form-data; boundary=" ++ boundary.text)⟩
  | .json _ => some ⟨Utf8.encode "application/json"⟩
  | .document _ => some ⟨Utf8.encode "application/json"⟩
  | _ => none

/-- The value that a step gives a header. -/
def Step.valueFor (name : String) : Step → Option HeaderValue
  | .header n v => Courier.valueFor name (n, v)
  | step => if name.toLower = "content-type" then step.contentType? else none

/-- The step sets this body, of this type. -/
inductive Step.Sets : Step → HeaderValue → Bytes → Prop where
  | body (contentType : HeaderValue) (content : Bytes) :
      Sets (.body contentType content) contentType content
  | form {v : Value} {content : Bytes} :
      Form.encodeBytes v = .ok content →
      Sets (.form v) ⟨Utf8.encode "application/x-www-form-urlencoded"⟩ content
  | multipart {boundary : Boundary} {v : Value} {content : Bytes} :
      Multipart.encode boundary v = .ok content →
      Sets (.multipart boundary v)
        ⟨Utf8.encode ("multipart/form-data; boundary=" ++ boundary.text)⟩ content
  | json {datum : Json.Datum} {text : String} :
      datum.write = .ok text →
      Sets (.json datum) ⟨Utf8.encode "application/json"⟩ (Utf8.encode text)
  | document (j : Json) :
      Sets (.document j) ⟨Utf8.encode "application/json"⟩ (Utf8.encode j.render)

def Step.options? : Step → Option Options
  | .options o => some o
  | _ => none

variable {d : Draft}

theorem fail_fault (d : Draft) (e : CallError) : (d.fail e).fault ≠ none := by
  unfold fail
  cases h : d.fault <;> simp [h]

theorem setBody_values (d : Draft) (contentType : HeaderValue) (content : Bytes) (name : String) :
    (d.setBody contentType content).headers.values ⟨name.toLower⟩ =
      if name.toLower = "content-type" then [contentType] else d.headers.values ⟨name.toLower⟩ := by
  simp [setBody, Headers.values_insert, HeaderName.contentType]

/-- A step that does not fail gives a header its value, if it has one for it, and replaces the
options if it brings some. It does so only where nothing has failed before. -/
structure Follows (d : Draft) (step : Step) (next : Draft) : Prop where
  clean : d.fault = none
  headers : ∀ name, next.headers.values ⟨name.toLower⟩ =
    match step.valueFor name with
    | some v => [v]
    | none => d.headers.values ⟨name.toLower⟩
  options : next.options.headers = (step.options?.getD d.options).headers

theorem setBody_follows {step : Step} {contentType : HeaderValue} (content : Bytes)
    (clean : d.fault = none) (typed : ∀ name, step.valueFor name =
      if name.toLower = "content-type" then some contentType else none)
    (bare : step.options? = none) : d.Follows step (d.setBody contentType content) := by
  refine ⟨clean, ?_, ?_⟩
  · intro name
    rw [setBody_values, typed]
    by_cases h : name.toLower = "content-type" <;> simp [h]
  · rw [bare]
    rfl

theorem follows_of_same {step : Step} {next : Draft} (clean : d.fault = none)
    (same : next.headers = d.headers) (silent : ∀ name, step.valueFor name = none)
    (options : next.options.headers = (step.options?.getD d.options).headers) :
    d.Follows step next := by
  refine ⟨clean, ?_, options⟩
  intro name
  rw [silent, same]

theorem insert_follows {name value : String} {field : HeaderName × HeaderValue}
    (clean : d.fault = none) (read : readField name value = .ok field) :
    d.Follows (.header name value)
      { d with headers := d.headers.insert field.1 field.2 } := by
  refine ⟨clean, ?_, rfl⟩
  intro other
  rw [readField_ok read, Headers.values_insert]
  simp only [Step.valueFor, Courier.valueFor]
  by_cases same : name.toLower = other.toLower
  · simp [same]
  · simp [same, Ne.symm same]

/-- A step that sets a body and does not fail sets it together with its type. -/
theorem apply_sets {step : Step} {contentType : HeaderValue}
    (typed : step.contentType? = some contentType) (ok : (d.apply step).fault = none) :
    ∃ content, step.Sets contentType content ∧ d.apply step = d.setBody contentType content := by
  cases step with
  | param | query | queryOpt | header | options | timeout => cases typed
  | body contentType content =>
    cases typed
    exact ⟨content, .body contentType content, rfl⟩
  | form v =>
    cases typed
    simp only [apply, setForm] at ok ⊢
    split at ok
    next content written => exact ⟨content, .form written, rfl⟩
    next => exact absurd ok (fail_fault d _)
  | multipart boundary v =>
    cases typed
    simp only [apply, setMultipart] at ok ⊢
    split at ok
    next => exact absurd ok (fail_fault d _)
    next contentType fits =>
      have known := ofText_eq fits
      split at ok
      next content written => exact ⟨content, .multipart written, by rw [known]; rfl⟩
      next => exact absurd ok (fail_fault d _)
  | json datum =>
    cases typed
    simp only [apply, setJson] at ok ⊢
    split at ok
    next text written => exact ⟨_, .json written, rfl⟩
    next => exact absurd ok (fail_fault d _)
  | document j =>
    cases typed
    exact ⟨_, .document j, rfl⟩

theorem apply_follows (step : Step) (ok : (d.apply step).fault = none) :
    d.Follows step (d.apply step) := by
  have sets {contentType : HeaderValue} (typed : step.contentType? = some contentType)
      (valued : ∀ name, step.valueFor name =
        if name.toLower = "content-type" then some contentType else none)
      (bare : step.options? = none) : d.Follows step (d.apply step) := by
    obtain ⟨content, -, set⟩ := apply_sets typed ok
    rw [set] at ok ⊢
    exact setBody_follows content ok valued bare
  cases step with
  | param name value => exact follows_of_same ok rfl (fun _ => ite_self none) rfl
  | query name value => exact follows_of_same ok rfl (fun _ => ite_self none) rfl
  | queryOpt name value =>
    cases value <;> exact follows_of_same ok rfl (fun _ => ite_self none) rfl
  | options o => exact follows_of_same ok rfl (fun _ => ite_self none) rfl
  | timeout limit => exact follows_of_same ok rfl (fun _ => ite_self none) rfl
  | header name value =>
    simp only [apply, setHeader] at ok ⊢
    cases read : readField name value with
    | error e =>
      rw [read] at ok
      exact absurd ok (fail_fault d _)
    | ok field =>
      rw [read] at ok
      exact insert_follows ok read
  | body | form | multipart | json | document => exact sets rfl (fun _ => rfl) rfl

/-- Over any steps that do not fail, the last step that has a value for a header gives it, and the
last one that brings options gives them. -/
theorem foldl_apply (steps : List Step) (ok : (steps.foldl apply d).fault = none) :
    d.fault = none ∧
      (∀ name, (steps.foldl apply d).headers.values ⟨name.toLower⟩ =
        match lastSaid (Step.valueFor name) steps with
        | some v => [v]
        | none => d.headers.values ⟨name.toLower⟩) ∧
      (steps.foldl apply d).options.headers =
        ((lastSaid Step.options? steps).getD d.options).headers := by
  induction steps generalizing d with
  | nil => exact ⟨ok, fun _ => rfl, rfl⟩
  | cons step steps ih =>
    obtain ⟨clean, headers, options⟩ := ih ok
    have first := apply_follows step clean
    refine ⟨first.clean, ?_, ?_⟩
    · intro name
      rw [List.foldl_cons, headers name, lastSaid_cons]
      cases lastSaid (Step.valueFor name) steps with
      | some v => rfl
      | none => exact first.headers name
    · rw [List.foldl_cons, options, lastSaid_cons]
      cases lastSaid Step.options? steps with
      | some o => rfl
      | none => exact first.options

end Draft

namespace Client

/-- A request carries at most one value of each name: the last one set in the options of its last
step that brings options, or else the last one that a step of the draft sets, the steps that set a
body for `content-type` among them, or else the last one of the client. The client's own headers
stay as they were set. -/
theorem request_headers {start config : Config} {defaults : List (String × String)}
    (bare : start.headers = .empty)
    (configured :
      defaults.foldlM (fun c call => Config.setHeader c call.1 call.2) start = .ok config)
    {network : Exchange} {c : Client} (built : config.build network = .ok c)
    {method path : String} {steps : List Draft.Step} {timeout : Option Duration}
    {settings : List (String × String)}
    (made : settings.foldlM (fun o call => Options.setHeader o call.1 call.2) { timeout } =
      .ok ((lastSaid Draft.Step.options? steps).getD {}))
    {request : Request}
    (assembled : c.build (steps.foldl Draft.apply { method, path }) = .ok request) (name : String) :
    request.headers.values ⟨name.toLower⟩ =
        ((lastSaid (valueFor name) settings).or
          ((lastSaid (Draft.Step.valueFor name) steps).or
            (lastSaid (valueFor name) defaults))).toList ∧
      c.headers.values ⟨name.toLower⟩ = (lastSaid (valueFor name) defaults).toList := by
  have top := values_foldlM Options.headers Options.setHeader_ok made name
  have bottom := values_foldlM Config.headers Config.setHeader_ok configured name
  obtain ⟨clean, -, -, -, headers⟩ := build_ok assembled
  obtain ⟨-, middle, options⟩ := Draft.foldl_apply steps clean
  have own : c.headers = config.headers := by rw [(Config.build_ok built).1]
  have lowest : c.headers.values ⟨name.toLower⟩ = (lastSaid (valueFor name) defaults).toList := by
    rw [own, bottom, bare]
    cases lastSaid (valueFor name) defaults <;> rfl
  refine ⟨?_, lowest⟩
  rw [headers, Headers.values_extend, Headers.values_extend, options, middle name, lowest]
  simp only [top]
  cases lastSaid (valueFor name) settings with
  | some v => rfl
  | none =>
    cases lastSaid (Draft.Step.valueFor name) steps with
    | some v => rfl
    | none => rfl

private def labelled : Config := { baseUrl := "http://localhost" }

private def labels : List (String × String) := [("Accept", "a"), ("X-Id", "1")]

private def labelledHeaders : Headers := ⟨[(⟨"accept"⟩, ⟨[97]⟩), (⟨"x-id"⟩, ⟨[49]⟩)]⟩

private def labelledClient : Client :=
  { baseUrl := Config.trimmed labelled.baseUrl, headers := labelledHeaders, timeout := none,
    chain := .empty, exchange := fun _ => .never }

private def lastOptions : Options := { headers := ⟨[(⟨"accept"⟩, ⟨[99]⟩)]⟩ }

private def relabelled : List Draft.Step :=
  [.header "x-id" "2", .options { headers := labelledHeaders }, .header "Content-Type" "e",
    .options lastOptions, .body ⟨[100]⟩ [1, 2]]

private def relabelledRequest : Request :=
  { method := "PUT", uri := ⟨some "http", some "localhost", "/", none⟩,
    headers := ⟨[(⟨"accept"⟩, ⟨[99]⟩), (⟨"x-id"⟩, ⟨[50]⟩), (⟨"content-type"⟩, ⟨[100]⟩)]⟩,
    body := [1, 2] }

/-- Three layers that disagree on `accept`, two that disagree on `x-id`, and two content types. -/
theorem request_headers_layered :
    labelledClient.build (relabelled.foldl Draft.apply { method := "PUT", path := "" }) =
        .ok relabelledRequest ∧
      relabelledRequest.headers.values ⟨"accept"⟩ = [⟨Utf8.encode "c"⟩] ∧
      relabelledRequest.headers.values ⟨"x-id"⟩ = [⟨Utf8.encode "2"⟩] ∧
      relabelledRequest.headers.values ⟨"content-type"⟩ = [⟨[100]⟩] := by
  have acceptRead : readField "Accept" "a" = .ok (⟨"accept"⟩, ⟨[97]⟩) := by decide +kernel
  have idRead : readField "X-Id" "1" = .ok (⟨"x-id"⟩, ⟨[49]⟩) := by decide +kernel
  have configured : labels.foldlM (fun c call => Config.setHeader c call.1 call.2) labelled =
      .ok { labelled with headers := labelledHeaders } := by
    simp only [labels, List.foldlM_cons, List.foldlM_nil, Config.setHeader, acceptRead, idRead]
    rfl
  have read : Uri.parse (Config.trimmed labelled.baseUrl) =
      .ok ⟨some "http", some "localhost", "/", none⟩ := by decide +kernel
  have built : ({ labelled with headers := labelledHeaders } : Config).build (fun _ => .never) =
      .ok labelledClient := by
    simp only [Config.build, read]
    rfl
  have made : [("accept", "c")].foldlM (fun o call => Options.setHeader o call.1 call.2)
      { timeout := none } = .ok ((lastSaid Draft.Step.options? relabelled).getD {}) := by
    decide +kernel
  have drafted : relabelled.foldl Draft.apply { method := "PUT", path := "" } =
      { method := "PUT", path := "", headers := ⟨[(⟨"x-id"⟩, ⟨[50]⟩), (⟨"content-type"⟩, ⟨[100]⟩)]⟩,
        body := [1, 2], options := lastOptions } := by decide +kernel
  have assembled :
      labelledClient.build (relabelled.foldl Draft.apply { method := "PUT", path := "" }) =
        .ok relabelledRequest := by
    rw [drafted]
    decide +kernel
  have carries := fun name => (request_headers rfl configured built made assembled name).1
  have accept : "accept".toLower = "accept" := by decide +kernel
  have accept' : "Accept".toLower = "accept" := by decide +kernel
  have id : "x-id".toLower = "x-id" := by decide +kernel
  have id' : "X-Id".toLower = "x-id" := by decide +kernel
  have type : "Content-Type".toLower = "content-type" := by decide +kernel
  have first := carries "accept"
  have second := carries "x-id"
  have third := carries "Content-Type"
  simp [labels, relabelled, valueFor, Draft.Step.valueFor, Draft.Step.contentType?, accept, accept',
    id, id', type] at first second third
  exact ⟨assembled, first, second, third⟩

end Client

end Courier
