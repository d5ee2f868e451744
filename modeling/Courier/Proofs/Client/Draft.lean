import Courier.Proofs.Body.Refusal
import Courier.Proofs.Client.Assembly
/-!
What steps do to a draft.

A step adds a path parameter, a query pair or a fault, or it changes what the request carries; what
it adds depends on the step alone (`apply_adds`). A step that fails does nothing else, and of several
faults the first is kept. So a draft in which a step has failed stands for no request, and nothing is
sent for it: `first_fault_wins` is the main result.
-/

namespace Courier

namespace Draft

/-- Why a step fails, if it does. -/
def Step.fault? : Step → Option CallError
  | .header name value =>
    if HeaderName.ofText? name = none then some (.request (.header (.name name)))
    else if HeaderValue.ofText? value = none then some (.request (.header (.value value)))
    else none
  | .form v => (v.leaves.findSome? Form.refusal?).map .body
  | .multipart boundary v =>
    if HeaderValue.ofText? (Multipart.contentType boundary) = none then
      some (.request (.boundary boundary.text))
    else (v.leaves.findSome? Multipart.refusal?).map .body
  | .json datum =>
    match datum.write with
    | .ok _ => none
    | .error e => some (.encode (.json e))
  | _ => none

/-- The path parameter that a step brings. -/
def Step.param? : Step → Option (String × String)
  | .param name value => some (name, value)
  | _ => none

/-- The query pair that a step brings. -/
def Step.pair? : Step → Option (String × String)
  | .query name value => some (name, value)
  | .queryOpt name (some value) => some (name, value)
  | _ => none

/-- What steps add to a draft, whether they fail or not. -/
structure Adds (d : Draft) (steps : List Step) (next : Draft) : Prop where
  method : next.method = d.method
  path : next.path = d.path
  params : next.params = d.params ++ steps.filterMap Step.param?
  query : next.query = d.query ++ steps.filterMap Step.pair?
  fault : next.fault = d.fault.or (steps.findSome? Step.fault?)

theorem Adds.append {d mid next : Draft} {steps more : List Step} (first : d.Adds steps mid)
    (second : mid.Adds more next) : d.Adds (steps ++ more) next where
  method := second.method.trans first.method
  path := second.path.trans first.path
  params := by rw [second.params, first.params, List.filterMap_append, List.append_assoc]
  query := by rw [second.query, first.query, List.filterMap_append, List.append_assoc]
  fault := by rw [second.fault, first.fault, List.findSome?_append, Option.or_assoc]

/-- The step fails with its fault and does nothing else, or it has none and changes nothing but what
the request carries. -/
def Settles (d : Draft) (step : Step) (next : Draft) : Prop :=
  (∃ e, step.fault? = some e ∧ next = d.fail e) ∨
    step.fault? = none ∧ ∃ headers body, next = { d with headers, body }

theorem fail_eq (d : Draft) (e : CallError) :
    d.fail e = { d with fault := d.fault.or (some e) } := by
  obtain ⟨method, path, params, query, headers, body, options, fault⟩ := d
  cases fault with
  | none => rfl
  | some first => rfl

/-! ## The steps that can fail -/

theorem setHeader_settles (d : Draft) (name value : String) :
    d.Settles (.header name value) (d.setHeader name value) := by
  unfold setHeader readField
  cases named : HeaderName.ofText? name with
  | none => exact .inl ⟨_, by simp [Step.fault?, named], rfl⟩
  | some n =>
    cases valued : HeaderValue.ofText? value with
    | none => exact .inl ⟨_, by simp [Step.fault?, named, valued], rfl⟩
    | some v => exact .inr ⟨by simp [Step.fault?, named, valued], _, _, rfl⟩

theorem setForm_settles (d : Draft) (v : Value) : d.Settles (.form v) (d.setForm v) := by
  unfold setForm Form.encodeBytes
  cases written : Form.encode v with
  | error e =>
    have refused := (Form.encode_error_iff v e).mp written
    exact .inl ⟨.body e, by simp [Step.fault?, refused], rfl⟩
  | ok body =>
    have kept := Form.kept_of_encode written
    exact .inr ⟨by simp [Step.fault?, kept], _, _, rfl⟩

/-- A boundary that fits in no header is noticed first, whatever the document holds. -/
theorem setMultipart_settles (d : Draft) (boundary : Boundary) (v : Value) :
    d.Settles (.multipart boundary v) (d.setMultipart boundary v) := by
  unfold setMultipart
  cases typed : HeaderValue.ofText? (Multipart.contentType boundary) with
  | none => exact .inl ⟨_, by simp [Step.fault?, typed], rfl⟩
  | some contentType =>
    cases written : Multipart.encode boundary v with
    | error e =>
      have refused := (Multipart.encode_error_iff boundary v e).mp written
      exact .inl ⟨.body e, by simp [Step.fault?, typed, refused], rfl⟩
    | ok body =>
      have kept := Multipart.kept_of_encode written
      exact .inr ⟨by simp [Step.fault?, typed, kept], _, _, rfl⟩

theorem setJson_settles (d : Draft) (datum : Json.Datum) :
    d.Settles (.json datum) (d.setJson datum) := by
  unfold setJson
  cases written : datum.write with
  | error e => exact .inl ⟨_, by simp [Step.fault?, written], rfl⟩
  | ok text => exact .inr ⟨by simp [Step.fault?, written], _, _, rfl⟩

/-! ## All steps -/

/-- A step that fails does nothing but leave its fault, if it is the first. -/
theorem apply_of_fault {step : Step} {e : CallError} (failed : step.fault? = some e) (d : Draft) :
    d.apply step = { d with fault := d.fault.or (some e) } := by
  have only {next : Draft} (settles : d.Settles step next) :
      next = { d with fault := d.fault.or (some e) } := by
    obtain ⟨e', failed', same⟩ | ⟨clean, -⟩ := settles
    · rw [failed] at failed'
      cases failed'
      rw [same, fail_eq]
    · rw [failed] at clean
      cases clean
  cases step with
  | header name value => exact only (d.setHeader_settles name value)
  | form v => exact only (d.setForm_settles v)
  | multipart boundary v => exact only (d.setMultipart_settles boundary v)
  | json datum => exact only (d.setJson_settles datum)
  | param | query | queryOpt | body | document | options | timeout => cases failed

theorem Settles.adds {d next : Draft} {step : Step} (settles : d.Settles step next)
    (noParam : step.param? = none) (noPair : step.pair? = none) : d.Adds [step] next := by
  obtain ⟨e, failed, rfl⟩ | ⟨clean, headers, body, rfl⟩ := settles
  · rw [fail_eq]
    exact ⟨rfl, rfl, by simp [noParam], by simp [noPair], by simp [failed]⟩
  · exact ⟨rfl, rfl, by simp [noParam], by simp [noPair], by simp [clean]⟩

theorem apply_adds (d : Draft) (step : Step) : d.Adds [step] (d.apply step) := by
  have same {α : Type} (xs : List α) : xs = xs ++ [] := (List.append_nil xs).symm
  have clean : d.fault = d.fault.or none := Option.or_none.symm
  cases step with
  | param name value => exact ⟨rfl, rfl, rfl, same _, clean⟩
  | query name value => exact ⟨rfl, rfl, same _, rfl, clean⟩
  | queryOpt name value =>
    cases value with
    | none => exact ⟨rfl, rfl, same _, same _, clean⟩
    | some value => exact ⟨rfl, rfl, same _, rfl, clean⟩
  | header name value => exact (d.setHeader_settles name value).adds rfl rfl
  | body contentType content => exact ⟨rfl, rfl, same _, same _, clean⟩
  | form v => exact (d.setForm_settles v).adds rfl rfl
  | multipart boundary v => exact (d.setMultipart_settles boundary v).adds rfl rfl
  | json datum => exact (d.setJson_settles datum).adds rfl rfl
  | document j => exact ⟨rfl, rfl, same _, same _, clean⟩
  | options o => exact ⟨rfl, rfl, same _, same _, clean⟩
  | timeout limit => exact ⟨rfl, rfl, same _, same _, clean⟩

theorem foldl_adds (steps : List Step) (d : Draft) : d.Adds steps (steps.foldl apply d) := by
  induction steps generalizing d with
  | nil => exact ⟨rfl, rfl, (List.append_nil _).symm, (List.append_nil _).symm, Option.or_none.symm⟩
  | cons step steps ih => exact (d.apply_adds step).append (ih (d.apply step))

end Draft

namespace Client

variable {c : Client} {d : Draft}

/-- What stands for no request is not sent: the call is over at once, and neither the chain nor the
exchange of the client has any part in it. -/
theorem send_of_build_error {e : CallError} (failed : c.build d = .error e) :
    c.send d = .done (.error e) := by
  unfold build at failed
  unfold send
  cases assembled : c.assemble d with
  | error e' =>
    rw [assembled] at failed
    cases failed
    rfl
  | ok parts =>
    rw [assembled] at failed
    cases failed

theorem build_of_fault {e : CallError} (faulty : d.fault = some e) : c.build d = .error e := by
  simp [build, assemble, faulty, Except.map]

theorem build_of_bad_target (clean : d.fault = none) {fault : RequestFault}
    (bad : Target.build c.baseUrl d.path d.params d.query = .error fault) :
    c.build d = .error (.request fault) := by
  simp [build, assemble, clean, bad, Except.map]

theorem build_of_bad_url (clean : d.fault = none) {url : String} {fault : Uri.Fault}
    (joined : Target.build c.baseUrl d.path d.params d.query = .ok url)
    (bad : Uri.parse url = .error fault) : c.build d = .error (.request (.url url fault)) := by
  simp [build, assemble, clean, joined, bad, Except.map]

/-- Whatever steps come before and after, and whatever is wrong with the path, the first step that
fails decides: its fault is the answer to `build` and to `send`. It changes nothing else in the
draft, and nothing is sent, as nothing is sent where the URL cannot be made or read. -/
theorem first_fault_wins (c : Client) (method path : String) (steps : List Draft.Step) :
    (∀ e, steps.findSome? Draft.Step.fault? = some e →
      c.build (steps.foldl Draft.apply { method, path }) = .error e ∧
        c.send (steps.foldl Draft.apply { method, path }) = .done (.error e)) ∧
    (∀ (d : Draft) step e, step.fault? = some e →
      d.apply step = { d with fault := d.fault.or (some e) }) ∧
    ∀ d : Draft, d.fault = none →
      (∀ fault, Target.build c.baseUrl d.path d.params d.query = .error fault →
        c.send d = .done (.error (.request fault))) ∧
      ∀ url fault, Target.build c.baseUrl d.path d.params d.query = .ok url →
        Uri.parse url = .error fault → c.send d = .done (.error (.request (.url url fault))) := by
  refine ⟨?_, fun d step e failed => Draft.apply_of_fault failed d, ?_⟩
  · intro e failed
    have faulty : (steps.foldl Draft.apply { method, path }).fault = some e := by
      rw [(Draft.foldl_adds steps _).fault, failed]
      rfl
    have refused := build_of_fault (c := c) faulty
    exact ⟨refused, send_of_build_error refused⟩
  · intro d clean
    constructor
    · intro fault bad
      exact send_of_build_error (build_of_bad_target clean bad)
    · intro url fault joined bad
      exact send_of_build_error (build_of_bad_url clean joined bad)

-- A boundary is looked at before the document that goes with it.
example :
    [.query "q" "1", .multipart ⟨"a\nb"⟩ (.unsupported "T"), .header "bad name" "v"].findSome?
      Draft.Step.fault? = some (.request (.boundary "a\nb")) := by decide +kernel

end Client

end Courier
