import Courier.Proofs.Client.Draft
import Courier.Proofs.Client.Headers
/-!
The time limit under which a draft is sent.

A limit for one call is given as a step of its own or with the options of the call, and the last one
given counts, ahead of the limit of the client. But options are replaced as a whole: options without
a limit take away the one that was given before them. `last_limit_applies` is the main result.
-/

namespace Courier

namespace Draft

/-- The limit that a step gives the call. -/
def Step.limit? : Step → Option Duration
  | .timeout limit => some limit
  | .options o => o.timeout
  | _ => none

/-- What a step leaves as the limit of the call, if it touches it. -/
def Step.leavesLimit? : Step → Option (Option Duration)
  | .timeout limit => some (some limit)
  | .options o => some o.timeout
  | _ => none

/-- The last step that touches the limit brings options without one. -/
def Erased (steps : List Step) : Prop :=
  ∃ before o after, steps = before ++ .options o :: after ∧ o.timeout = none ∧
    ∀ step ∈ after, step.leavesLimit? = none

theorem Step.limit?_eq (step : Step) : step.limit? = step.leavesLimit?.join := by
  cases step <;> rfl

theorem Settles.options {d next : Draft} {step : Step} (settles : d.Settles step next) :
    next.options = d.options := by
  obtain ⟨e, -, rfl⟩ | ⟨-, headers, body, rfl⟩ := settles
  · rw [fail_eq]
  · rfl

theorem apply_timeout (d : Draft) (step : Step) :
    (d.apply step).options.timeout = step.leavesLimit?.getD d.options.timeout := by
  cases step with
  | header name value => rw [apply, (d.setHeader_settles name value).options]; rfl
  | form v => rw [apply, (d.setForm_settles v).options]; rfl
  | multipart boundary v => rw [apply, (d.setMultipart_settles boundary v).options]; rfl
  | json datum => rw [apply, (d.setJson_settles datum).options]; rfl
  | queryOpt name value => cases value <;> rfl
  | param | query | body | document | options | timeout => rfl

theorem foldl_timeout (steps : List Step) (d : Draft) :
    (steps.foldl apply d).options.timeout =
      (lastSaid Step.leavesLimit? steps).getD d.options.timeout := by
  induction steps generalizing d with
  | nil => rfl
  | cons step steps ih =>
    rw [List.foldl_cons, ih, apply_timeout, lastSaid_cons]
    cases lastSaid Step.leavesLimit? steps <;> rfl

theorem erased_iff (steps : List Step) :
    Erased steps ↔ lastSaid Step.leavesLimit? steps = some none := by
  rw [lastSaid_eq_some_iff]
  constructor
  · rintro ⟨before, o, after, split, none, silent⟩
    exact ⟨before, .options o, after, split, congrArg some none, silent⟩
  · rintro ⟨before, step, after, split, leaves, silent⟩
    cases step with
    | options o => exact ⟨before, o, after, split, Option.some.inj leaves, silent⟩
    | timeout limit => cases leaves
    | param | query | queryOpt | header | body | form | multipart | json | document => cases leaves

/-- Where the last step that touches the limit leaves one, it is the last one given. -/
theorem lastSaid_limit? {steps : List Step} (kept : ¬ Erased steps) :
    lastSaid Step.limit? steps = (lastSaid Step.leavesLimit? steps).join := by
  have silent {step : Step} (untouched : step.leavesLimit? = none) : step.limit? = none := by
    rw [step.limit?_eq, untouched]
    rfl
  cases last : lastSaid Step.leavesLimit? steps with
  | none =>
    rw [lastSaid_eq_none_iff] at last
    exact lastSaid_eq_none_iff.mpr fun step mem => silent (last step mem)
  | some left =>
    cases left with
    | none => exact absurd ((erased_iff steps).mpr last) kept
    | some limit =>
      obtain ⟨before, step, after, split, leaves, later⟩ := lastSaid_eq_some_iff.mp last
      refine lastSaid_eq_some_iff.mpr ⟨before, step, after, split, ?_, ?_⟩
      · rw [step.limit?_eq, leaves]
        rfl
      · intro other mem
        exact silent (later other mem)

end Draft

namespace Client

/-- The call of a draft under a given limit. -/
def sendUnder (c : Client) (d : Draft) (limit : Option Duration) : Call :=
  match c.build d with
  | .error e => .done (.error e)
  | .ok request => c.dispatch request limit

theorem assemble_limit {c : Client} {d : Draft} {request : Request} {limit : Option Duration}
    (assembled : c.assemble d = .ok (request, limit)) : limit = d.options.timeout.or c.timeout := by
  unfold assemble at assembled
  split at assembled
  · cases assembled
  · split at assembled
    · cases assembled
    · split at assembled
      · cases assembled
      · cases assembled
        rfl

theorem send_eq_sendUnder (c : Client) (d : Draft) :
    c.send d = c.sendUnder d (d.options.timeout.or c.timeout) := by
  unfold send sendUnder build
  cases assembled : c.assemble d with
  | error e => rfl
  | ok parts =>
    obtain ⟨request, limit⟩ := parts
    rw [assemble_limit assembled]
    rfl

/-- A draft is sent under the limit that its steps gave last, in a step of its own or with options,
and under the limit of the client only if they gave none, unless options without a limit came after
it: then the limit of the client applies, whatever was given before them. -/
theorem last_limit_applies (c : Client) (method path : String) (steps : List Draft.Step) :
    let d := steps.foldl Draft.apply { method, path }
    (¬ Draft.Erased steps →
      c.send d = c.sendUnder d ((lastSaid Draft.Step.limit? steps).or c.timeout)) ∧
    (Draft.Erased steps → c.send d = c.sendUnder d c.timeout) := by
  intro d
  have left : d.options.timeout = (lastSaid Draft.Step.leavesLimit? steps).join := by
    rw [Draft.foldl_timeout]
    cases lastSaid Draft.Step.leavesLimit? steps <;> rfl
  constructor
  · intro kept
    rw [send_eq_sendUnder, left, Draft.lastSaid_limit? kept]
  · intro erased
    rw [send_eq_sendUnder, left, (Draft.erased_iff steps).mp erased]
    rfl

private def unanswered : Client :=
  { baseUrl := "http://localhost", headers := .empty, timeout := some (.ofMilliseconds 100),
    chain := .empty, exchange := fun _ => .never }

private def asked : Request := { method := "GET", uri := ⟨some "http", some "localhost", "/", none⟩ }

private def renewed : List Draft.Step :=
  [.timeout (.ofMilliseconds 9), .options {}, .timeout (.ofMilliseconds 5), .query "q" "1"]

/-- Options without a limit do no harm to one that is given after them. -/
theorem last_limit_applies_renewed :
    unanswered.send (renewed.foldl Draft.apply { method := "GET", path := "" }) =
      unanswered.sendUnder (renewed.foldl Draft.apply { method := "GET", path := "" })
        (some (.ofMilliseconds 5)) := by
  have kept : ¬ Draft.Erased renewed := by
    rw [Draft.erased_iff]
    decide
  exact (last_limit_applies unanswered "GET" "" renewed).1 kept

private def erasing : List Draft.Step := [.timeout (.ofMilliseconds 5), .options {}]

/-- Five milliseconds are given and then options without a limit: the call is not given up after
these, but after the hundred of the client. -/
theorem limit_lost_behind_options :
    lastSaid Draft.Step.limit? erasing = some (.ofMilliseconds 5) ∧
      ((unanswered.send (erasing.foldl Draft.apply { method := "GET", path := "" })).run 0 0).ending =
        some (100, .error (.timeout (.ofMilliseconds 100))) ∧
      ((unanswered.sendUnder (erasing.foldl Draft.apply { method := "GET", path := "" })
          (some (.ofMilliseconds 5))).run 0 0).ending =
        some (5, .error (.timeout (.ofMilliseconds 5))) := by
  have built : unanswered.build (erasing.foldl Draft.apply { method := "GET", path := "" }) =
      .ok asked := by decide +kernel
  refine ⟨by decide, ?_, ?_⟩
  · rw [send_eq_sendUnder, sendUnder, built]
    rfl
  · rw [sendUnder, built]
    rfl

end Client

end Courier
