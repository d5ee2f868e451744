import Courier.Proofs.Chain.Onion
/-!
Chains that set headers.

Each link replaces what a request has under one name and hands it on; the outcome comes back as it
is. So a chain of such links does what one call of the exchange with all the headers set would do,
where the last link that sets a name decides. `last_header_wins` is the main result.
-/

namespace Courier

namespace Request

/-- Sets headers one after the other. -/
def setFields (fields : List (HeaderName × HeaderValue)) (request : Request) : Request :=
  fields.foldl (fun r field => r.setHeader field.1 field.2) request

variable {fields : List (HeaderName × HeaderValue)} {name : HeaderName}

theorem setFields_frame (fields : List (HeaderName × HeaderValue)) (request : Request) :
    (request.setFields fields).method = request.method ∧
      (request.setFields fields).uri = request.uri ∧
      (request.setFields fields).body = request.body := by
  induction fields generalizing request with
  | nil => exact ⟨rfl, rfl, rfl⟩
  | cons field fields ih => exact ih (request.setHeader field.1 field.2)

theorem values_setFields_of_not_mem (unset : name ∉ fields.map Prod.fst) (request : Request) :
    (request.setFields fields).headers.values name = request.headers.values name := by
  induction fields generalizing request with
  | nil => rfl
  | cons field fields ih =>
    rw [List.map_cons] at unset
    have later := ih (List.not_mem_of_not_mem_cons unset) (request.setHeader field.1 field.2)
    exact later.trans (Headers.values_insert_of_ne _ _ (List.ne_of_not_mem_cons unset))

theorem values_setFields_last {before after : List (HeaderName × HeaderValue)} (v : HeaderValue)
    (last : name ∉ after.map Prod.fst) (request : Request) :
    (request.setFields (before ++ (name, v) :: after)).headers.values name = [v] := by
  have split : request.setFields (before ++ (name, v) :: after) =
      ((request.setFields before).setHeader name v).setFields after := by
    simp only [setFields, List.foldl_append, List.foldl_cons]
  rw [split, values_setFields_of_not_mem last]
  exact Headers.values_insert_self _ _ _

end Request

/-- The chain whose links set these headers, each link one of them. -/
def Chain.setting (fields : List (HeaderName × HeaderValue)) : Chain :=
  .ofList (fields.map fun field => .header field.1 field.2)

theorem Chain.proceed_setting (fields : List (HeaderName × HeaderValue)) (exchange : Exchange)
    (request : Request) :
    (Chain.setting fields).proceed exchange request = exchange (request.setFields fields) := by
  induction fields generalizing request with
  | nil => rfl
  | cons field fields ih => exact ih (request.setHeader field.1 field.2)

/-- A chain that sets headers makes one call of the exchange and ends as that call ends, whatever the
exchange does. The request it sends differs from the one it got only in its headers: a name that some
link sets has one value, that of the last such link, and any other name has the values it had. -/
theorem last_header_wins (fields : List (HeaderName × HeaderValue)) (request : Request) :
    ∃ sent : Request,
      (∀ exchange, (Chain.setting fields).proceed exchange request = exchange sent) ∧
      (∀ (answer : Nat → Exchange) (now drawn : Nat),
        let reply := (answer drawn sent).run now (drawn + 1)
        ((Chain.setting fields).proceed (Exchange.announced answer) request).run now drawn =
          ⟨(now, .exchanged drawn sent) :: reply.events, reply.drawn, reply.ending⟩) ∧
      sent.method = request.method ∧ sent.uri = request.uri ∧ sent.body = request.body ∧
      (∀ before name v after, fields = before ++ (name, v) :: after →
        name ∉ after.map Prod.fst → sent.headers.values name = [v]) ∧
      ∀ name, name ∉ fields.map Prod.fst →
        sent.headers.values name = request.headers.values name := by
  obtain ⟨method, uri, body⟩ := request.setFields_frame fields
  refine ⟨request.setFields fields, ?_, ?_, method, uri, body, ?_, ?_⟩
  · intro exchange
    exact Chain.proceed_setting fields exchange request
  · intro answer now drawn
    rw [Chain.proceed_setting]
    rfl
  · rintro before name v after rfl last
    exact Request.values_setFields_last v last request
  · intro name unset
    exact Request.values_setFields_of_not_mem unset request

private def mirror : Exchange := fun request =>
  .done (.ok { status := .ok, headers := request.headers })

private def doubled : Request :=
  { method := "GET", uri := ⟨none, none, "/", none⟩,
    headers := ⟨[(⟨"x-a"⟩, ⟨[49]⟩), (⟨"x-b"⟩, ⟨[50]⟩), (⟨"x-a"⟩, ⟨[51]⟩), (⟨"x-b"⟩, ⟨[52]⟩)]⟩ }

/-- A name with two values that is set twice, and one with two values that is left alone. -/
theorem last_header_wins_doubled :
    ∃ sent : Request,
      (Chain.setting [(⟨"x-a"⟩, ⟨[53]⟩), (⟨"x-c"⟩, ⟨[54]⟩), (⟨"x-a"⟩, ⟨[55]⟩)]).proceed mirror doubled =
          .done (.ok { status := .ok, headers := sent.headers }) ∧
        sent.headers.values ⟨"x-a"⟩ = [⟨[55]⟩] ∧ sent.headers.values ⟨"x-c"⟩ = [⟨[54]⟩] ∧
        sent.headers.values ⟨"x-b"⟩ = [⟨[50]⟩, ⟨[52]⟩] := by
  obtain ⟨sent, once, -, -, -, -, last, others⟩ :=
    last_header_wins [(⟨"x-a"⟩, ⟨[53]⟩), (⟨"x-c"⟩, ⟨[54]⟩), (⟨"x-a"⟩, ⟨[55]⟩)] doubled
  refine ⟨sent, once mirror, ?_, ?_, ?_⟩
  · exact last [(⟨"x-a"⟩, ⟨[53]⟩), (⟨"x-c"⟩, ⟨[54]⟩)] _ _ [] rfl (by decide)
  · exact last [(⟨"x-a"⟩, ⟨[53]⟩)] _ _ [(⟨"x-a"⟩, ⟨[55]⟩)] rfl (by decide)
  · exact (others ⟨"x-b"⟩ (by decide)).trans (by decide)

end Courier
