import Courier.Chain.Layer
import Courier.Chain.Script
import Courier.Proofs.Client.Assembly
/-!
Chains made of chains.

To an interceptor that does not count what is left, the rest of the chain is one function from
requests to calls. So a chain can be cut anywhere, and its first part around an exchange that runs
the second part does what the whole does (`forward_append`). A chain that grows link by link is the
chain of the list of its links, in a client as elsewhere. `chains_compose` is the main result.
-/

namespace Courier

namespace Interceptor

/-- Does the same however many interceptors are left. -/
def IgnoresRemaining (i : Interceptor) : Prop :=
  ∀ request run m n, i request ⟨m, run⟩ = i request ⟨n, run⟩

theorem header_ignoresRemaining (name : HeaderName) (value : HeaderValue) :
    (header name value).IgnoresRemaining :=
  fun _ _ _ _ => rfl

theorem tracing_ignoresRemaining : tracing.IgnoresRemaining := fun _ _ _ _ => rfl

end Interceptor

namespace Chain

/-- The links of the first part see the second part and the exchange behind it as one exchange. -/
theorem forward_append {xs : List Interceptor} (ignore : ∀ link ∈ xs, link.IgnoresRemaining)
    (ys : List Interceptor) (exchange : Exchange) (request : Request) :
    forward exchange (xs ++ ys) request = forward (forward exchange ys) xs request := by
  induction xs generalizing request with
  | nil => rfl
  | cons link xs ih =>
    have rest : forward exchange (xs ++ ys) = forward (forward exchange ys) xs :=
      funext (ih fun link mem => ignore link (List.mem_cons_of_mem _ mem))
    calc link request ⟨(xs ++ ys).length, forward exchange (xs ++ ys)⟩
        = link request ⟨(xs ++ ys).length, forward (forward exchange ys) xs⟩ := by rw [rest]
      _ = link request ⟨xs.length, forward (forward exchange ys) xs⟩ :=
        ignore link List.mem_cons_self request _ _ _

theorem foldl_push (c : Chain) (links : List Interceptor) :
    links.foldl push c = ⟨c.links ++ links⟩ := by
  induction links generalizing c with
  | nil => simp
  | cons link links ih => simp [ih, push]

theorem foldl_push_empty (links : List Interceptor) : links.foldl push empty = ofList links := by
  rw [foldl_push]
  rfl

/-- A chain that has grown is the chain it was, around an exchange that runs what was added. -/
theorem proceed_foldl_push {c : Chain} (ignore : ∀ link ∈ c.links, link.IgnoresRemaining)
    (more : List Interceptor) (exchange : Exchange) (request : Request) :
    (more.foldl push c).proceed exchange request =
      c.proceed ((ofList more).proceed exchange) request := by
  rw [foldl_push]
  exact forward_append ignore more exchange request

/-- The chains that a chain grows through stay as they are when it grows further. -/
theorem scanl_push (c : Chain) (links more : List Interceptor) {i : Nat} (early : i ≤ links.length) :
    ((links ++ more).scanl push c)[i]? = some ⟨c.links ++ links.take i⟩ := by
  have within : i ≤ (links ++ more).length := by
    rw [List.length_append]
    omega
  rw [List.getElem?_scanl, if_pos within, foldl_push, List.take_append_of_le_length early]

end Chain

namespace Client.Config

/-- Interceptors are added to the chain of a client, and its other settings stay as they are. -/
theorem foldl_addInterceptor (config : Config) (links : List Interceptor) :
    links.foldl addInterceptor config =
      { config with chain := links.foldl Chain.push config.chain } := by
  induction links generalizing config with
  | nil => rfl
  | cons link links ih => exact ih (config.addInterceptor link)

end Client.Config

namespace Chain

/-- A chain of two parts does what the first part does around an exchange that runs the second, if the
links of the first part do not count what is left. A chain that is given link by link, alone or to
the settings of a client, is the chain of the list of its links, and a chain that grows leaves every
chain it has been as it was. -/
theorem chains_compose :
    (∀ xs ys : List Interceptor, (∀ link ∈ xs, link.IgnoresRemaining) → ∀ exchange request,
      (ofList (xs ++ ys)).proceed exchange request =
        (ofList xs).proceed ((ofList ys).proceed exchange) request) ∧
    (∀ links : List Interceptor,
      links.foldl push empty = ofList links ∧ (ofList links).length = links.length ∧
      ∀ config : Client.Config, config.chain = empty →
        links.foldl Client.Config.addInterceptor config =
            { config with chain := ofList links } ∧
          ∀ network client, (links.foldl Client.Config.addInterceptor config).build network =
            .ok client → client.chain = ofList links) ∧
    ∀ (c : Chain) (links more : List Interceptor),
      (∀ i ≤ links.length, ∃ earlier, (links.scanl push c)[i]? = some earlier ∧
        ((links ++ more).scanl push c)[i]? = some earlier ∧
        ∀ exchange request,
          earlier.proceed exchange request =
            (ofList (c.links ++ links.take i)).proceed exchange request) ∧
      ((∀ link ∈ c.links, link.IgnoresRemaining) → ∀ exchange request,
        (more.foldl push c).proceed exchange request =
          c.proceed ((ofList more).proceed exchange) request) := by
  refine ⟨?_, ?_, ?_⟩
  · intro xs ys ignore exchange request
    exact forward_append ignore ys exchange request
  · intro links
    refine ⟨foldl_push_empty links, rfl, ?_⟩
    intro config start
    have grown : links.foldl Client.Config.addInterceptor config =
        { config with chain := ofList links } := by
      rw [Client.Config.foldl_addInterceptor, start, foldl_push_empty]
    refine ⟨grown, ?_⟩
    intro network client built
    rw [grown] at built
    rw [(Client.Config.build_ok built).1]
  · intro c links more
    refine ⟨?_, fun ignore => proceed_foldl_push ignore more⟩
    intro i early
    refine ⟨⟨c.links ++ links.take i⟩, ?_, scanl_push c links more early, fun _ _ => rfl⟩
    have alone := scanl_push c links [] early
    rwa [List.append_nil] at alone

private def fetch : Request := { method := "GET", uri := ⟨none, none, "/", none⟩ }

private def marks : Interceptor := .header ⟨"x-id"⟩ ⟨[49]⟩

private def marked : Request := fetch.setHeader ⟨"x-id"⟩ ⟨[49]⟩

/-- A link that does count what is left. It may stand in the second part. -/
private def counts : Layer := { label := "counts", before := [.wait (.ofMilliseconds 2)] }

/-- A tracing link and one that sets a header, around an exchange that runs two links and then answers
by a script. -/
theorem chains_compose_counted :
    (ofList [.tracing, marks, counts.intercept, marks]).proceed (Script.exchange [{}]) fetch =
        (ofList [.tracing, marks]).proceed
          ((ofList [counts.intercept, marks]).proceed (Script.exchange [{}])) fetch ∧
      (((ofList [.tracing, marks]).proceed
          ((ofList [counts.intercept, marks]).proceed (Script.exchange [{}])) fetch).run 0 0).events =
        [(0, .sending "GET" fetch.uri 0), (0, .entered "counts" 1 marked), (2, .exchanged 0 marked),
          (2, .left "counts" (.ok { status := .ok })), (2, .completed "GET" fetch.uri .ok)] := by
  have ignore : ∀ link ∈ [Interceptor.tracing, marks], link.IgnoresRemaining := by
    intro link mem
    obtain rfl | rfl : link = Interceptor.tracing ∨ link = marks := by
      simpa using mem
    · exact Interceptor.tracing_ignoresRemaining
    · exact Interceptor.header_ignoresRemaining _ _
  exact ⟨chains_compose.1 _ [counts.intercept, marks] ignore (Script.exchange [{}]) fetch, rfl⟩

end Chain

end Courier
