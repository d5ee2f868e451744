import Courier.Client.Basic
/-!
What clients and requests are assembled from. Everything later said about a client that was built,
or about a request that a draft stands for, starts from `Config.build_ok` and `build_ok`.
-/

namespace Courier

instance decEqExcept {ε α : Type} [DecidableEq ε] [DecidableEq α] : DecidableEq (Except ε α)
  | .ok a, .ok b => decidable_of_iff (a = b) ⟨congrArg _, Except.ok.inj⟩
  | .error e, .error e' => decidable_of_iff (e = e') ⟨congrArg _, Except.error.inj⟩
  | .ok _, .error _ => isFalse nofun
  | .error _, .ok _ => isFalse nofun

namespace Client

/-- The slashes at the end of a base URL are all that is taken from it. -/
theorem Config.trimmed_append (url : String) :
    ∃ slashes : List Char, url.toList = (trimmed url).toList ++ slashes ∧
      ∀ c ∈ slashes, c = '/' := by
  refine ⟨(url.toList.reverse.takeWhile (· == '/')).reverse, ?_, ?_⟩
  · rw [trimmed, String.toList_ofList, ← List.reverse_append, List.takeWhile_append_dropWhile,
      List.reverse_reverse]
  · intro c mem
    have slash := List.all_eq_true.mp List.all_takeWhile c (List.mem_reverse.mp mem)
    exact beq_iff_eq.mp slash

/-- A client has the settings it was built from, with an absolute base URL. -/
theorem Config.build_ok {config : Config} {network : Exchange} {c : Client}
    (h : config.build network = .ok c) :
    c = ⟨trimmed config.baseUrl, config.headers, config.timeout, config.chain,
        config.exchange.getD network⟩ ∧
      ∃ base, Uri.parse c.baseUrl = .ok base ∧ base.scheme.isSome ∧ base.authority.isSome := by
  simp only [Config.build] at h
  split at h
  · cases h
  next base read =>
    split at h
    · cases h
    next absolute =>
      cases h
      simp only [Bool.or_eq_true, Option.isNone_iff_eq_none, not_or] at absolute
      exact ⟨rfl, base, read, Option.isSome_iff_ne_none.mpr absolute.1,
        Option.isSome_iff_ne_none.mpr absolute.2⟩

theorem Config.build_of_parse {config : Config} {url : String} {base : Uri}
    (cut : trimmed config.baseUrl = url) (read : Uri.parse url = .ok base)
    (absolute : base.scheme.isSome ∧ base.authority.isSome) (network : Exchange) :
    config.build network =
      .ok ⟨url, config.headers, config.timeout, config.chain, config.exchange.getD network⟩ := by
  have known : (base.scheme.isNone || base.authority.isNone) = false := by
    simp [absolute.1, absolute.2]
  simp [Config.build, cut, read, known]

/-- The base URL as it is given is that of the client, with slashes behind it. -/
theorem Config.build_slashes {config : Config} {network : Exchange} {c : Client}
    (built : config.build network = .ok c) :
    ∃ slashes : List Char, config.baseUrl.toList = c.baseUrl.toList ++ slashes ∧
      ∀ m ∈ slashes, m = '/' := by
  rw [(build_ok built).1]
  exact trimmed_append config.baseUrl

/-- A draft without a fault whose URL can be read stands for a request to that URL. -/
theorem build_ok {c : Client} {d : Draft} {request : Request} (h : c.build d = .ok request) :
    d.fault = none ∧
      (∃ url, Target.build c.baseUrl d.path d.params d.query = .ok url ∧
        Uri.parse url = .ok request.uri) ∧
      request.method = d.method ∧ request.body = d.body ∧
      request.headers = (c.headers.extend d.headers).extend d.options.headers := by
  simp only [Client.build, assemble] at h
  split at h
  · cases h
  next clean =>
    split at h
    · cases h
    next url built =>
      split at h
      · cases h
      next uri read =>
        cases h
        exact ⟨clean, ⟨url, built, read⟩, rfl, rfl, rfl⟩

end Client

end Courier
