import Switchyard.Proofs.Dispatch.Calls
/-!
# The resolution of requests

What mappings make of a request, once for all that is said about it: a mapping that finds a handler
makes one chain, `chainUnder`, from that handler and the policy that applies to it
(`HandlerMapping.resolve_ok`), and the chain of a dispatch comes from one of its mappings
(`Dispatcher.chainFor_ok`).
-/

namespace Switchyard

variable {σ : Type}

theorem Request.publishAll_eq (req : Request) (as : List Attribute) :
    ∃ attributes, req.publishAll as = { req with attributes } := by
  induction as generalizing req with
  | nil => exact ⟨req.attributes, rfl⟩
  | cons a as ih => exact ih (req.publish a)

theorem Cors.isPreflight_publishAll (req : Request) (as : List Attribute) :
    isPreflight (req.publishAll as) = isPreflight req := by
  obtain ⟨attributes, h⟩ := req.publishAll_eq as
  rw [h]
  rfl

namespace HandlerMapping

variable {m : HandlerMapping σ} {req req' : Request} {ref : HandlerRef σ} {c : Chain σ}
  {w w' : World σ}

/-- The policy for the path of a request, which its handler's own is combined with. -/
def policyFor (m : HandlerMapping σ) (req : Request) : Option CorsPolicy :=
  m.corsSource.bind fun source => source req

/-- The chain of a handler under a policy: guarded by that, or with the answer to a pre-flight
request in the place of everything. -/
def chainUnder (m : HandlerMapping σ) (req : Request) (ref : HandlerRef σ) (handler : Handler σ)
    (policy : Option CorsPolicy) : Chain σ :=
  if Cors.isPreflight req then { handler := m.corsProcessor.preFlightHandler policy }
  else {
    handler
    interceptors := policy.toList.map m.corsProcessor.interceptor ++
      (ref.carried ++ InterceptorRegistry.matching m.interceptors req.path) }

/-- The handler behind a reference and the policy that applies to it for a request. -/
structure Serves (m : HandlerMapping σ) (req : Request) (ref : HandlerRef σ) (handler : Handler σ)
    (policy : Option CorsPolicy) : Prop where
  found : m.handlerOf ref = .ok handler
  effective : effectivePolicy (m.corsSource.bind fun source => source req) handler.cors = .ok policy

theorem chainFor_of_error {e : DispatchError} (h : m.handlerOf ref = .error e) :
    ((m.chainFor req ref).run w).1 = .error e := by
  rw [chainFor, h]
  rfl

theorem chainFor_of_fault {handler : Handler σ} {fault : CorsFault}
    (h : m.handlerOf ref = .ok handler)
    (hfault : effectivePolicy (m.policyFor req) handler.cors = .error fault) :
    ((m.chainFor req ref).run w).1 = .error (.cors fault) := by
  rw [policyFor] at hfault
  rw [chainFor, h]
  dsimp only
  rw [hfault]
  rfl

theorem chainFor_of_serves {handler : Handler σ} {policy : Option CorsPolicy}
    (hserves : m.Serves req ref handler policy) :
    ((m.chainFor req ref).run w).1 = .ok (m.chainUnder req ref handler policy) := by
  rw [chainFor, hserves.found, chainUnder]
  dsimp only
  rw [hserves.effective]
  cases Cors.isPreflight req <;> rfl

theorem chainFor_ok (made : (m.chainFor req ref).run w = (.ok c, w')) :
    ∃ handler policy, m.Serves req ref handler policy ∧
      c = m.chainUnder req ref handler policy := by
  have hresult : ((m.chainFor req ref).run w).1 = .ok c := congrArg (·.1) made
  cases hhandler : m.handlerOf ref with
  | error e =>
    rw [chainFor_of_error hhandler] at hresult
    cases hresult
  | ok handler =>
    cases hpolicy : effectivePolicy (m.policyFor req) handler.cors with
    | error fault =>
      rw [chainFor_of_fault hhandler hpolicy] at hresult
      cases hresult
    | ok policy =>
      have hserves : m.Serves req ref handler policy := ⟨hhandler, hpolicy⟩
      rw [chainFor_of_serves hserves] at hresult
      exact ⟨handler, policy, hserves, (Except.ok.inj hresult).symm⟩

private theorem chainFor_run_of_serves (hpre : Cors.isPreflight req = false) {handler : Handler σ}
    {policy : Option CorsPolicy} (hserves : m.Serves req ref handler policy) (w : World σ) :
    (m.chainFor req ref).run w = (.ok (m.chainUnder req ref handler policy), w) := by
  rw [chainFor, hserves.found, chainUnder, hpre]
  dsimp only
  rw [hserves.effective]
  rfl

/-- What is reported when a request got its chain. -/
def mappedEvent (req : Request) (handler : String) (interceptors : Nat) : Event :=
  .info "Handler mapped"
    [("method", .text req.method.name), ("path", .text req.path), ("handler", .text handler),
      ("interceptors", .number interceptors), ("preflight", .flag (Cors.isPreflight req))]

/-- What a mapping makes of that which it found. -/
def chainOf (m : HandlerMapping σ) (req : Request)
    (found : Except DispatchError (Option (HandlerRef σ))) :
    Act σ (Except DispatchError (Option (Chain σ))) :=
  match found with
  | .error e => return .error e
  | .ok none => return .ok none
  | .ok (some ref) => do
    match ← m.chainFor req ref with
    | .error e => return .error e
    | .ok chain =>
      Act.emit (mappedEvent req chain.handler.name chain.interceptors.length)
      return .ok (some chain)

theorem byUrl_answer (router : Router (HandlerRef σ)) (req : Request) (method : Method)
    (w : World σ) :
    ((Lookup.byUrl router req method).run w).1 =
      match router.route? method req.path with
      | none => (.ok none, [])
      | some found => (.ok (some found.route.target), Lookup.published found) := by
  rw [Lookup.byUrl, StateT.run_bind, Act.emitAll_run]
  cases router.route? method req.path <;> rfl

theorem find_answer (m : HandlerMapping σ) (req : Request) (w : World σ) :
    ((m.find req).run w).1 =
      let (found, published) := ((m.lookup req (lookupMethod req)).run w).1
      (found.map (·.or m.defaultHandler), published) := by
  rw [find, StateT.run_bind]
  generalize (m.lookup req (lookupMethod req)).run w = answer
  obtain ⟨⟨found, published⟩, w'⟩ := answer
  rcases found with e | _ | ref <;> cases m.defaultHandler <;> rfl

theorem resolve_run (m : HandlerMapping σ) (req : Request) (w : World σ) :
    (m.resolve req).run w =
      let ((found, published), w') := (m.find req).run w
      let (chain, w'') := (m.chainOf (req.publishAll published) found).run w'
      ((chain, req.publishAll published), w'') := by
  simp only [resolve, StateT.run_bind]
  generalize (m.find req).run w = answer
  obtain ⟨⟨found, published⟩, w'⟩ := answer
  cases found with
  | error e => rfl
  | ok ref? =>
    cases ref? with
    | none => rfl
    | some ref =>
      simp only [chainOf, bind, pure, StateT.run, StateT.bind]
      generalize m.chainFor (req.publishAll published) ref w' = made
      obtain ⟨result, w''⟩ := made
      cases result <;> rfl

theorem chainOf_some (m : HandlerMapping σ) (req : Request) (ref : HandlerRef σ) (w : World σ) :
    ((m.chainOf req (.ok (some ref))).run w).1 = ((m.chainFor req ref).run w).1.map some := by
  rw [chainOf, StateT.run_bind]
  generalize (m.chainFor req ref).run w = made
  obtain ⟨result, w'⟩ := made
  cases result <;> rfl

private theorem chainOf_ok {found : Except DispatchError (Option (HandlerRef σ))}
    (made : ((m.chainOf req found).run w).1 = .ok (some c)) :
    ∃ ref handler policy, m.Serves req ref handler policy ∧
      c = m.chainUnder req ref handler policy := by
  cases found with
  | error e => cases made
  | ok ref? =>
    cases ref? with
    | none => cases made
    | some ref =>
      rw [chainOf, StateT.run_bind] at made
      generalize hmade : (m.chainFor req ref).run w = answer at made
      obtain ⟨result, w₁⟩ := answer
      cases result with
      | error e => cases made
      | ok c' =>
        cases made
        exact ⟨ref, chainFor_ok hmade⟩

theorem chainOf_run_of_serves (hpre : Cors.isPreflight req = false) {handler : Handler σ}
    {policy : Option CorsPolicy} (hserves : m.Serves req ref handler policy) (w : World σ) :
    (m.chainOf req (.ok (some ref))).run w =
      (.ok (some (m.chainUnder req ref handler policy)), w.reported (mappedEvent req handler.name
        (m.chainUnder req ref handler policy).interceptors.length)) := by
  have hname : (m.chainUnder req ref handler policy).handler.name = handler.name := by
    rw [chainUnder, hpre]
    rfl
  rw [chainOf, StateT.run_bind, chainFor_run_of_serves hpre hserves, ← hname]
  rfl

theorem resolve_request (m : HandlerMapping σ) (req : Request) (w : World σ) :
    ∃ as, ((m.resolve req).run w).1.2 = req.publishAll as := by
  rw [resolve_run]
  exact ⟨((m.find req).run w).1.2, rfl⟩

theorem resolve_ok (found : (m.resolve req).run w = ((.ok (some c), req'), w')) :
    (∃ attributes, req' = { req with attributes }) ∧
      ∃ ref handler policy, m.Serves req' ref handler policy ∧
        c = m.chainUnder req' ref handler policy := by
  rw [resolve_run] at found
  generalize (m.find req).run w = answer at found
  obtain ⟨⟨lookedUp, published⟩, w₁⟩ := answer
  have hrequest : req.publishAll published = req' := congrArg (·.1.2) found
  have hchain : ((m.chainOf (req.publishAll published) lookedUp).run w₁).1 = .ok (some c) :=
    congrArg (·.1.1) found
  obtain ⟨attributes, hpublished⟩ := req.publishAll_eq published
  rw [hrequest] at hchain hpublished
  exact ⟨⟨attributes, hpublished⟩, chainOf_ok hchain⟩

end HandlerMapping

/-- The chain of a dispatch is that of one of the mappings, for the request as it came apart from
its attributes. -/
theorem Dispatcher.chainFor_ok {ms : List (HandlerMapping σ)} {req req' : Request}
    {w w' : World σ} {c : Chain σ} (found : (chainFor ms req).run w = ((.ok (some c), req'), w')) :
    (∃ attributes, req' = { req with attributes }) ∧
      ∃ m ∈ ms, ∃ ref handler policy, m.Serves req' ref handler policy ∧
        c = m.chainUnder req' ref handler policy := by
  induction ms generalizing req w with
  | nil => cases found
  | cons m ms ih =>
    obtain ⟨published, hrequest⟩ := m.resolve_request req w
    simp only [chainFor, StateT.run_bind] at found
    generalize hresolve : (m.resolve req).run w = answer at found hrequest
    obtain ⟨⟨result, req₁⟩, w₁⟩ := answer
    cases result with
    | error e => cases found
    | ok c? =>
      cases c? with
      | some c' =>
        cases found
        obtain ⟨hreq, hserves⟩ := HandlerMapping.resolve_ok hresolve
        exact ⟨hreq, m, List.mem_cons_self, hserves⟩
      | none =>
        obtain ⟨attributes, hpublished⟩ := req.publishAll_eq published
        obtain ⟨⟨attributes', hreq⟩, m', hm', hserves⟩ := ih found
        refine ⟨⟨attributes', ?_⟩, m', List.mem_cons_of_mem _ hm', hserves⟩
        rw [hreq, show req₁ = req.publishAll published from hrequest, hpublished]

theorem Dispatcher.chainFor_of_serves {m : HandlerMapping σ} {ms : List (HandlerMapping σ)}
    {ref : HandlerRef σ} {published : List Attribute} {handler : Handler σ}
    {policy : Option CorsPolicy} {req : Request} {w : World σ}
    (hfind : ((m.find req).run w).1 = (.ok (some ref), published))
    (hserves : m.Serves (req.publishAll published) ref handler policy) :
    ((chainFor (m :: ms) req).run w).1 =
      (.ok (some (m.chainUnder (req.publishAll published) ref handler policy)),
        req.publishAll published) := by
  simp only [chainFor, StateT.run_bind, m.resolve_run]
  generalize (m.find req).run w = answer at hfind
  obtain ⟨_, w'⟩ := answer
  cases hfind
  have hmade := HandlerMapping.chainFor_of_serves (w := w') hserves
  have hchain := m.chainOf_some (req.publishAll published) ref w'
  rw [hmade] at hchain
  dsimp only
  generalize (m.chainOf (req.publishAll published) (.ok (some ref))).run w' = made at hchain
  obtain ⟨_, w''⟩ := made
  cases hchain
  rfl

end Switchyard
