import Switchyard.Proofs.Cors.Announcing
import Switchyard.Proofs.Dispatch.Coverage
import Switchyard.Proofs.Dispatch.Shielding
/-!
# Pre-flight requests and the requests that they announce

Mappings whose sources have one policy for both answer both alike: the same miss, the same error, or
chains that this policy made. The pre-flight request asks that policy for what the announced one then
gets (`Dispatcher.preflight_faithful`). Sources that tell the two apart and requests that are continued
in the background are the exceptions (`Dispatcher.preflight_unfaithful`).
-/

namespace Switchyard

open Cors (Announces)

variable {σ : Type} {m : HandlerMapping σ} {ms : List (HandlerMapping σ)} {pre actual : Request}

theorem Cors.Announces.publishAll (h : Announces pre actual) (as : List Attribute) :
    Announces (pre.publishAll as) (actual.publishAll as) := by
  obtain ⟨attributes, hpre⟩ := pre.publishAll_eq as
  obtain ⟨attributes', hactual⟩ := actual.publishAll_eq as
  rw [hpre, hactual]
  exact { h with }

private theorem Request.publishAll_append (r : Request) (as bs : List Attribute) :
    r.publishAll (as ++ bs) = (r.publishAll as).publishAll bs := List.foldl_append

namespace HandlerMapping

/-- Looks for routes and keeps the rules of cross-origin requests. -/
structure IsRouted (m : HandlerMapping σ) : Prop where
  lookup : ∃ router, m.lookup = Lookup.byUrl router
  processor : m.corsProcessor = .standard

/-- The source has one policy for two requests, whatever is published on them. -/
def TreatsAlike (m : HandlerMapping σ) (r r' : Request) : Prop :=
  ∀ as, m.policyFor (r'.publishAll as) = m.policyFor (r.publishAll as)

private theorem treatsAlike_of_table {table : PolicyTable}
    (hsource : m.corsSource = some table.source)
    {r r' : Request} (hpath : r'.path = r.path) : m.TreatsAlike r r' := by
  intro as
  obtain ⟨attributes, h⟩ := r.publishAll_eq as
  obtain ⟨attributes', h'⟩ := r'.publishAll_eq as
  rw [policyFor, policyFor, hsource, h, h']
  change table.find? r'.path = table.find? r.path
  rw [hpath]

theorem TreatsAlike.publishAll {r r' : Request} (h : m.TreatsAlike r r') (as : List Attribute) :
    m.TreatsAlike (r.publishAll as) (r'.publishAll as) := by
  intro bs
  rw [← Request.publishAll_append, ← Request.publishAll_append]
  exact h (as ++ bs)

private theorem lookupMethod_pre (h : Announces pre actual) : lookupMethod pre = actual.method := by
  rw [lookupMethod, if_pos h.isPreflight_pre, h.judgedMethod?_pre, Option.getD_some]

private theorem lookupMethod_actual (h : Announces pre actual) :
    lookupMethod actual = actual.method := by
  rw [lookupMethod, if_neg (by simp [h.isPreflight_actual])]

private theorem find_announced (hm : m.IsRouted) (h : Announces pre actual) (w w' : World σ) :
    ((m.find actual).run w').1 = ((m.find pre).run w).1 := by
  obtain ⟨router, hlookup⟩ := hm.lookup
  rw [find_answer, find_answer, lookupMethod_pre h, lookupMethod_actual h, hlookup, byUrl_answer,
    byUrl_answer, h.path]

/-- Answers to a pre-flight request and to the one that it announces. -/
inductive Alike : Except DispatchError (Option (Chain σ)) →
    Except DispatchError (Option (Chain σ)) → Prop where
  | failed (e : DispatchError) : Alike (.error e) (.error e)
  | missed : Alike (.ok none) (.ok none)
  | served (policy : Option CorsPolicy) (handler : Handler σ) (rest : List (Interceptor σ)) :
    Alike (.ok (some { handler := CorsProcessor.standard.preFlightHandler policy }))
      (.ok (some {
        handler
        interceptors := policy.toList.map CorsProcessor.standard.interceptor ++ rest }))

private theorem chainFor_announced (hm : m.IsRouted) (halike : m.policyFor actual = m.policyFor pre)
    (h : Announces pre actual) (ref : HandlerRef σ) (w w' : World σ) :
    Alike (((m.chainFor pre ref).run w).1.map some)
      (((m.chainFor actual ref).run w').1.map some) := by
  cases hhandler : m.handlerOf ref with
  | error e =>
    rw [chainFor_of_error hhandler, chainFor_of_error hhandler]
    exact .failed e
  | ok handler =>
    cases hpolicy : effectivePolicy (m.policyFor pre) handler.cors with
    | error fault =>
      have hpolicy' := hpolicy
      rw [← halike] at hpolicy'
      rw [chainFor_of_fault hhandler hpolicy, chainFor_of_fault hhandler hpolicy']
      exact .failed (.cors fault)
    | ok policy =>
      have hpolicy' := hpolicy
      rw [← halike] at hpolicy'
      rw [chainFor_of_serves ⟨hhandler, hpolicy⟩, chainFor_of_serves ⟨hhandler, hpolicy'⟩,
        chainUnder, if_pos h.isPreflight_pre, chainUnder, if_neg (by simp [h.isPreflight_actual]),
        hm.processor]
      exact .served policy handler _

private theorem chainOf_announced (hm : m.IsRouted) (halike : m.policyFor actual = m.policyFor pre)
    (h : Announces pre actual)
    (found : Except DispatchError (Option (HandlerRef σ))) (w w' : World σ) :
    Alike ((m.chainOf pre found).run w).1 ((m.chainOf actual found).run w').1 := by
  rcases found with e | _ | ref
  · exact .failed e
  · exact .missed
  · rw [chainOf_some, chainOf_some]
    exact chainFor_announced hm halike h ref w w'

private theorem resolve_announced (hm : m.IsRouted) (halike : m.TreatsAlike pre actual)
    (h : Announces pre actual) (w w' : World σ) :
    Alike ((m.resolve pre).run w).1.1 ((m.resolve actual).run w').1.1 ∧
      ∃ as, ((m.resolve pre).run w).1.2 = pre.publishAll as ∧
        ((m.resolve actual).run w').1.2 = actual.publishAll as := by
  have hfind := find_announced hm h w w'
  rw [resolve_run, resolve_run]
  generalize (m.find pre).run w = answer at hfind
  generalize (m.find actual).run w' = answer' at hfind
  obtain ⟨⟨found, published⟩, w₁⟩ := answer
  obtain ⟨_, w₁'⟩ := answer'
  cases hfind
  have hpublished := h.publishAll published
  exact ⟨chainOf_announced hm (halike published) hpublished found w₁ w₁', published, rfl, rfl⟩

end HandlerMapping

namespace Dispatcher

open HandlerMapping CorsProcessor

private theorem chainFor_announced (hms : ∀ m ∈ ms, m.IsRouted)
    (halike : ∀ m ∈ ms, m.TreatsAlike pre actual) (h : Announces pre actual) (w w' : World σ) :
    Alike ((chainFor ms pre).run w).1.1 ((chainFor ms actual).run w').1.1 ∧
      ∃ as, ((chainFor ms pre).run w).1.2 = pre.publishAll as ∧
        ((chainFor ms actual).run w').1.2 = actual.publishAll as := by
  induction ms generalizing pre actual w w' with
  | nil => exact ⟨.missed, [], rfl, rfl⟩
  | cons m ms ih =>
    rw [List.forall_mem_cons] at hms halike
    obtain ⟨hresults, as, hpre, hactual⟩ := resolve_announced hms.1 halike.1 h w w'
    simp only [chainFor, StateT.run_bind]
    generalize (m.resolve pre).run w = answer at hresults hpre
    generalize (m.resolve actual).run w' = answer' at hresults hactual
    obtain ⟨⟨result, pre'⟩, w₁⟩ := answer
    obtain ⟨⟨result', actual'⟩, w₁'⟩ := answer'
    dsimp only at hresults hpre hactual
    subst hpre hactual
    cases hresults with
    | failed e => exact ⟨.failed e, as, rfl, rfl⟩
    | missed =>
      obtain ⟨hresults, bs, hpre, hactual⟩ :=
        ih hms.2 (fun m' hm' => (halike.2 m' hm').publishAll as) (h.publishAll as) w₁ w₁'
      refine ⟨hresults, as ++ bs, ?_, ?_⟩
      · rw [Request.publishAll_append]
        exact hpre
      · rw [Request.publishAll_append]
        exact hactual
    | served policy handler rest => exact ⟨.served policy handler rest, as, rfl, rfl⟩

private theorem preFlightHandler_run (policy : Option CorsPolicy) (req : Request) (res : Response)
    (w : World σ) :
    (((standard.preFlightHandler policy : Handler σ).run req res).run w).1 =
      (.ok .handled, (Cors.process policy req res).response) := by
  change ((standard policy req res >>= _ : Act σ _).run w).1 = _
  rw [StateT.run_bind, standard_run]
  rfl

private theorem interceptor_continued (policy : CorsPolicy) {call : Call} (res : Response)
    (w : World σ) (htype : call.request.dispatchType = .async) :
    ((standard.interceptor policy : Interceptor σ).preHandle call res).run w =
      ((.ok true, res), w) := by
  rw [interceptor]
  dsimp only
  rw [if_pos htype]
  rfl

/-- The guards of a policy that allows a request let it pass with the answer to its origin, and
leave a request that is continued in the background alone. -/
private theorem guards_pass {policy : Option CorsPolicy} (call : Call) {res : Response}
    (hpre : Cors.isPreflight call.request = false)
    (hallowed : (Cors.process policy call.request res).allowed) (w : World σ) :
    ∃ cursor res' w', (Chain.preHandleEach call
      (Chain.placed (policy.toList.map standard.interceptor)) none res).run w =
        ((.passed, cursor, res'), w') ∧
      (call.request.dispatchType = .request → res'.header? Cors.allowOrigin =
        (Cors.process policy call.request res).response.header? Cors.allowOrigin) ∧
      (call.request.dispatchType = .async → res' = res) := by
  cases policy with
  | none =>
    exact ⟨none, res, w, rfl, fun _ => (Cors.header?_process_none hpre res).symm, fun _ => rfl⟩
  | some policy =>
    cases htype : call.request.dispatchType with
    | request =>
      let verdict := Cors.process (some policy) call.request res
      refine ⟨some 0, verdict.response, w.reportedAll verdict.event.toList, ?_, fun _ => rfl,
        by simp⟩
      change ((standard.interceptor policy).preHandle call res >>= _ : Act σ _).run w = _
      rw [StateT.run_bind, interceptor_run policy res w htype, hallowed]
      rfl
    | async =>
      refine ⟨some 0, res, w, ?_, by simp, fun _ => rfl⟩
      change ((standard.interceptor policy).preHandle call res >>= _ : Act σ _).run w = _
      rw [StateT.run_bind, interceptor_continued policy res w htype]
      rfl

/-- A pre-flight request gets the miss or the error that the announced request gets; or else the
processor answers it by the policy whose guards stand first in the chain of the announced request.
When it accepts, they let that request pass and answer its origin alike, unless it is one that is
continued in the background: to its response they add nothing. -/
theorem preflight_faithful (hms : ∀ m ∈ ms, m.IsRouted)
    (halike : ∀ m ∈ ms, m.TreatsAlike pre actual) (h : Announces pre actual) (w w' : World σ) :
    let (result, pre') := ((chainFor ms pre).run w).1
    let (result', actual') := ((chainFor ms actual).run w').1
    (result = .ok none ↔ result' = .ok none) ∧ (∀ e, result = .error e ↔ result' = .error e) ∧
      ∀ c c', result = .ok (some c) → result' = .ok (some c') →
        ∃ policy rest, c = { handler := standard.preFlightHandler policy } ∧
          c' = { handler := c'.handler
                 interceptors := policy.toList.map standard.interceptor ++ rest } ∧
          ∀ (res : Response) (w : World σ),
            ((c.handler.run pre' res).run w).1 =
              (.ok .handled, (Cors.process policy pre' res).response) ∧
            ((Cors.process policy pre' res).allowed →
              ∃ cursor res' w', (Chain.preHandleEach (c'.call actual')
                (Chain.placed (policy.toList.map standard.interceptor)) none res).run w =
                  ((.passed, cursor, res'), w') ∧
                (actual.dispatchType = .request → res'.header? Cors.allowOrigin =
                  (Cors.process policy pre' res).response.header? Cors.allowOrigin) ∧
                (actual.dispatchType = .async → res' = res)) := by
  obtain ⟨hresults, as, hpre, hactual⟩ := chainFor_announced hms halike h w w'
  generalize ((chainFor ms pre).run w).1 = answer at hresults hpre
  generalize ((chainFor ms actual).run w').1 = answer' at hresults hactual
  obtain ⟨result, pre'⟩ := answer
  obtain ⟨result', actual'⟩ := answer'
  dsimp only at hresults hpre hactual ⊢
  have hannounces : Announces pre' actual' := by
    rw [hpre, hactual]
    exact h.publishAll as
  have htype : actual'.dispatchType = actual.dispatchType := by
    obtain ⟨attributes, hpublished⟩ := actual.publishAll_eq as
    rw [hactual, hpublished]
  cases hresults with
  | failed e => simp
  | missed => simp
  | served policy handler rest =>
    refine ⟨by simp, by simp, ?_⟩
    rintro c c' ⟨⟩ ⟨⟩
    refine ⟨policy, rest, rfl, rfl, ?_⟩
    intro res w
    refine ⟨preFlightHandler_run policy pre' res w, ?_⟩
    intro hallowed
    obtain ⟨hpasses, hanswer⟩ := Cors.process_announced hannounces policy hallowed
    rw [← hanswer, ← htype]
    exact guards_pass ⟨actual', handler.name⟩ hannounces.isPreflight_actual hpasses w

def deleter : Handler Unit where
  name := "delete"
  cors := some { allowedOrigins := some ["https://x.example"] }
  run _ res := return (.ok .handled, res)

/-- A request to it, before and after leave is asked. -/
def askDelete : Request where
  method := .options
  path := "/a/x"
  headers := [("Origin", "https://x.example"), ("Access-Control-Request-Method", "DELETE")]

def delete : Request where
  method := ⟨"DELETE"⟩
  path := "/a/x"
  headers := [("Origin", "https://x.example")]

private theorem delete_announced : Announces askDelete delete := by constructor <;> decide

/-- A mapping without routes that serves everything by that handler. -/
def fallback (source : Request → Option CorsPolicy) : HandlerMapping Unit where
  lookup := Lookup.byUrl ⟨[]⟩
  defaultHandler := some (.raw deleter)
  corsSource := some source

/-- A policy for all requests, and one for pre-flight requests only. -/
def plain : HandlerMapping Unit := fallback fun _ => some { allowedMethods := some ["DELETE"] }

def wary : HandlerMapping Unit := fallback fun req =>
  if req.method = .options then some { allowedMethods := some ["DELETE"] } else none

/-- What becomes of a request when there is one mapping. -/
def dispatched (m : HandlerMapping Unit) (req : Request) :
    Except DispatchError (DispatchOutcome Unit) :=
  ((dispatch { mappings := [m] } req).run ⟨(), #[], #[], #[], #[]⟩).1

/-- By a policy for pre-flight requests only, one is accepted and the announced request refused. A
request that is continued in the background gets no answer to its origin. -/
theorem preflight_unfaithful :
    (wary.IsRouted ∧ Announces askDelete delete ∧
      (∃ x, dispatched wary askDelete = .ok (.completed x) ∧
        x.response.header? Cors.allowOrigin = some "https://x.example") ∧
      ∃ x, dispatched wary delete = .ok (.rejected x)) ∧
    plain.IsRouted ∧ Announces askDelete { delete with dispatchType := .async } ∧
      (∃ x, dispatched plain askDelete = .ok (.completed x) ∧
        x.response.header? Cors.allowOrigin = some "https://x.example") ∧
      ∃ x, dispatched plain { delete with dispatchType := .async } = .ok (.completed x) ∧
        x.response.header? Cors.allowOrigin = none := by
  refine ⟨⟨⟨⟨_, rfl⟩, rfl⟩, delete_announced, ⟨_, rfl, rfl⟩, _, rfl⟩, ⟨⟨_, rfl⟩, rfl⟩, ?_,
    ⟨_, rfl, rfl⟩, _, rfl, rfl⟩
  exact { delete_announced with }

def deletion (pattern : PathPattern) : Route (HandlerRef Unit) :=
  { pattern, methods := [⟨"DELETE"⟩], target := .raw deleter }

/-- The mapping of that route, with a policy for its paths. -/
def deleting (pattern : PathPattern) : HandlerMapping Unit where
  lookup := Lookup.byUrl ⟨[deletion pattern]⟩
  corsSource := some (PolicyTable.source [(pattern, { allowedMethods := some ["DELETE"] })])

private theorem deleting_isRouted (pattern : PathPattern) :
    (deleting pattern).IsRouted := ⟨⟨_, rfl⟩, rfl⟩

private theorem deleting_resolves {pattern : PathPattern} (req : Request)
    (hserve : pattern.isMatch req.path) (hmethod : lookupMethod req = ⟨"DELETE"⟩)
    (w : World Unit) :
    ∃ published, ((chainFor [deleting pattern] req).run w).1 =
      (.ok (some ((deleting pattern).chainUnder (req.publishAll published) (.raw deleter) deleter
        (some {
          allowedOrigins := some ["https://x.example"]
          allowedMethods := some ["DELETE"] }))), req.publishAll published) := by
  obtain ⟨params, hparams⟩ := PathPattern.matchPath_of_isMatch hserve
  have hroute : Router.route? ⟨[deletion pattern]⟩ (lookupMethod req) req.path =
      some ⟨deletion pattern, params⟩ := by
    simp [deletion, hmethod, Router.route?, Router.best?, Router.candidates, Route.accepts, hparams,
      Router.better]
  have hfind := congrArg (·.1) (find_byUrl (m := deleting pattern) rfl hroute w)
  refine ⟨_, chainFor_of_serves hfind ⟨rfl, ?_⟩⟩
  have hsource : PolicyTable.find? [(pattern, { allowedMethods := some ["DELETE"] })] req.path =
      some { allowedMethods := some ["DELETE"] } := by
    simp [PolicyTable.find?, hserve]
  change effectivePolicy (PolicyTable.find? _ (req.publishAll _).path) _ = _
  obtain ⟨attributes, hpublished⟩ := req.publishAll_eq (Lookup.published ⟨deletion pattern, params⟩)
  rw [hpublished, hsource]
  rfl

theorem preflight_faithful_delete :
    ∃ pattern, PathPattern.parse ("/a" ++ "/" ++ ("\x7b" ++ "id" ++ "\x7d")) = .ok pattern ∧
      (deleting pattern).IsRouted ∧ (deleting pattern).TreatsAlike askDelete delete ∧
      Announces askDelete delete ∧
      ∃ c pre', ((chainFor [deleting pattern] askDelete).run ⟨(), #[], #[], #[], #[]⟩).1 =
          (.ok (some c), pre') ∧
        ∃ c' actual', ((chainFor [deleting pattern] delete).run ⟨(), #[], #[], #[], #[]⟩).1 =
            (.ok (some c'), actual') ∧
          ∃ policy rest, c'.interceptors = standard.interceptor policy :: rest ∧
            (Cors.process (some policy) pre' {}).allowed ∧
            ∃ cursor res' w', (Chain.preHandleEach (c'.call actual')
              (Chain.placed [standard.interceptor policy]) none {}).run ⟨(), #[], #[], #[], #[]⟩ =
                ((.passed, cursor, res'), w') ∧
              res'.header? Cors.allowOrigin = some "https://x.example" := by
  have hroot : Pattern.isSubtreeRoot "/a" := by decide
  have hname : Pattern.isVariableName "id".toList := by decide
  obtain ⟨pattern, hparse, hserved⟩ := PathPattern.parse_variable hroot hname
  have hserve : pattern.isMatch "/a/x" :=
    (hserved _).mpr ⟨"x", by decide, by decide, .inl (by decide)⟩
  have halike : (deleting pattern).TreatsAlike askDelete delete := treatsAlike_of_table rfl rfl
  let w : World Unit := ⟨(), #[], #[], #[], #[]⟩
  obtain ⟨published, hpre⟩ := deleting_resolves askDelete hserve rfl w
  obtain ⟨published', hactual⟩ := deleting_resolves delete hserve rfl w
  have hms : ∀ m ∈ [deleting pattern], m.IsRouted := by simp [deleting_isRouted]
  have halikes : ∀ m ∈ [deleting pattern], m.TreatsAlike askDelete delete := by simpa using halike
  have hfaithful := preflight_faithful hms halikes delete_announced w w
  rw [hpre, hactual] at hfaithful
  obtain ⟨-, -, hchains⟩ := hfaithful
  obtain ⟨policy, rest, hc, hc', hverdict⟩ := hchains _ _ rfl rfl
  obtain ⟨attributes, hpublished⟩ := askDelete.publishAll_eq published
  rw [hpublished] at hpre hc hverdict
  rw [chainUnder, if_pos (by rfl)] at hc
  have hpolicy := congrArg (fun c => c.handler.cors) hc
  dsimp only [CorsProcessor.preFlightHandler] at hpolicy
  subst hpolicy
  have hallowed : (Cors.process (some {
      allowedOrigins := some ["https://x.example"]
      allowedMethods := some ["DELETE"] }) { askDelete with attributes } {}).allowed := rfl
  obtain ⟨cursor, res', w', hpasses, hanswer, -⟩ := (hverdict {} w).2 hallowed
  exact ⟨pattern, hparse, deleting_isRouted pattern, halike, delete_announced, _, _, hpre, _, _,
    hactual, _, rest, congrArg Chain.interceptors hc', hallowed, cursor, res', w', hpasses,
    hanswer rfl⟩

end Dispatcher

end Switchyard
