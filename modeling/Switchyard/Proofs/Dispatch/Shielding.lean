import Switchyard.Proofs.Dispatch.Resolution
/-!
# Shielding from cross-origin requests

Pre-flight requests, and requests that the CORS policy refuses, never reach the application: a
dispatch with any other code in place of the application's handlers and interceptors is the same
dispatch (`dispatch_recast`).
-/

namespace Switchyard

variable {σ : Type}

/-- Code to put in the place of an application's handlers and interceptors. -/
structure Recast (σ : Type) where
  run : Handler σ → Request → Response → Act σ (Except DispatchError Outcome × Response)
  interceptor : Interceptor σ → Interceptor σ

/-- The same handler to the outside, with other code. -/
def Handler.recast (c : Recast σ) (h : Handler σ) : Handler σ := { h with run := c.run h }

def HandlerRef.recast (c : Recast σ) : HandlerRef σ → HandlerRef σ
  | raw h => raw (h.recast c)
  | named n => named n
  | chain inner interceptors => chain (inner.recast c) (interceptors.map c.interceptor)

def HandlerRegistry.recast (c : Recast σ) (r : HandlerRegistry σ) : HandlerRegistry σ :=
  ⟨r.entries.map fun e => (e.1, e.2.recast c)⟩

def LookupAnswer.recast (c : Recast σ) (a : LookupAnswer σ) : LookupAnswer σ :=
  (a.1.map (Option.map (HandlerRef.recast c)), a.2)

def InterceptorRegistry.recast (c : Recast σ) (r : InterceptorRegistry σ) : InterceptorRegistry σ :=
  List.map (fun e : ScopedInterceptor σ => { e with interceptor := c.interceptor e.interceptor }) r

/-- The same routes, interceptor scopes and policies for other code. -/
def HandlerMapping.recast (c : Recast σ) (m : HandlerMapping σ) : HandlerMapping σ :=
  { m with
    lookup := fun req method => LookupAnswer.recast c <$> m.lookup req method
    registry := m.registry.map (HandlerRegistry.recast c)
    defaultHandler := m.defaultHandler.map (HandlerRef.recast c)
    interceptors := m.interceptors.recast c }

def Dispatcher.recast (c : Recast σ) (d : Dispatcher σ) : Dispatcher σ :=
  { d with mappings := d.mappings.map (HandlerMapping.recast c) }

section

variable (c : Recast σ)

private theorem HandlerRef.carried_recast (ref : HandlerRef σ) :
    (ref.recast c).carried = ref.carried.map c.interceptor := by
  induction ref with
  | raw h => rfl
  | named n => rfl
  | chain inner interceptors ih => rw [recast, carried, carried, ih, List.map_append]

private theorem HandlerRef.leaf_recast (ref : HandlerRef σ) :
    (ref.recast c).leaf = ref.leaf.map id (Handler.recast c) := by
  induction ref with
  | raw h => rfl
  | named n => rfl
  | chain inner interceptors ih => exact ih

private theorem HandlerRegistry.find?_recast (r : HandlerRegistry σ) (name : String) :
    (r.recast c).find? name = (r.find? name).map (Handler.recast c) := by
  rw [find?, find?, recast, List.find?_map, Option.map_map, Option.map_map]
  rfl

private theorem HandlerRegistry.resolve_recast (r : HandlerRegistry σ) (ref : HandlerRef σ) :
    (r.recast c).resolve (ref.recast c) = (r.resolve ref).map (Handler.recast c) := by
  rw [resolve, resolve, ref.leaf_recast]
  cases ref.leaf with
  | inr h => rfl
  | inl name =>
    simp only [Sum.map_inl, id, find?_recast]
    cases r.find? name with
    | none => rfl
    | some h => rfl

private theorem InterceptorRegistry.matching_recast (r : InterceptorRegistry σ) (path : String) :
    (r.recast c).matching path = (r.matching path).map c.interceptor := by
  rw [matching, matching, recast, List.filter_map, List.map_map, List.map_map]
  rfl

namespace HandlerMapping

variable (m : HandlerMapping σ)

private theorem handlerOf_recast (ref : HandlerRef σ) :
    (m.recast c).handlerOf (ref.recast c) = (m.handlerOf ref).map (Handler.recast c) := by
  rw [handlerOf, handlerOf, recast]
  cases m.registry with
  | none => exact HandlerRegistry.resolve_recast c {} ref
  | some r => exact HandlerRegistry.resolve_recast c r ref

private theorem find_recast (req : Request) :
    (m.recast c).find req = LookupAnswer.recast c <$> m.find req := by
  apply StateT.ext
  intro w
  simp only [find, recast, StateT.run_bind, StateT.run_map]
  generalize (m.lookup req (lookupMethod req)).run w = answer
  obtain ⟨⟨result, published⟩, w'⟩ := answer
  cases result with
  | error e => cases m.defaultHandler <;> rfl
  | ok ref? =>
    cases ref? with
    | some ref => cases m.defaultHandler <;> rfl
    | none => cases m.defaultHandler <;> rfl

end HandlerMapping

end

section

variable (c : Recast σ) {req : Request}

namespace HandlerMapping

private theorem chainFor_recast_of_preflight (m : HandlerMapping σ)
    (hpre : Cors.isPreflight req = true)
    (ref : HandlerRef σ) : (m.recast c).chainFor req (ref.recast c) = m.chainFor req ref := by
  rw [chainFor, chainFor, handlerOf_recast, hpre]
  cases m.handlerOf ref with
  | error e => rfl
  | ok handler => rfl

private theorem chainOf_recast_of_preflight (m : HandlerMapping σ)
    (hpre : Cors.isPreflight req = true) (found : Except DispatchError (Option (HandlerRef σ))) :
    (m.recast c).chainOf req (found.map (Option.map (HandlerRef.recast c))) =
      m.chainOf req found := by
  cases found with
  | error e => rfl
  | ok ref? =>
    cases ref? with
    | none => rfl
    | some ref =>
      have hchain := chainFor_recast_of_preflight c m hpre ref
      change ((m.recast c).chainFor req (ref.recast c) >>= _) = (m.chainFor req ref >>= _)
      rw [hchain]

private theorem resolve_recast_of_preflight (m : HandlerMapping σ)
    (hpre : Cors.isPreflight req = true) : (m.recast c).resolve req = m.resolve req := by
  apply StateT.ext
  intro w
  rw [resolve_run, resolve_run, find_recast, StateT.run_map]
  generalize (m.find req).run w = answer
  obtain ⟨⟨found, published⟩, w'⟩ := answer
  have hchain := chainOf_recast_of_preflight c m
    ((Cors.isPreflight_publishAll req published).trans hpre) found
  dsimp only [LookupAnswer.recast, Functor.map]
  rw [hchain]

end HandlerMapping

/-- A pre-flight request gets a chain without anything of the application. -/
private theorem Dispatcher.chainFor_of_preflight {ms : List (HandlerMapping σ)} {req' : Request}
    {w w' : World σ} {ch : Chain σ} (hpre : Cors.isPreflight req = true)
    (found : (chainFor ms req).run w = ((.ok (some ch), req'), w')) :
    ∃ m ∈ ms, ∃ policy, ch = { handler := m.corsProcessor.preFlightHandler policy } := by
  obtain ⟨⟨attributes, hreq⟩, m, hm, ref, handler, policy, -, hch⟩ := chainFor_ok found
  have hpre' : Cors.isPreflight req' = true := by
    rw [hreq]
    exact hpre
  refine ⟨m, hm, policy, ?_⟩
  rw [hch, HandlerMapping.chainUnder, hpre']
  rfl

private theorem Dispatcher.chainFor_recast_of_preflight (ms : List (HandlerMapping σ))
    (hpre : Cors.isPreflight req = true) :
    chainFor (ms.map (HandlerMapping.recast c)) req = chainFor ms req := by
  induction ms generalizing req with
  | nil => rfl
  | cons m ms ih =>
    apply StateT.ext
    intro w
    obtain ⟨published, hrequest⟩ := m.resolve_request req w
    simp only [List.map_cons, chainFor, StateT.run_bind, m.resolve_recast_of_preflight c hpre]
    generalize (m.resolve req).run w = answer at hrequest
    obtain ⟨⟨result, req'⟩, w'⟩ := answer
    have hpre' : Cors.isPreflight req' = true := by
      rw [show req' = req.publishAll published from hrequest, Cors.isPreflight_publishAll, hpre]
    cases result with
    | error e => rfl
    | ok c? =>
      cases c? with
      | some ch => rfl
      | none => exact congrArg (fun a => a.run w') (ih hpre')

end

namespace CorsProcessor

theorem standard_run (policy : Option CorsPolicy) (req : Request) (res : Response) (w : World σ) :
    ((standard policy req res : Act σ (Bool × Response)).run w) =
      (((Cors.process policy req res).allowed, (Cors.process policy req res).response),
        w.reportedAll (Cors.process policy req res).event.toList) := by
  rw [standard, StateT.run_bind, Act.emitAll_run]
  rfl

theorem interceptor_run (policy : CorsPolicy) {call : Call} (res : Response) (w : World σ)
    (htype : call.request.dispatchType = .request) :
    ((standard.interceptor policy : Interceptor σ).preHandle call res).run w =
      ((.ok (Cors.process (some policy) call.request res).allowed,
        (Cors.process (some policy) call.request res).response),
        w.reportedAll (Cors.process (some policy) call.request res).event.toList) := by
  have hasync : ¬ call.request.dispatchType = .async := by
    rw [htype]
    intro h
    cases h
  rw [interceptor]
  dsimp only
  rw [if_neg hasync, StateT.run_bind, standard_run]
  rfl

end CorsProcessor

def World.refused (w : World σ) (verdict : Cors.Verdict) : World σ :=
  ((w.reportedAll verdict.event.toList).reported
    (.debug "Interceptor pre_handle rejected request"
      [("interceptor", .text "CorsInterceptor"), ("interceptor_idx", .number 0)])).reported
    (.debug "Request rejected by interceptor" [("status", .number verdict.response.status)])

private theorem World.refused_eq (w : World σ) (verdict : Cors.Verdict) :
    ∃ journal, w.refused verdict = { w with journal } := by
  obtain ⟨journal, h⟩ := w.reportedAll_eq verdict.event.toList
  rw [refused, h]
  exact ⟨_, rfl⟩

namespace Dispatcher

/-- A chain behind a guard that refuses: neither its handler nor any other interceptor shows. -/
private theorem runChain_of_refused (d : Dispatcher σ) (handler : Handler σ)
    (is : List (Interceptor σ)) (policy : CorsPolicy) {req : Request} {res : Response} (w : World σ)
    (htype : req.dispatchType = .request)
    (hrefused : (Cors.process (some policy) req res).allowed = false) :
    (d.runChain { handler, interceptors := CorsProcessor.standard.interceptor policy :: is }
        ⟨req, res⟩).run w =
      (.ok (.rejected ⟨req, (Cors.process (some policy) req res).response⟩),
        w.refused (Cors.process (some policy) req res)) := by
  let guard : Interceptor σ := CorsProcessor.standard.interceptor policy
  let call : Call := ⟨req, handler.name⟩
  have hguard : (guard.preHandle call res).run w = _ :=
    CorsProcessor.interceptor_run policy res w htype
  have heach : (Chain.preHandleEach ⟨req, handler.name⟩ (Chain.placed (guard :: is)) none res).run w =
      ((.refused 0 guard, none, (Cors.process (some policy) req res).response),
        w.reportedAll (Cors.process (some policy) req res).event.toList) := by
    change (guard.preHandle call res >>= _ : Act σ _).run w = _
    rw [StateT.run_bind, hguard, hrefused]
    rfl
  rw [runChain, StateT.run_bind, Chain.preHandle, StateT.run_bind]
  dsimp only [Chain.call]
  rw [heach]
  rfl

theorem runChain_of_preflight (d : Dispatcher σ) (policy : Option CorsPolicy) (req : Request)
    (res : Response) (w : World σ) :
    (d.runChain { handler := CorsProcessor.standard.preFlightHandler policy } ⟨req, res⟩).run w =
      (.ok (.completed ⟨req, (Cors.process policy req res).response⟩),
        w.reportedAll (Cors.process policy req res).event.toList) := by
  let ch : Chain σ :=
    { handler := CorsProcessor.standard.preFlightHandler policy, state := .preHandling }
  have hinvoke : (ch.invoke req res).run w =
      ((.ok .handled, { ch with state := .handlerInvoking }, (Cors.process policy req res).response),
        w.reportedAll (Cors.process policy req res).event.toList) := by
    change ((CorsProcessor.standard policy req res >>= _ : Act σ _) >>= _ : Act σ _).run w = _
    rw [StateT.run_bind, StateT.run_bind, CorsProcessor.standard_run]
    rfl
  have hpre : (Chain.preHandle { handler := CorsProcessor.standard.preFlightHandler policy }
      req res).run w = ((.ok true, ch, res), w) := rfl
  rw [runChain, StateT.run_bind, hpre]
  change StateT.run (ch.invoke req res >>= _) w = _
  rw [StateT.run_bind, hinvoke]
  rfl

/-- The first mapping that finds something for a request, and what it finds. There is none when
nothing is found, or when a lookup fails before. -/
def winner : List (HandlerMapping σ) → Request →
    Act σ (Option (HandlerMapping σ × HandlerRef σ) × Request)
  | [], req => return (none, req)
  | m :: rest, req => do
    let (found, published) ← m.find req
    let req := req.publishAll published
    match found with
    | .ok none => winner rest req
    | .ok (some ref) => return (some (m, ref), req)
    | .error _ => return (none, req)

private theorem winner_recast (c : Recast σ) (ms : List (HandlerMapping σ)) (req : Request) :
    winner (ms.map (HandlerMapping.recast c)) req =
      (fun a => (a.1.map fun p => (p.1.recast c, p.2.recast c), a.2)) <$> winner ms req := by
  induction ms generalizing req with
  | nil => rfl
  | cons m ms ih =>
    apply StateT.ext
    intro w
    simp only [List.map_cons, winner, StateT.run_map, StateT.run_bind, m.find_recast]
    generalize (m.find req).run w = answer
    obtain ⟨⟨found, published⟩, w'⟩ := answer
    cases found with
    | error e => rfl
    | ok ref? =>
      cases ref? with
      | some ref => rfl
      | none => exact congrArg (fun a => a.run w') (ih (req.publishAll published))

variable {ms : List (HandlerMapping σ)} {m : HandlerMapping σ} {ref : HandlerRef σ}
  {req req' : Request} {w w' w'' : World σ}

/-- What follows from the mapping that serves a request, by going through those before it. -/
private theorem of_winner (won : (winner ms req).run w = ((some (m, ref), req'), w')) :
    m ∈ ms ∧ (∃ attributes, req' = { req with attributes }) ∧
      ∀ {ch w''}, (m.chainOf req' (.ok (some ref))).run w' = (.ok (some ch), w'') →
        (chainFor ms req).run w = ((.ok (some ch), req'), w'') := by
  induction ms generalizing req w with
  | nil => cases won
  | cons m' ms ih =>
    obtain ⟨attributes, hpublished⟩ := req.publishAll_eq ((m'.find req).run w).1.2
    simp only [winner, StateT.run_bind] at won
    simp only [chainFor, StateT.run_bind, m'.resolve_run]
    generalize (m'.find req).run w = answer at won hpublished
    obtain ⟨⟨found, published⟩, w₁⟩ := answer
    cases found with
    | error e => cases won
    | ok ref? =>
      cases ref? with
      | some ref' =>
        cases won
        refine ⟨List.mem_cons_self, ⟨attributes, hpublished⟩, ?_⟩
        intro ch w'' hchain
        dsimp only
        rw [hchain]
        rfl
      | none =>
        obtain ⟨hmem, ⟨attributes', hreq⟩, hchain⟩ := ih won
        refine ⟨List.mem_cons_of_mem _ hmem, ⟨attributes', ?_⟩, hchain⟩
        rw [hreq, show req.publishAll published = _ from hpublished]

/-- The policy that applies to a request, by the mapping that serves it, refuses it. -/
def Refuses (d : Dispatcher σ) (req : Request) (res : Response) (w : World σ) : Prop :=
  ∃ m ref req' w' handler policy,
    (winner d.mappings req).run w = ((some (m, ref), req'), w') ∧
    m.handlerOf ref = .ok handler ∧
    HandlerMapping.effectivePolicy (m.corsSource.bind fun source => source req') handler.cors =
      .ok policy ∧
    (Cors.process policy req' res).allowed = false

end Dispatcher

private theorem Cors.process_none_allowed {req : Request} (hpre : isPreflight req = false)
    (res : Response) : (process none req res).allowed = true := by
  rw [process, hpre]
  cases req.header? origin with
  | none => rfl
  | some o =>
    dsimp only
    split
    · rfl
    · split
      · rfl
      · rfl

namespace Dispatcher

private theorem dispatch_of_winner {d : Dispatcher σ} {m : HandlerMapping σ} {ref : HandlerRef σ}
    {req req' : Request} {w w' : World σ} {handler : Handler σ} {policy : CorsPolicy}
    (hm : m.corsProcessor = .standard) (htype : req'.dispatchType = .request)
    (hpre : Cors.isPreflight req' = false)
    (won : (winner d.mappings req).run w = ((some (m, ref), req'), w'))
    (hserves : m.Serves req' ref handler (some policy)) {res : Response}
    (hrefused : (Cors.process (some policy) req' res).allowed = false) :
    let is := ref.carried ++ InterceptorRegistry.matching m.interceptors req'.path
    let w₁ := w'.reported (HandlerMapping.mappedEvent req' handler.name (is.length + 1))
    ((chainFor d.mappings req).run w).2 = w₁ ∧
      (d.dispatch req res).run w =
        (.ok (.rejected ⟨req', (Cors.process (some policy) req' res).response⟩),
          w₁.refused (Cors.process (some policy) req' res)) := by
  intro is w₁
  have hunder : m.chainUnder req' ref handler (some policy) =
      { handler, interceptors := m.corsProcessor.interceptor policy :: is } := by
    rw [HandlerMapping.chainUnder, hpre]
    rfl
  have hmade := HandlerMapping.chainOf_run_of_serves hpre hserves w'
  rw [hunder] at hmade
  have hchain := (of_winner won).2.2 hmade
  refine ⟨?_, ?_⟩
  · rw [hchain]
    rfl
  · rw [dispatch, StateT.run_bind, hchain, hm]
    exact runChain_of_refused d handler is policy w₁ htype hrefused

private theorem dispatch_recast_of_preflight (d : Dispatcher σ) (c : Recast σ) {req : Request}
    (res : Response) (hpre : Cors.isPreflight req = true) :
    (d.recast c).dispatch req res = d.dispatch req res := by
  rw [dispatch, recast, chainFor_recast_of_preflight c d.mappings hpre]
  rfl

private theorem dispatch_of_preflight (d : Dispatcher σ)
    (hd : ∀ m ∈ d.mappings, m.corsProcessor = .standard) {req : Request} (res : Response)
    (w : World σ) (hpre : Cors.isPreflight req = true) :
    ∃ journal, ((d.dispatch req res).run w).2 =
      { ((chainFor d.mappings req).run w).2 with journal } := by
  rw [dispatch, StateT.run_bind]
  generalize hfound : (chainFor d.mappings req).run w = answer
  obtain ⟨⟨result, req'⟩, w'⟩ := answer
  cases result with
  | error e => exact ⟨w'.journal, rfl⟩
  | ok c? =>
    cases c? with
    | none => exact ⟨_, rfl⟩
    | some ch =>
      obtain ⟨m, hm, policy, rfl⟩ := chainFor_of_preflight hpre hfound
      rw [hd m hm]
      have hrun := congrArg Prod.snd (runChain_of_preflight d policy req' res w')
      obtain ⟨journal, hjournal⟩ := w'.reportedAll_eq (Cors.process policy req' res).event.toList
      exact ⟨journal, hrun.trans hjournal⟩

/-- Cross-origin requests do not reach the application. A dispatch of a pre-flight request, or of one
that its policy refuses, is the same with any other code in the place of all handlers and all
interceptors, registered or carried. And behind the lookups it changes nothing but the journal. -/
theorem dispatch_recast (d : Dispatcher σ) (hd : ∀ m ∈ d.mappings, m.corsProcessor = .standard)
    (c : Recast σ) {req : Request} {res : Response} {w : World σ}
    (htype : req.dispatchType = .request)
    (hcors : Cors.isPreflight req = true ∨ d.Refuses req res w) :
    ((d.recast c).dispatch req res).run w = (d.dispatch req res).run w ∧
      ∃ journal, ((d.dispatch req res).run w).2 =
        { ((chainFor d.mappings req).run w).2 with journal } := by
  cases hpre : Cors.isPreflight req with
  | true =>
    refine ⟨?_, dispatch_of_preflight d hd res w hpre⟩
    rw [dispatch_recast_of_preflight d c res hpre]
  | false =>
    rw [hpre] at hcors
    obtain ⟨m, ref, req', w', handler, policy?, won, hhandler, hpolicy, hrefused⟩ :=
      hcors.resolve_left Bool.false_ne_true
    obtain ⟨hmem, ⟨attributes, hreq⟩, -⟩ := of_winner won
    have hpre' : Cors.isPreflight req' = false := by
      rw [hreq]
      exact hpre
    have htype' : req'.dispatchType = .request := by
      rw [hreq]
      exact htype
    cases policy? with
    | none =>
      rw [Cors.process_none_allowed hpre' res] at hrefused
      cases hrefused
    | some policy =>
      have hrun := dispatch_of_winner (hd m hmem) htype' hpre' won ⟨hhandler, hpolicy⟩ hrefused
      have won' : (winner (d.recast c).mappings req).run w =
          ((some (m.recast c, ref.recast c), req'), w') := by
        rw [recast, winner_recast, StateT.run_map, won]
        rfl
      have hhandler' : (m.recast c).handlerOf (ref.recast c) = .ok (handler.recast c) := by
        rw [m.handlerOf_recast, hhandler]
        rfl
      have hrun' := dispatch_of_winner (d := d.recast c) (m := m.recast c) (hd m hmem) htype' hpre'
        won' ⟨hhandler', hpolicy⟩ hrefused
      have his : (ref.recast c).carried ++
            InterceptorRegistry.matching (m.recast c).interceptors req'.path =
          (ref.carried ++ InterceptorRegistry.matching m.interceptors req'.path).map
            c.interceptor := by
        rw [ref.carried_recast, List.map_append, ← InterceptorRegistry.matching_recast]
        rfl
      dsimp only at hrun hrun'
      rw [his, List.length_map] at hrun'
      refine ⟨hrun'.2.trans hrun.2.symm, ?_⟩
      rw [hrun.2, hrun.1]
      obtain ⟨journal, hjournal⟩ := World.refused_eq _ (Cors.process (some policy) req' res)
      exact ⟨journal, hjournal⟩

/-- A request from an origin that no policy allows, with interceptors from everywhere. -/
theorem dispatch_recast_recording :
    let ref := HandlerRef.chain (.raw (.recording (.ok .handled))) [Interceptor.recording 0]
    let m : HandlerMapping (List Callback) :=
      { lookup := fun _ _ => return (.ok (some ref), [])
        interceptors := [⟨.global, .recording 1⟩]
        corsSource := some fun _ => some {} }
    let d : Dispatcher (List Callback) := { mappings := [m] }
    let c : Recast (List Callback) := ⟨fun _ _ res => return (.error .asyncCancelled, res),
      fun i => { i with preHandle := fun _ res => return (.error .asyncCancelled, res) }⟩
    let req : Request := { method := .get, path := "/", headers := [("origin", "http://a")] }
    let w : World (List Callback) := ⟨[], #[], #[], #[], #[]⟩
    d.Refuses req {} w ∧
      ((d.recast c).dispatch req).run w = (d.dispatch req).run w ∧
      ((d.dispatch req).run w).2.app = [] := by
  intro ref m d c req w
  have hrefuses : d.Refuses req {} w :=
    ⟨m, ref, req, _, .recording (.ok .handled), some {}, rfl, rfl, rfl, by decide⟩
  have hd : ∀ m ∈ d.mappings, m.corsProcessor = .standard := by
    intro m' hm'
    rw [List.mem_singleton.mp hm']
  obtain ⟨hrun, journal, hworld⟩ := dispatch_recast d hd c rfl (.inr hrefuses)
  refine ⟨hrefuses, hrun, ?_⟩
  rw [hworld]
  rfl

end Dispatcher

end Switchyard
