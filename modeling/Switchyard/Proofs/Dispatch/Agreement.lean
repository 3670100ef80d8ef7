import Switchyard.Proofs.Dispatch.Twins
/-!
# Going on in the background and answering at once

A handler that goes on in the background, and one that answers at once what the other one is resumed
with. Nothing of the difference shows: `resume_agrees`.
-/

namespace Switchyard

variable {σ : Type} {R : World σ → World σ → Prop} {d : Dispatcher σ} {c : Chain σ}

/-- The answer at once that a value stands for. -/
def Outcome.ofValue : AsyncValue → Except DispatchError Outcome
  | .ok none => .ok .handled
  | .ok (some shown) => .ok (.view shown)
  | .error e => .error e

private theorem Outcome.shown_ofValue (value : AsyncValue) :
    (ofValue value).toOption.bind Outcome.shown? = value.toOption.join := by
  cases value with
  | error e => rfl
  | ok shown => cases shown <;> rfl

private theorem Callback.of_mem_passed {k n : Nat} {b : Callback} (hb : b ∈ passed k n) :
    ∃ place answer, b = .pre place answer := by
  obtain ⟨place, -, rfl⟩ := List.mem_map.mp hb
  exact ⟨place, .ok true, rfl⟩

private theorem Callback.of_mem_handedOff {is : List (Interceptor σ)} {b : Callback}
    (hb : b ∈ handedOff is) : ∃ place, b = .handOff place := by
  obtain ⟨⟨place, i⟩, -, rfl⟩ := List.mem_map.mp hb
  exact ⟨place, rfl⟩

section

variable {h h' : Handler σ} {is : List (Interceptor σ)} {req : Request} {res res₁ : Response}
  {w w₁ : World σ} {c₁ : Chain σ}

private theorem Chain.preHandle_passed_iff :
    (c.preHandle req res).run w = ((.ok true, c₁, res₁), w₁) ↔
      ∃ cursor, (preHandleEach (c.call req) (placed c.interceptors) c.cursor res).run w =
          ((.passed, cursor, res₁), w₁) ∧ c₁ = { c with cursor, state := .preHandling } := by
  rw [preHandle, StateT.run_bind]
  generalize (preHandleEach (c.call req) (placed c.interceptors) c.cursor res).run w = answer
  obtain ⟨⟨result, cursor, res'⟩, w'⟩ := answer
  constructor
  · intro h
    cases result with
    | passed =>
      cases h
      exact ⟨cursor, rfl, rfl⟩
    | refused place i =>
      have hresult := congrArg (·.1.1) h
      cases hresult
    | failed place i e =>
      have hresult := congrArg (·.1.1) h
      cases hresult
  · rintro ⟨_, h, rfl⟩
    cases h
    rfl

/-- The walk before the handler does not depend on the handler, but for its name. -/
private theorem Chain.preHandle_of_name (hname : h.name = c.handler.name)
    (passed : (c.preHandle req res).run w = ((.ok true, c₁, res₁), w₁)) :
    ({ c with handler := h }.preHandle req res).run w =
      ((.ok true, { c₁ with handler := h }, res₁), w₁) := by
  obtain ⟨cursor, hwalk, rfl⟩ := preHandle_passed_iff.mp passed
  rw [preHandle_passed_iff]
  refine ⟨cursor, ?_, rfl⟩
  rw [call] at hwalk ⊢
  rw [hname]
  exact hwalk

private theorem Chain.visits_of_passed (d : Dispatcher σ) (hc : c.cursor = none)
    (passed : (c.preHandle req res).run w = ((.ok true, c₁, res₁), w₁)) :
    c₁ = { c with cursor := cursorAt c.interceptors.length, state := .preHandling } ∧
      ∃ v, v.map Visit.callback = Callback.passed 0 c.interceptors.length ∧
        Visits d c.handler c.interceptors v ⟨w, ⟨req, res⟩, none⟩ ⟨w₁, ⟨req, res₁⟩, none⟩ := by
  have hdoes := preHandle_does (d := d) hc ⟨w, ⟨req, res⟩, none⟩
  obtain ⟨v, s, hv, hw, ⟨hcalls, hc₁⟩, w', rfl⟩ := hdoes.visits passed
  obtain rfl : w' = w₁ := hw
  exact ⟨hc₁, v, hcalls, hv⟩

private theorem Visits.of_name (hname : h'.name = h.name) {v : List Visit} {s s₁ : Scene σ}
    (hpre : ∀ b ∈ v.map Visit.callback, ∃ place answer, b = .pre place answer)
    (hv : Visits d h is v s s₁) : Visits d h' is v s s₁ := by
  induction hv with
  | done => exact .done
  | report e _ ih => exact .report e (ih hpre)
  | call first _ ih =>
    rw [List.map_cons, List.forall_mem_cons] at hpre
    obtain ⟨place, answer, rfl⟩ := hpre.1
    refine .call ?_ (ih hpre.2)
    cases first with
    | pre here run =>
      refine .pre here ?_
      rw [Scene.call, hname]
      exact run

private theorem Chain.invoke_run {outcome : Except DispatchError Outcome}
    (handled : (c.handler.run req res).run w = ((outcome, res₁), w₁)) :
    (c.invoke req res).run w = ((outcome, { c with state := stateAfter outcome }, res₁), w₁) := by
  rw [invoke, StateT.run_bind, handled]
  rfl

end

namespace Dispatcher

variable {x : Exchange} {c₁ : Chain σ} {res₁ res₂ : Response} {w w₁ w₂ : World σ}

private theorem runChain_at_once (hc : c.cursor = none)
    (passed : (c.preHandle x.request x.response).run w = ((.ok true, c₁, res₁), w₁))
    {value : AsyncValue} (handled : (c.handler.run x.request res₁).run w₁ =
      ((Outcome.ofValue value, res₂), w₂)) :
    ∃ v s r, (d.runChain c x).run w = (r.map .completed, s.world) ∧
      Visits d c.handler c.interceptors v
        ⟨w₂, ⟨x.request, res₂⟩, value.toOption.join.map (d.named x.request)⟩ s ∧
      Concludes c.interceptors.length s.exchange (some value) (v.map Visit.callback) (some r) := by
  obtain ⟨rfl, -⟩ := Chain.visits_of_passed d hc passed
  let c₂ : Chain σ :=
    { c with cursor := Chain.cursorAt c.interceptors.length, state := .handlerInvoking }
  have finish (shown : Option ModelAndView) :
      ∃ v s, ((d.finish c₂ ⟨x.request, res₂⟩ shown).run w₂).2 = s.world ∧
        Visits d c.handler c.interceptors v
          ⟨w₂, ⟨x.request, res₂⟩, shown.map (d.named x.request)⟩ s ∧
        Finishes c.interceptors.length s.exchange (v.map Visit.callback)
          ((d.finish c₂ ⟨x.request, res₂⟩ shown).run w₂).1 := by
    have hdoes := finish_does (c := c₂) (d := d) rfl
      (s := ⟨w₂, ⟨x.request, res₂⟩, shown.map (d.named x.request)⟩) rfl
    obtain ⟨v, s, hv, hw, hends⟩ := hdoes.visits rfl
    exact ⟨v, s, hw.symm, hv, hends⟩
  let c₁ : Chain σ :=
    { c with cursor := Chain.cursorAt c.interceptors.length, state := .preHandling }
  have hinvoke := Chain.invoke_run (c := c₁) handled
  rw [runChain, StateT.run_bind, passed]
  change ∃ v s r, (c₁.invoke x.request res₁ >>= _ : Act σ _).run w₁ = _ ∧ _
  rw [StateT.run_bind, hinvoke]
  cases value with
  | ok shown =>
    obtain ⟨v, s, hw, hv, hends⟩ := finish shown
    refine ⟨v, s, _, ?_, hv, .finished hends⟩
    rw [← hw]
    cases shown <;> rfl
  | error e =>
    let event : Event := .warn "Handler failed"
      [("handler", .text c.handler.name), ("error", .text e.message)]
    let s₂ : Scene σ := ⟨w₂, ⟨x.request, res₂⟩, none⟩
    have hdoes := Chain.complete_does (c := c₂) (d := d) rfl (Nat.le_refl _) (by simp [c₂]) (some e)
      (s₂.reported event)
    obtain ⟨v, s, hv, hw, hcalls, -⟩ := hdoes.visits rfl
    refine ⟨v, s, .error e, ?_, .report event hv, ?_⟩
    · rw [hw]
      rfl
    · rw [hcalls]
      exact .failed

private theorem runChain_suspended (hc : c.cursor = none) (hnew : c.asyncNotified = false)
    {p : Pending σ} (suspended : (d.runChain c x).run w = (.ok (.suspended p), w₂)) :
    ∃ c₁ res₁ w₁ res₂ w₁' v s,
      (c.preHandle x.request x.response).run w = ((.ok true, c₁, res₁), w₁) ∧
      (c.handler.run x.request res₁).run w₁ = ((.ok (.async p.result), res₂), w₁') ∧
      Visits d c.handler c.interceptors v ⟨w₁', ⟨x.request, res₂⟩, none⟩ s ∧ s.world = w₂ ∧
      v.map Visit.callback = Callback.handedOff c.interceptors ∧ p.chain = c.suspended ∧
      p.exchange = s.exchange := by
  rw [runChain, StateT.run_bind] at suspended
  generalize hpre : (c.preHandle x.request x.response).run w = answer at suspended
  obtain ⟨⟨result, c₁, res₁⟩, w₁⟩ := answer
  cases result with
  | error e => cases suspended
  | ok passes =>
    cases passes with
    | false => cases suspended
    | true =>
      obtain ⟨rfl, -⟩ := Chain.visits_of_passed d hc hpre
      let c₁ : Chain σ :=
        { c with cursor := Chain.cursorAt c.interceptors.length, state := .preHandling }
      change (c₁.invoke x.request res₁ >>= _ : Act σ _).run w₁ = _ at suspended
      generalize hhandler : (c.handler.run x.request res₁).run w₁ = answer
      obtain ⟨⟨outcome, res₂⟩, w₁'⟩ := answer
      rw [StateT.run_bind, Chain.invoke_run (c := c₁) hhandler] at suspended
      have final (shown : Option ModelAndView) {r : Except DispatchError Exchange} :
          (r.map .completed : Except DispatchError (DispatchOutcome σ)) ≠ .ok (.suspended p) := by
        cases r <;> simp [Except.map]
      cases outcome with
      | error e => cases congrArg Prod.fst suspended
      | ok outcome =>
        cases outcome with
        | handled => exact absurd (congrArg Prod.fst suspended) (final none)
        | view shown => exact absurd (congrArg Prod.fst suspended) (final (some shown))
        | async deferred =>
          let c₂ : Chain σ := { c₁ with state := .asyncStarted }
          have hdoes := Chain.notifyAsync_does (d := d) (c := c₂) rfl hnew
            ⟨w₁', ⟨x.request, res₂⟩, none⟩
          generalize hnotify : (c₂.notifyAsync x.request res₂).run w₁' = notified
          obtain ⟨⟨c₃, res₃⟩, w₃⟩ := notified
          obtain ⟨v, s, hv, hw, hcalls, rfl, w₄, rfl⟩ := hdoes.visits hnotify
          change (c₂.notifyAsync x.request res₂ >>= _ : Act σ _).run w₁' = _ at suspended
          rw [StateT.run_bind, hnotify] at suspended
          cases suspended
          obtain rfl : w₄ = w₃ := hw
          let event : Event := .debug "Request suspended" [("handler", .text c.handler.name),
            ("timeout_ms", .text (Text.optional toString deferred.timeout))]
          have hvisits := hv.append (.report event .done)
          rw [List.append_nil] at hvisits
          exact ⟨_, res₁, w₁, res₂, w₁', v, _, rfl, hhandler, hvisits, rfl, hcalls, rfl, rfl⟩

end Dispatcher

private theorem Visits.of_handedOff (hR : Appearance R) {h : Handler σ} {is : List (Interceptor σ)}
    (his : ∀ i ∈ is, i.Indifferent R) {v : List Visit} {s s' : Scene σ}
    (hcalls : ∀ b ∈ v.map Visit.callback, ∃ place, b = .handOff place)
    (hv : Visits d h is v s s') : R s.world s'.world ∧ s'.exchange = s.exchange := by
  induction hv with
  | @done s => exact ⟨hR.equivalence.refl s.world, rfl⟩
  | report e _ ih =>
    obtain ⟨hw, hx⟩ := ih hcalls
    exact ⟨hR.equivalence.trans (hR.reported _ e) hw, hx⟩
  | @call b v s s₁ s' first _ ih =>
    rw [List.map_cons, List.forall_mem_cons] at hcalls
    obtain ⟨place, rfl⟩ : ∃ place, b = .handOff place := hcalls.1
    obtain ⟨hw, hx⟩ := ih hcalls.2
    cases first with
    | @handOff _ i _ started answer res w here hi run =>
      have hstarted := (his i (List.mem_of_getElem? here)).started started hi (s.call h) s.response
        s.world
      rw [run] at hstarted
      obtain ⟨hres, hw₁⟩ := hstarted
      obtain rfl : res = s.response := hres
      exact ⟨hR.equivalence.trans hw₁ hw, hx⟩

/-- When one handler goes on in the background, the other one writes the same and answers at once
what a value stands for. -/
def Handler.Anticipates (R : World σ → World σ → Prop) (value : AsyncValue) (h h' : Handler σ) :
    Prop :=
  ∀ req res deferred res₁ w w₁', (h'.run req res).run w = ((.ok (.async deferred), res₁), w₁') →
    ∃ w₁, (h.run req res).run w = ((Outcome.ofValue value, res₁), w₁) ∧ R w₁ w₁'

/-- What ends a suspended dispatch is in step with the same calls made at once. -/
private theorem Pending.resume_twin (hR : Appearance R) (hd : d.Indifferent R) {p : Pending σ}
    (hp : p.IsReady) (his : ∀ i ∈ p.chain.interceptors, i.Indifferent R) {h : Handler σ}
    (hname : p.chain.handler.name = h.name) {value : AsyncValue}
    (hvalue : ∀ m ∈ value.toOption.join, m.Indifferent) {w w' : World σ} (hw : R w w')
    {v : List Visit} {s : Scene σ} {r : Except DispatchError Exchange}
    (hv : Visits d h p.chain.interceptors v
      ⟨w, p.exchange, value.toOption.join.map (d.named p.exchange.request)⟩ s)
    (hr : Concludes p.chain.interceptors.length s.exchange (some value) (v.map Visit.callback)
      (some r)) :
    ∃ s', (d.resume p value).run w' = (r.map Exchange.continued, s'.world) ∧
      Visits d p.chain.handler p.chain.interceptors (v.map Visit.continued)
        (p.sceneAt d (w'.withChannel p.result.channel Channel.close) (some value)) s' ∧
      Twin R s s' := by
  let w₁ := w'.withChannel p.result.channel Channel.close
  let shown := value.toOption.join.map (d.named p.exchange.request)
  have hstart : p.sceneAt d w₁ (some value) = ⟨w₁, p.exchange.continued, shown⟩ := by
    have hnamed : d.named p.exchange.request.continued = d.named p.exchange.request :=
      funext (hd.named p.exchange.request)
    change Scene.mk w₁ p.exchange.continued
      (value.toOption.join.map (d.named p.exchange.request.continued)) = _
    rw [hnamed]
  have hshown : ∀ m ∈ shown, m.Indifferent := by
    intro m hm
    obtain ⟨own, hown, rfl⟩ := Option.map_eq_some_iff.mp hm
    exact Dispatcher.named_indifferent (hvalue own hown) _
  have htwin : Twin R ⟨w, p.exchange, shown⟩ (p.sceneAt d w₁ (some value)) := by
    rw [hstart]
    exact .intro (hR.equivalence.trans hw (hR.closed w' p.result.channel)) hshown
  obtain ⟨t, s', ht, hworld, hr'⟩ := resume_performs (d := d) hp value w'
  obtain ⟨u, rfl, hu⟩ := ht.visits
  obtain ⟨rfl, htwin', hresult⟩ := hr.twin hR hd his hname hr' hv hu htwin
  refine ⟨s', ?_, hu, htwin'⟩
  rw [← hresult, ← hworld]
  rfl

namespace Dispatcher

private theorem runChain_mappings (d : Dispatcher σ) (ms : List (HandlerMapping σ)) (c : Chain σ)
    (x : Exchange) : { d with mappings := ms }.runChain c x = d.runChain c x := rfl

section

variable {h' : Handler σ} {ms : List (HandlerMapping σ)} {p : Pending σ} {value : AsyncValue}
  {req req' : Request} {w w₀ w₁ w₂ : World σ}

end

end Dispatcher

/-- Worlds look alike when what is looked at in the application's state is the same. -/
theorem Appearance.of_app {β : Type} (f : σ → β) :
    Appearance fun w w' : World σ => f w.app = f w'.app where
  equivalence := ⟨fun _ => rfl, Eq.symm, Eq.trans⟩
  reported _ _ := rfl
  closed _ _ := rfl

/-- The calls in a record that do not tell whether a handler went on in the background. -/
def Callback.common (record : List Callback) : List Callback :=
  record.filter fun
    | .handle _ | .handOff _ => false
    | _ => true

private theorem Callback.common_append (t u : List Callback) :
    common (t ++ u) = common t ++ common u :=
  List.filter_append t u

private theorem Callback.common_append_congr {t t' : List Callback} (h : common t = common t')
    (u : List Callback) : common (t ++ u) = common (t' ++ u) := by
  rw [common_append, common_append, h]

private theorem Interceptor.recording_indifferent (place : Nat) (post : Except DispatchError Unit) :
    (recording place (.ok true) post).Indifferent fun w w' =>
      Callback.common w.app = Callback.common w'.app where
  post _ _ _ _ _ hw := ⟨rfl, Callback.common_append_congr hw _⟩
  views _ _ _ _ hshown := hshown
  after _ _ _ _ _ hw := ⟨rfl, Callback.common_append_congr hw _⟩
  started := by
    intro started hstarted call res w
    cases hstarted
    refine ⟨rfl, ?_⟩
    change Callback.common w.app = Callback.common (w.app ++ _)
    rw [Callback.common_append]
    exact (List.append_nil _).symm

private theorem Handler.recording_anticipates (value : AsyncValue) (deferred : Deferred) :
    (recording (Outcome.ofValue value)).Anticipates
      (fun w w' => Callback.common w.app = Callback.common w'.app) value
      (recording (.ok (.async deferred))) := by
  intro req res deferred res₁ w w₁' run
  cases run
  refine ⟨_, rfl, ?_⟩
  change Callback.common (w.app ++ _) = Callback.common (w.app ++ _)
  rw [Callback.common_append, Callback.common_append]
  rfl

namespace Dispatcher

private theorem recording_indifferent (is : List (Interceptor (List Callback)))
    (answer : Except DispatchError Outcome) (R : World (List Callback) → World (List Callback) → Prop) :
    (recording is answer).Indifferent R where
  viewName? _ := rfl
  resolve := by simp [recording]
  views := by simp [recording]

end Dispatcher

end Switchyard
