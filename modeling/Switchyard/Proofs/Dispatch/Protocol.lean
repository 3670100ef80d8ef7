import Switchyard.Proofs.Dispatch.Phases
import Switchyard.Proofs.Dispatch.Resolution
/-!
# The protocol of a dispatch

Which calls a dispatch makes over a chain, from the first interceptor to completion, and how it
ends. The main statement is `dispatch_calls`: whatever the callbacks answer, the calls form one of
the sequences of `Protocol`, which also decides on the outcome.
-/

namespace Switchyard

variable {σ : Type} {d : Dispatcher σ} {h : Handler σ} {is : List (Interceptor σ)}

/-- A chain whose handler went on in the background, after all interceptors let the request pass. -/
def Chain.suspended (c : Chain σ) : Chain σ :=
  { c with
    cursor := Chain.cursorAt c.interceptors.length
    state := .asyncStarted
    asyncNotified := true }

/-- True for an outcome that does not suspend the dispatch. -/
def Outcome.isFinal : Outcome → Bool
  | .async _ => false
  | _ => true

/-- The calls after the success of a handler with `n` interceptors, and what they end with: a
failure of an interceptor or of the view, or the exchange. -/
inductive Finishes (n : Nat) (x : Exchange) : List Callback → Except DispatchError Exchange → Prop where
  | postFailed {k : Nat} {e : DispatchError} (hk : k < n) :
      Finishes n x (Callback.posted n (k + 1) ++ .post k (.error e) :: Callback.completed n (some e))
        (.error e)
  | viewFailed {ref : ViewRef} {e : DispatchError} :
      Finishes n x (Callback.posted n 0 ++ .view (some ref) (.error e) :: Callback.completed n (some e))
        (.error e)
  | shown {ref : Option ViewRef} :
      Finishes n x (Callback.posted n 0 ++ .view ref (.ok ()) :: Callback.completed n none) (.ok x)

/-- The calls of a dispatch over a chain, and its outcome with the exchange as it is in the end. -/
inductive Protocol (c : Chain σ) (x : Exchange) :
    List Callback → Except DispatchError (DispatchOutcome σ) → Prop where
  | refused {k : Nat} (hk : k < c.interceptors.length) :
      Protocol c x (Callback.passed 0 k ++ .pre k (.ok false) :: Callback.completed k none)
        (.ok (.rejected x))
  | preFailed {k : Nat} {e : DispatchError} (hk : k < c.interceptors.length) :
      Protocol c x (Callback.passed 0 k ++ .pre k (.error e) :: Callback.completed k (some e)) (.error e)
  | handlerFailed {e : DispatchError} :
      Protocol c x (Callback.passed 0 c.interceptors.length ++
        .handle (.error e) :: Callback.completed c.interceptors.length (some e)) (.error e)
  | finished {o : Outcome} {t : List Callback} {r : Except DispatchError Exchange}
      (ho : o.isFinal = true) (ht : Finishes c.interceptors.length x t r) :
      Protocol c x (Callback.passed 0 c.interceptors.length ++ .handle (.ok o) :: t) (r.map .completed)
  | suspended {deferred : Deferred} :
      Protocol c x (Callback.passed 0 c.interceptors.length ++
        .handle (.ok (.async deferred)) :: Callback.handedOff c.interceptors)
        (.ok (.suspended ⟨c.suspended, x, deferred⟩))

namespace Dispatcher

private theorem withDefaultView_does (shown : ModelAndView) (s : Scene σ) :
    Does d h is s (d.withDefaultView s.request shown) fun y t s' =>
      y = d.named s.request shown ∧ t = [] ∧ ∃ w, s' = { s with world := w } := by
  rw [withDefaultView, named]
  cases shown.view with
  | some ref => exact .pure ⟨rfl, rfl, s.world, rfl⟩
  | none =>
    cases d.viewName? s.request with
    | none => exact .pure ⟨rfl, rfl, s.world, rfl⟩
    | some name => exact .emit_bind (.pure ⟨rfl, rfl, _, rfl⟩)

private theorem render_does {shown : ModelAndView} {s : Scene σ} (hs : s.shown = some shown) :
    Does d h is s (d.render shown s.exchange) fun x t s' =>
      t = [.view shown.view x.1] ∧ (shown.view = none → x.1 = .ok ()) ∧ s'.exchange = x.2 := by
  obtain ⟨w, x, _⟩ := s
  cases hs
  rw [render]
  cases hview : shown.view with
  | none => exact ⟨_, _, .call (.noView hview) .done, rfl, rfl, fun _ => rfl, rfl⟩
  | some ref =>
    have hsome : ∀ {p : Prop}, some ref = none → p := fun h => by cases h
    simp only [Does, StateT.run_bind]
    generalize hrun : (d.viewOf x.request ref).run w = found
    obtain ⟨⟨result, published⟩, w'⟩ := found
    cases result with
    | error e => exact ⟨_, _, .call (.unresolved rfl hview hrun) .done, rfl, rfl, hsome, rfl⟩
    | ok view =>
      exact ⟨_, _, .call (.rendered rfl hview hrun rfl) (.report _ .done), rfl, rfl, hsome, rfl⟩

private theorem mapM_withDefaultView_does (shown : Option ModelAndView) (s : Scene σ) :
    Does d h is s (shown.mapM (d.withDefaultView s.request)) fun y t s' =>
      y = shown.map (d.named s.request) ∧ t = [] ∧ ∃ w, s' = { s with world := w } := by
  cases shown with
  | none => exact .pure ⟨rfl, rfl, s.world, rfl⟩
  | some shown =>
    apply Does.map
    apply (withDefaultView_does shown s).mono
    intro y t s' hy
    exact ⟨congrArg some hy.1, hy.2⟩

/-- The calls between the success of a handler with `n` interceptors and completion. -/
def Reached (n : Nat) (t : List Callback) : Except DispatchError Unit → Prop
  | .ok () => ∃ ref, t = Callback.posted n 0 ++ [.view ref (.ok ())]
  | .error e => (∃ k < n, t = Callback.posted n (k + 1) ++ [.post k (.error e)]) ∨
      ∃ ref, t = Callback.posted n 0 ++ [.view (some ref) (.error e)]

private theorem postHandleAndRender_does (c : Chain σ) {s : Scene σ} {shown : Option ModelAndView}
    (hs : s.shown = shown.map (d.named s.request)) :
    Does d c.handler c.interceptors s (d.postHandleAndRender c s.exchange shown) fun x t s' =>
      Reached c.interceptors.length t x.1 ∧ x.2.1 = { c with state := .postHandling } ∧
        s'.exchange = x.2.2 := by
  rw [postHandleAndRender]
  apply Does.bind (mapM_withDefaultView_does shown s)
  intro y t s₁ hy
  obtain ⟨rfl, rfl, w, rfl⟩ := hy
  rw [← hs]
  apply Does.bind (Chain.postHandle_does c { s with world := w })
  intro x t s₂ hx
  obtain ⟨result, c', res, shown'⟩ := x
  obtain ⟨hwalk, rfl, w', rfl⟩ := hx
  cases result with
  | error e =>
    apply Does.pure
    obtain ⟨k, hk, rfl⟩ := hwalk
    exact ⟨.inl ⟨k, hk, by simp⟩, rfl, rfl⟩
  | ok =>
    change t = _ at hwalk
    subst t
    cases shown' with
    | none =>
      refine ⟨[.view none (.ok ())], _, .call (.noView rfl) .done, rfl, ?_, rfl, rfl⟩
      exact ⟨none, by simp⟩
    | some shown' =>
      apply Does.bind (render_does rfl)
      intro x u s₃ hx
      obtain ⟨result, x⟩ := x
      obtain ⟨rfl, hview, hx⟩ := hx
      apply Does.pure
      refine ⟨?_, rfl, hx⟩
      cases result with
      | ok => exact ⟨shown'.view, by simp⟩
      | error e =>
        cases href : shown'.view with
        | none => cases hview href
        | some ref => exact .inr ⟨ref, by simp⟩

theorem finish_does {c : Chain σ} (hc : c.cursor = Chain.cursorAt c.interceptors.length)
    {s : Scene σ} {shown : Option ModelAndView} (hs : s.shown = shown.map (d.named s.request)) :
    Does d c.handler c.interceptors s (d.finish c s.exchange shown) fun r t s' =>
      Finishes c.interceptors.length s'.exchange t r := by
  have complete (error : Option DispatchError) (s : Scene σ) := Chain.complete_does (d := d)
    (c := { c with state := .postHandling }) hc (Nat.le_refl _) (by simp) error s
  rw [finish]
  apply Does.bind (postHandleAndRender_does c hs)
  intro x t s₁ hx
  obtain ⟨result, c', x⟩ := x
  obtain ⟨hreached, rfl, rfl⟩ := hx
  cases result with
  | ok =>
    obtain ⟨ref, rfl⟩ := hreached
    apply Does.bind (complete none s₁)
    intro y u s₂ hy
    obtain ⟨rfl, w, rfl⟩ := hy
    apply Does.pure
    rw [List.append_nil, List.append_assoc]
    exact .shown
  | error e =>
    apply Does.bind (complete (some e) s₁)
    intro y u s₂ hy
    obtain ⟨rfl, w, rfl⟩ := hy
    apply Does.pure
    rw [List.append_nil]
    cases hreached with
    | inl hpost =>
      obtain ⟨k, hk, rfl⟩ := hpost
      rw [List.append_assoc]
      exact .postFailed hk
    | inr hview =>
      obtain ⟨ref, rfl⟩ := hview
      rw [List.append_assoc]
      exact .viewFailed

private theorem runChain_does {c : Chain σ} (hcursor : c.cursor = none)
    (hnew : c.asyncNotified = false) {s : Scene σ} :
    Does d c.handler c.interceptors s (d.runChain c s.exchange) fun r t s' =>
      Protocol c s'.exchange t r := by
  rw [runChain]
  apply Does.bind (Chain.preHandle_does hcursor s)
  intro x t s₁ hx
  obtain ⟨result, c', res⟩ := x
  obtain ⟨hpre, w, rfl⟩ := hx
  cases result with
  | error e =>
    obtain ⟨k, hk, rfl⟩ := hpre
    apply Does.pure
    rw [List.append_nil]
    exact .preFailed hk
  | ok passes =>
    cases passes with
    | false =>
      obtain ⟨k, hk, rfl⟩ := hpre
      apply Does.emit_bind
      apply Does.pure
      rw [List.append_nil]
      exact .refused hk
    | true =>
      obtain ⟨rfl, rfl⟩ := hpre
      let c₁ : Chain σ :=
        { c with cursor := Chain.cursorAt c.interceptors.length, state := .preHandling }
      apply Does.bind (Chain.invoke_does c₁ (s.wrote w res))
      intro x t s₁ hx
      obtain ⟨answer, c', res⟩ := x
      dsimp only at hx
      obtain ⟨rfl, rfl, w, rfl⟩ := hx
      cases answer with
      | error e =>
        apply Does.emit_bind
        apply Does.bind (Chain.complete_does (c := { c₁ with state := .handlerInvoking }) rfl
          (Nat.le_refl _) (by simp) (some e) _)
        intro y u s₂ hy
        obtain ⟨rfl, w, rfl⟩ := hy
        apply Does.pure
        rw [List.append_nil]
        exact .handlerFailed
      | ok o =>
        have finish (shown : Option ModelAndView) (ho : o.isFinal = true) (s₁ : Scene σ)
            (hs : s₁.shown = shown.map (d.named s₁.request)) :
            Does d c.handler c.interceptors s₁
              (d.finish { c₁ with state := .handlerInvoking } s₁.exchange shown >>= fun r =>
                pure (r.map .completed))
              fun r u s' => Protocol c s'.exchange
                (Callback.passed 0 c.interceptors.length ++ ([.handle (.ok o)] ++ u)) r := by
          apply Does.bind (finish_does (c := { c₁ with state := .handlerInvoking }) rfl hs)
          intro r u s₂ hr
          apply Does.pure
          rw [List.append_nil]
          exact .finished ho hr
        cases o with
        | handled => exact finish none rfl _ rfl
        | view shown => exact finish (some shown) rfl _ rfl
        | async deferred =>
          apply Does.bind (Chain.notifyAsync_does (c := { c₁ with state := .asyncStarted }) rfl hnew _)
          intro y u s₂ hy
          obtain ⟨c', res⟩ := y
          obtain ⟨rfl, rfl, w, rfl⟩ := hy
          apply Does.emit_bind
          apply Does.pure
          rw [List.append_nil]
          exact .suspended

end Dispatcher

namespace Callback

/-- The failure that a call raised. The last callbacks of a dispatch raise none: theirs are reported
and dropped. -/
def failure? : Callback → Option DispatchError
  | .pre _ (.error e) | .handle (.error e) | .post _ (.error e) | .view _ (.error e) => some e
  | _ => none

private theorem failure?_map {α : Type} {f : α → Callback} (hf : ∀ a, (f a).failure? = none)
    (l : List α) : (l.map f).findSome? failure? = none := by
  rw [List.findSome?_eq_none_iff]
  intro b hb
  obtain ⟨a, -, rfl⟩ := List.mem_map.mp hb
  exact hf a

private theorem failure?_passed (k n : Nat) : (passed k n).findSome? failure? = none :=
  failure?_map (fun _ => rfl) _

private theorem failure?_posted (n k : Nat) : (posted n k).findSome? failure? = none :=
  failure?_map (fun _ => rfl) _

private theorem failure?_completed (n : Nat) (error : Option DispatchError) :
    (completed n error).findSome? failure? = none :=
  failure?_map (fun _ => rfl) _

private theorem failure?_handedOff (is : List (Interceptor σ)) :
    (handedOff is).findSome? failure? = none :=
  failure?_map (fun _ => rfl) _

end Callback

section

variable {c : Chain σ} {n : Nat} {x : Exchange} {t : List Callback}

theorem Finishes.error_iff {r : Except DispatchError Exchange} (ht : Finishes n x t r)
    (e : DispatchError) : r = .error e ↔ t.findSome? Callback.failure? = some e := by
  cases ht <;>
    simp [List.findSome?_append, List.findSome?_cons, Callback.failure?, Callback.failure?_posted,
      Callback.failure?_completed]

/-- The error of a dispatch is the first failure in its transcript. -/
theorem Protocol.error_iff {r : Except DispatchError (DispatchOutcome σ)} (ht : Protocol c x t r)
    (e : DispatchError) : r = .error e ↔ t.findSome? Callback.failure? = some e := by
  cases ht with
  | @finished o t r ho ht =>
    have hmap : (r.map .completed : Except DispatchError (DispatchOutcome σ)) = .error e ↔
        r = .error e := by
      cases r <;> simp [Except.map]
    rw [hmap, ht.error_iff e, List.findSome?_append, Callback.failure?_passed]
    rfl
  | _ =>
    simp [List.findSome?_append, List.findSome?_cons, Callback.failure?, Callback.failure?_passed,
      Callback.failure?_completed, Callback.failure?_handedOff]

private theorem Finishes.not_refused {r : Except DispatchError Exchange} (ht : Finishes n x t r)
    (k : Nat) : .pre k (.ok false) ∉ t := by
  cases ht <;>
    simp only [Callback.posted, Callback.completed, List.mem_append, List.mem_cons, List.mem_map,
      reduceCtorEq, and_false, exists_false, or_false, not_false_eq_true]

/-- A dispatch is rejected exactly when an interceptor refused the request. -/
private theorem Protocol.rejected_iff {r : Except DispatchError (DispatchOutcome σ)}
    (ht : Protocol c x t r) : (∃ y, r = .ok (.rejected y)) ↔ ∃ k, .pre k (.ok false) ∈ t := by
  cases ht with
  | @finished o t r ho ht =>
    have hr : ¬ ∃ y, (r.map .completed : Except DispatchError (DispatchOutcome σ)) =
        .ok (.rejected y) := by
      cases r <;> simp [Except.map]
    simp [hr, Callback.passed, ht.not_refused]
  | _ => simp [Callback.passed, Callback.completed, Callback.handedOff]

theorem Protocol.of_suspended {p : Pending σ} {r : Except DispatchError (DispatchOutcome σ)}
    (ht : Protocol c x t r) (hr : r = .ok (.suspended p)) :
    t = Callback.passed 0 c.interceptors.length ++
        .handle (.ok (.async p.result)) :: Callback.handedOff c.interceptors ∧
      p.chain = c.suspended ∧ p.exchange = x := by
  cases ht with
  | @finished o t r ho ht => cases r <;> cases hr
  | suspended =>
    cases hr
    exact ⟨rfl, rfl, rfl⟩
  | _ => cases hr

end

/-- A chain that has not begun its run. -/
def Chain.IsNew (c : Chain σ) : Prop :=
  c = { handler := c.handler, interceptors := c.interceptors }

private theorem HandlerMapping.chainUnder_isNew (m : HandlerMapping σ) (req : Request)
    (ref : HandlerRef σ) (handler : Handler σ) (policy : Option CorsPolicy) :
    (m.chainUnder req ref handler policy).IsNew := by
  rw [chainUnder]
  cases Cors.isPreflight req with
  | true => rfl
  | false => rfl

namespace Dispatcher

theorem chainFor_isNew {ms : List (HandlerMapping σ)} {req req' : Request} {w w' : World σ}
    {c : Chain σ} (found : (chainFor ms req).run w = ((.ok (some c), req'), w')) : c.IsNew := by
  obtain ⟨-, m, -, ref, handler, policy, -, hc⟩ := chainFor_ok found
  rw [hc]
  exact m.chainUnder_isNew req' ref handler policy

theorem dispatch_run (d : Dispatcher σ) (res : Response) {req req' : Request} {w w' : World σ}
    {c : Chain σ} (found : (chainFor d.mappings req).run w = ((.ok (some c), req'), w')) :
    (d.dispatch req res).run w = (d.runChain c ⟨req', res⟩).run w' := by
  rw [dispatch, StateT.run_bind, found]
  rfl

theorem dispatch_performs (d : Dispatcher σ) (res : Response) {req req' : Request}
    {w w' : World σ} {c : Chain σ}
    (found : (chainFor d.mappings req).run w = ((.ok (some c), req'), w')) :
    ∃ t s, Performs d c.handler c.interceptors t ⟨w', ⟨req', res⟩, none⟩ s ∧
      ((d.dispatch req res).run w).2 = s.world ∧
      Protocol c s.exchange t ((d.dispatch req res).run w).1 := by
  have hnew := chainFor_isNew found
  have hcursor : c.cursor = none := by rw [hnew]
  have hnotified : c.asyncNotified = false := by rw [hnew]
  rw [dispatch_run d res found]
  exact runChain_does hcursor hnotified (s := ⟨w', ⟨req', res⟩, none⟩)

/-- Over the chain that the mappings made, a dispatch makes the calls of `Protocol` and no others:
a record that the callbacks keep grows by just these. What the interceptors answer at completion
is neither in the calls nor in what they end with. -/
theorem dispatch_calls (d : Dispatcher σ) (res : Response) {req req' : Request} {w w' : World σ}
    {c : Chain σ} (found : (chainFor d.mappings req).run w = ((.ok (some c), req'), w')) :
    ∃ t s r, (d.dispatch req res).run w = (r, s.world) ∧
      Performs d c.handler c.interceptors t ⟨w', ⟨req', res⟩, none⟩ s ∧
      Protocol c s.exchange t r ∧
      ((∃ x, r = .ok (.rejected x)) ↔ ∃ k, .pre k (.ok false) ∈ t) ∧
      (∀ e, r = .error e ↔ t.findSome? Callback.failure? = some e) ∧
      ∀ record, Records d c.handler c.interceptors record →
        record s.world = record w' ++ t.filter Callback.isRecorded := by
  obtain ⟨t, s, ht, hw, hprotocol⟩ := dispatch_performs d res found
  refine ⟨t, s, _, ?_, ht, hprotocol, hprotocol.rejected_iff, hprotocol.error_iff, ?_⟩
  · rw [← hw]
    rfl
  · intro record hrecord
    exact ht.record_eq hrecord

theorem dispatch_calls_recording :
    let e := DispatchError.interceptor "recording" "post"
    let is := [Interceptor.recording 0 (.ok true) (.error e),
      Interceptor.recording 1 (.ok true) (.ok ()) (.error e)]
    let d := recording is (.ok .handled)
    let c : Chain (List Callback) := { handler := .recording (.ok .handled), interceptors := is }
    let req : Request := { method := .get, path := "/" }
    ∃ (w' : World (List Callback)) (t : List Callback) (s : Scene (List Callback)) (r : _),
      (chainFor d.mappings req).run ⟨[], #[], #[], #[], #[]⟩ = ((.ok (some c), req), w') ∧
      (d.dispatch req).run ⟨[], #[], #[], #[], #[]⟩ = (r, s.world) ∧ Protocol c s.exchange t r ∧
      t.filter Callback.isRecorded = [.pre 0 (.ok true), .pre 1 (.ok true), .handle (.ok .handled),
        .post 1 (.ok ()), .post 0 (.error e), .after 1 (some e), .after 0 (some e)] := by
  intro e is d c req
  have found : ∃ w', (chainFor d.mappings req).run ⟨[], #[], #[], #[], #[]⟩ =
      ((.ok (some c), req), w') := ⟨_, rfl⟩
  obtain ⟨w', found⟩ := found
  have hrecords : Records d c.handler c.interceptors (·.app) := by
    apply records_recording rfl
    intro place i here
    rcases place with _ | _ | place <;> cases here <;> exact ⟨_, _, _, _, rfl⟩
  obtain ⟨t, s, r, hrun, -, hprotocol, -, -, hrecord⟩ := dispatch_calls d {} found
  refine ⟨w', t, s, r, found, hrun, hprotocol, ?_⟩
  have hbefore : w'.app = [] := (congrArg (·.2.app) found).symm
  have hafter := congrArg (·.2.app) hrun
  have hfilter := hrecord _ hrecords
  dsimp only at hfilter hafter
  rw [hbefore, List.nil_append] at hfilter
  rw [← hfilter, ← hafter]
  rfl

end Dispatcher

end Switchyard
