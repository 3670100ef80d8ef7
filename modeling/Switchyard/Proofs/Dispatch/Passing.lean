import Switchyard.Proofs.Cors.Framing
import Switchyard.Proofs.Dispatch.Giving
import Switchyard.Proofs.Dispatch.Publishing
import Switchyard.Proofs.Dispatch.Shielding
/-!
# Chains that let everything through

Over interceptors that let every request through and a handler that leaves responses alone, a
request ends with the response that the rules of cross-origin requests make of an untouched one
(`Dispatcher.runChain_gives`).
-/

namespace Switchyard

variable {σ : Type} {R : World σ → World σ → Prop}

/-- Any two worlds: it does not matter how they look. -/
def AnyWorlds (_ _ : World σ) : Prop := True

theorem appearance_anyWorlds : Appearance (σ := σ) AnyWorlds where
  equivalence := ⟨fun _ => trivial, fun _ => trivial, fun _ _ => trivial⟩
  reported _ _ := trivial
  closed _ _ := trivial

/-- Behind the handler an interceptor leaves alone the response and what is to be shown. -/
structure Interceptor.LeavesAlone (R : World σ → World σ → Prop) (i : Interceptor σ) : Prop where
  post : ∀ call res shown, (i.postHandle call res shown).Gives R (· = (.ok (), res, shown))
  after : ∀ call res error, (i.afterCompletion call res error).Gives R (·.2 = res)
  started : ∀ started, i.asyncStarted = some started →
    ∀ call res, (started call res).Gives R (·.2 = res)

/-- An interceptor lets every request through and leaves responses alone. -/
structure Interceptor.Passes (R : World σ → World σ → Prop) (i : Interceptor σ) : Prop
    extends i.LeavesAlone R where
  pre : ∀ call res, (i.preHandle call res).Gives R (· = (.ok true, res))

/-- A handler that may fail with an error. -/
def Handler.Raises (h : Handler σ) (e : DispatchError) : Prop :=
  ∃ req res w, ((h.run req res).run w).1.1 = .error e

/-- A handler leaves the response alone, and has nothing to show that would be written there. -/
def Handler.LeavesAlone (R : World σ → World σ → Prop) (h : Handler σ) : Prop :=
  ∀ req res, (h.run req res).Gives R fun x => x.2 = res ∧ ∀ shown, x.1 ≠ .ok (.view shown)

theorem Interceptor.passes_default (hR : Appearance R) (name : String) :
    ({ name } : Interceptor σ).Passes R where
  pre _ _ := .pure hR rfl
  post _ _ _ := .pure hR rfl
  after _ _ _ := .pure hR rfl
  started _ h := nomatch h

private theorem CorsProcessor.interceptor_leavesAlone (hR : Appearance R) (p : CorsProcessor σ)
    (policy : CorsPolicy) : (p.interceptor policy).LeavesAlone R where
  post _ _ _ := .pure hR rfl
  after _ _ _ := .pure hR rfl
  started _ h := nomatch h

namespace Chain

variable {c : Chain σ} {call : Call} {req : Request} {res : Response}
  {is : List (Interceptor σ)} {l : List (Nat × Interceptor σ)}

private theorem mem_of_mem_placed {p : Nat × Interceptor σ} (hp : p ∈ placed is) : p.2 ∈ is :=
  List.mem_of_getElem? (getElem?_of_mem_placed hp)

private theorem completeEach_gives (hR : Appearance R) (error : Option DispatchError)
    (hl : ∀ p ∈ l, p.2.LeavesAlone R) : (completeEach call error l res).Gives R (· = res) := by
  induction l with
  | nil => exact .pure hR rfl
  | cons p l ih =>
    rw [List.forall_mem_cons] at hl
    rw [completeEach]
    apply Act.Gives.bind hR (hl.1.after call res error)
    rintro ⟨result, _⟩ rfl
    cases result with
    | ok => exact ih hl.2
    | error e => exact .emit_bind hR (ih hl.2)

theorem complete_gives (hR : Appearance R) (hc : ∀ i ∈ c.interceptors, i.LeavesAlone R)
    (error : Option DispatchError) : (c.complete req res error).Gives R fun x =>
      x.2 = res ∧ x.1.handler = c.handler ∧ x.1.interceptors = c.interceptors := by
  have hcompleted : ∀ p ∈ c.completed, p.2.LeavesAlone R := by
    intro p hp
    rw [completed] at hp
    split at hp
    · cases hp
    · exact hc _ (List.mem_of_mem_take (mem_of_mem_placed (List.mem_reverse.mp hp)))
  by_cases hrest : c.AtRest
  · rw [complete_of_atRest hrest]
    exact .pure hR ⟨rfl, rfl, rfl⟩
  · rw [complete_of_not_atRest hrest]
    apply Act.Gives.bind hR (completeEach_gives hR error hcompleted)
    rintro _ rfl
    exact .pure hR ⟨rfl, rfl, rfl⟩

private theorem preHandleEach_gives (hR : Appearance R) (hl : ∀ p ∈ l, p.2.Passes R)
    (cursor : Option Nat) :
    (preHandleEach call l cursor res).Gives R fun x => x.1 = .passed ∧ x.2.2 = res := by
  induction l generalizing cursor with
  | nil => exact .pure hR ⟨rfl, rfl⟩
  | cons p l ih =>
    rw [List.forall_mem_cons] at hl
    rw [preHandleEach]
    apply Act.Gives.bind hR (hl.1.pre call res)
    rintro _ rfl
    exact ih hl.2 _

private theorem postHandleEach_gives (hR : Appearance R) (his : ∀ i ∈ is, i.LeavesAlone R)
    (shown : Option ModelAndView) :
    (postHandleEach call is res shown).Gives R (· = (.ok (), res, shown)) := by
  induction is with
  | nil => exact .pure hR rfl
  | cons i is ih =>
    rw [List.forall_mem_cons] at his
    rw [postHandleEach]
    apply Act.Gives.bind hR (his.1.post call res shown)
    rintro _ rfl
    exact ih his.2

private theorem notifyEach_gives (hR : Appearance R) (hl : ∀ p ∈ l, p.2.LeavesAlone R) :
    (notifyEach call l res).Gives R (· = res) := by
  induction l with
  | nil => exact .pure hR rfl
  | cons p l ih =>
    rw [List.forall_mem_cons] at hl
    rw [notifyEach]
    cases hstarted : p.2.asyncStarted with
    | none => exact ih hl.2
    | some started =>
      apply Act.Gives.bind hR (hl.1.started started hstarted call res)
      rintro ⟨result, _⟩ rfl
      cases result with
      | ok => exact ih hl.2
      | error e => exact .emit_bind hR (ih hl.2)

private theorem notifyAsync_gives (hR : Appearance R) (hc : ∀ i ∈ c.interceptors, i.LeavesAlone R) :
    (c.notifyAsync req res).Gives R (·.2 = res) := by
  rw [notifyAsync]
  split
  · exact .pure hR rfl
  · have hplaced : ∀ p ∈ (placed c.interceptors).reverse, p.2.LeavesAlone R :=
      fun p hp => hc _ (mem_of_mem_placed (List.mem_reverse.mp hp))
    apply Act.Gives.bind hR (notifyEach_gives hR hplaced)
    rintro _ rfl
    exact .pure hR rfl

private theorem invoke_gives (hc : c.handler.LeavesAlone R) :
    (c.invoke req res).Gives R fun x => x.2.2 = res ∧ (∀ shown, x.1 ≠ .ok (.view shown)) ∧
      (∀ e, x.1 = .error e → c.handler.Raises e) ∧ x.2.1.interceptors = c.interceptors := by
  intro w
  obtain ⟨⟨hres, hview⟩, hw⟩ := hc req res w
  exact ⟨⟨hres, hview, fun e he => ⟨req, res, w, he⟩, rfl⟩, hw⟩

private theorem postHandle_gives (hR : Appearance R) (hc : ∀ i ∈ c.interceptors, i.LeavesAlone R)
    (shown : Option ModelAndView) : (c.postHandle req res shown).Gives R
      (· = (.ok (), { c with state := .postHandling }, res, shown)) := by
  have hreverse : ∀ i ∈ c.interceptors.reverse, i.LeavesAlone R :=
    fun i hi => hc i (List.mem_reverse.mp hi)
  apply Act.Gives.bind hR (postHandleEach_gives hR hreverse shown)
  rintro _ rfl
  exact .pure hR rfl

end Chain

namespace Cors

/-- What the rules of cross-origin requests make of a request with an untouched response, under the
policy that applies if one does: the answer to a pre-flight request, or what a guard says to another
one. Without a policy there is no guard. -/
def guarded (policy : Option CorsPolicy) (req : Request) : Verdict :=
  if isPreflight req then process policy req {}
  else policy.elim ⟨true, {}, none⟩ fun p => process (some p) req {}

variable {policy : Option CorsPolicy} {req : Request}

theorem guarded_of_preflight (hpre : isPreflight req) :
    guarded policy req = process policy req {} :=
  if_pos hpre

theorem guarded_of_actual (hpre : isPreflight req = false) : guarded policy req =
    policy.elim ⟨true, {}, none⟩ fun p => process (some p) req {} := by
  rw [guarded, hpre]
  rfl

theorem process_status (policy : Option CorsPolicy) (req : Request) :
    (process policy req {}).response.status = if (process policy req {}).allowed then 200 else 403 := by
  by_cases hjudged : ∃ o, Judged req {} o
  · obtain ⟨o, hjudged⟩ := hjudged
    cases hallowed : (process policy req {}).allowed with
    | true => exact (hjudged.frames .nil hallowed).status
    | false => exact congrArg Response.status (hjudged.response_of_refused hallowed)
  · obtain ⟨hallowed, hresponse⟩ := process_of_not_judged hjudged policy
    rw [hallowed, hresponse]
    split <;> rfl

theorem guarded_status (policy : Option CorsPolicy) (req : Request) :
    (guarded policy req).response.status = if (guarded policy req).allowed then 200 else 403 := by
  cases hpre : isPreflight req with
  | true =>
    rw [guarded_of_preflight hpre]
    exact process_status policy req
  | false =>
    rw [guarded_of_actual hpre]
    cases policy with
    | none => rfl
    | some p => exact process_status (some p) req

theorem names_of_guarded (policy : Option CorsPolicy) (req : Request) :
    ∀ p ∈ (guarded policy req).response.headers, p.1 ∈ vary :: answerNames := by
  cases hpre : isPreflight req with
  | true =>
    rw [guarded_of_preflight hpre]
    exact names_of_process policy req
  | false =>
    rw [guarded_of_actual hpre]
    cases policy with
    | none => exact fun p hp => nomatch hp
    | some p => exact names_of_process (some p) req

end Cors

section

variable {policy : Option CorsPolicy} {req : Request} {handler : Handler σ}
  {rest : List (Interceptor σ)}

private theorem CorsProcessor.guard_gives (hR : Appearance R) (p : CorsPolicy) (res : Response)
    {call : Call} (htype : call.request.dispatchType = .request) :
    ((standard.interceptor p : Interceptor σ).preHandle call res).Gives R
      (· = (.ok (Cors.process (some p) call.request res).allowed,
        (Cors.process (some p) call.request res).response)) := by
  intro w
  rw [CorsProcessor.interceptor_run p res w htype]
  exact ⟨rfl, hR.reportedAll w _⟩

theorem CorsProcessor.preFlightHandler_gives (hR : Appearance R) (policy : Option CorsPolicy)
    (req : Request) (res : Response) :
    ((standard.preFlightHandler policy : Handler σ).run req res).Gives R
      (· = (.ok .handled, (Cors.process policy req res).response)) := by
  have hstandard : (standard policy req res : Act σ _).Gives R
      (·.2 = (Cors.process policy req res).response) := by
    intro w
    rw [standard_run]
    exact ⟨rfl, hR.reportedAll w _⟩
  apply Act.Gives.bind hR hstandard
  rintro ⟨allowed, _⟩ rfl
  exact .pure hR rfl

/-- The chain of a request that is no pre-flight one, under the policy that applies. -/
def Chain.guardedBy (policy : Option CorsPolicy) (handler : Handler σ)
    (rest : List (Interceptor σ)) : Chain σ where
  handler
  interceptors := policy.toList.map CorsProcessor.standard.interceptor ++ rest

theorem Chain.guardedBy_leavesAlone (policy : Option CorsPolicy) (handler : Handler σ)
    (hR : Appearance R) (hrest : ∀ i ∈ rest, i.Passes R) :
    ∀ i ∈ (guardedBy policy handler rest).interceptors, i.LeavesAlone R := by
  intro i hi
  rcases List.mem_append.mp hi with hguard | hi
  · obtain ⟨p, -, rfl⟩ := List.mem_map.mp hguard
    exact CorsProcessor.interceptor_leavesAlone hR _ p
  · exact (hrest i hi).toLeavesAlone

private theorem Chain.preHandleEach_guarded (hR : Appearance R)
    (hpre : Cors.isPreflight req = false)
    (htype : req.dispatchType = .request) (hrest : ∀ i ∈ rest, i.Passes R) :
    let c := guardedBy policy handler rest
    (preHandleEach (c.call req) (placed c.interceptors) none {}).Gives R fun x =>
      x.2.2 = (Cors.guarded policy req).response ∧
      ((Cors.guarded policy req).allowed → x.1 = .passed) ∧
      ((Cors.guarded policy req).allowed = false → ∃ place i, x.1 = .refused place i) := by
  rw [Cors.guarded_of_actual hpre]
  cases policy with
  | none =>
    have hplaced : ∀ p ∈ placed rest, p.2.Passes R := fun p hp => hrest _ (mem_of_mem_placed hp)
    apply (preHandleEach_gives hR hplaced none).mono
    rintro x ⟨hpassed, hres⟩
    refine ⟨hres, fun _ => hpassed, ?_⟩
    rintro ⟨⟩
  | some p =>
    let guard : Interceptor σ := CorsProcessor.standard.interceptor p
    let tail : List (Nat × Interceptor σ) := (rest.zipIdx 1).map fun q => (q.2, q.1)
    have htail : tail.map (·.2) = rest := (List.cons.inj (map_snd_placed (guard :: rest))).2
    have hpasses : ∀ q ∈ tail, q.2.Passes R := by
      intro q hq
      apply hrest
      rw [← htail]
      exact List.mem_map_of_mem hq
    change (preHandleEach ⟨req, handler.name⟩ ((0, guard) :: tail) none {}).Gives R _
    rw [preHandleEach]
    apply Act.Gives.bind hR (CorsProcessor.guard_gives hR p {} htype)
    rintro _ rfl
    dsimp only [Option.elim_some]
    cases (Cors.process (some p) req {}).allowed with
    | true =>
      apply (preHandleEach_gives hR hpasses (some 0)).mono
      rintro x ⟨hpassed, hres⟩
      refine ⟨hres, fun _ => hpassed, ?_⟩
      rintro ⟨⟩
    | false =>
      refine .pure hR ⟨rfl, ?_, fun _ => ⟨0, guard, rfl⟩⟩
      rintro ⟨⟩

theorem Chain.preHandle_guarded (hR : Appearance R) (hpre : Cors.isPreflight req = false)
    (htype : req.dispatchType = .request) (hrest : ∀ i ∈ rest, i.Passes R) :
    let c := guardedBy policy handler rest
    (c.preHandle req {}).Gives R fun x => x.1 = .ok (Cors.guarded policy req).allowed ∧
      x.2.2 = (Cors.guarded policy req).response ∧ x.2.1.handler = handler ∧
      x.2.1.interceptors = c.interceptors := by
  intro c
  rw [preHandle]
  apply Act.Gives.bind hR (preHandleEach_guarded hR hpre htype hrest)
  rintro ⟨result, cursor, _⟩ ⟨rfl, hpassed, hrefused⟩
  cases hallowed : (Cors.guarded policy req).allowed with
  | true =>
    obtain rfl := hpassed hallowed
    exact .pure hR ⟨rfl, rfl, rfl, rfl⟩
  | false =>
    obtain ⟨place, i, rfl⟩ := hrefused hallowed
    have his : ∀ i ∈ ({ c with cursor, state := .shortCircuited } : Chain σ).interceptors,
        i.LeavesAlone R := guardedBy_leavesAlone policy handler hR hrest
    apply Act.Gives.emit_bind hR
    apply Act.Gives.bind hR (complete_gives hR his none)
    rintro ⟨c', _⟩ ⟨rfl, hhandler, his⟩
    exact .pure hR ⟨rfl, rfl, hhandler, his⟩

namespace Dispatcher

variable {d : Dispatcher σ} {c : Chain σ} {x : Exchange}

private theorem finish_gives (hR : Appearance R) (hc : ∀ i ∈ c.interceptors, i.LeavesAlone R) :
    (d.finish c x none).Gives R (· = .ok x) := by
  have hpost : (d.postHandleAndRender c x none).Gives R
      (· = (.ok (), { c with state := .postHandling }, x)) := by
    rw [postHandleAndRender, Option.mapM_none, pure_bind]
    apply Act.Gives.bind hR (Chain.postHandle_gives hR hc none)
    rintro _ rfl
    exact .pure hR rfl
  have his : ∀ i ∈ ({ c with state := .postHandling } : Chain σ).interceptors, i.LeavesAlone R := hc
  apply Act.Gives.bind hR hpost
  rintro _ rfl
  apply Act.Gives.bind hR (Chain.complete_gives hR his none)
  rintro ⟨c', _⟩ ⟨rfl, -, -⟩
  exact .pure hR rfl

/-- Whatever a chain that lets everything through ends with, the response is that of the guard. It
ends with an error only when the guard let the request pass and the handler raised that error. -/
theorem runChain_gives (hR : Appearance R) (hpre : Cors.isPreflight req = false)
    (htype : req.dispatchType = .request) (hhandler : handler.LeavesAlone R)
    (hrest : ∀ i ∈ rest, i.Passes R) :
    (d.runChain (.guardedBy policy handler rest) ⟨req, {}⟩).Gives R fun r =>
      (∀ outcome, r = .ok outcome →
        outcome.exchange.response = (Cors.guarded policy req).response) ∧
      ∀ e, r = .error e → (Cors.guarded policy req).allowed ∧ handler.Raises e := by
  have hc := Chain.guardedBy_leavesAlone policy handler hR hrest
  rw [runChain]
  apply Act.Gives.bind hR (Chain.preHandle_guarded hR hpre htype hrest)
  rintro ⟨_, c₁, _⟩ ⟨rfl, rfl, hc₁, his₁⟩
  dsimp only at hc₁ his₁
  rw [← his₁] at hc
  cases hallowed : (Cors.guarded policy req).allowed with
  | false =>
    apply Act.Gives.emit_bind hR
    refine .pure hR ⟨?_, ?_⟩
    · rintro _ ⟨⟩
      rfl
    · rintro _ ⟨⟩
  | true =>
    rw [← hc₁] at hhandler
    apply Act.Gives.bind hR (Chain.invoke_gives hhandler)
    rintro ⟨result, c₂, _⟩ ⟨rfl, hview, hraises, his₂⟩
    dsimp only at his₂
    rw [← his₂] at hc
    rcases result with e | _ | shown | deferred
    · apply Act.Gives.emit_bind hR
      apply Act.Gives.bind hR (Chain.complete_gives hR hc (some e))
      intro _ _
      refine .pure hR ⟨?_, ?_⟩
      · rintro _ ⟨⟩
      · rintro _ ⟨⟩
        exact ⟨rfl, hc₁ ▸ hraises e rfl⟩
    · dsimp only
      apply Act.Gives.bind hR (finish_gives hR hc)
      rintro _ rfl
      refine .pure hR ⟨?_, ?_⟩
      · rintro _ ⟨⟩
        rfl
      · rintro _ ⟨⟩
    · exact absurd rfl (hview shown)
    · dsimp only
      apply Act.Gives.bind hR (Chain.notifyAsync_gives hR hc)
      rintro ⟨c₃, _⟩ rfl
      apply Act.Gives.emit_bind hR
      refine .pure hR ⟨?_, ?_⟩
      · rintro _ ⟨⟩
        rfl
      · rintro _ ⟨⟩

end Dispatcher

end

end Switchyard
