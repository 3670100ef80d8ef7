import Switchyard.Proofs.Dispatch.Suspension
import Switchyard.Proofs.Dispatch.Visits
/-!
# Continued requests

Two runs behind a handler, one for a request and one for the same request continued after it was
suspended. When no callback, resolver or view reads the dispatch type, the two runs make the same
calls (`Visits.twin`). They need not go in the same world, only in worlds that look alike.
-/

namespace Switchyard

variable {σ α β : Type} {R : World σ → World σ → Prop}

/-- The request as it comes back after it was suspended. -/
def Request.continued (req : Request) : Request := { req with dispatchType := .async }

def Call.continued (c : Call) : Call := { c with request := c.request.continued }

def Exchange.continued (x : Exchange) : Exchange := { x with request := x.request.continued }

def Visit.continued (v : Visit) : Visit := { v with exchange := v.exchange.continued }

private theorem Request.publishAll_continued (req : Request) (as : List Attribute) :
    req.continued.publishAll as = (req.publishAll as).continued := by
  induction as generalizing req with
  | nil => rfl
  | cons a as ih => exact ih (req.publish a)

/-- Two actions do the same in worlds that look alike. -/
def Act.Agrees (R : World σ → World σ → Prop) (a b : Act σ α) : Prop :=
  ∀ w w', R w w' → (b.run w').1 = (a.run w).1 ∧ R (a.run w).2 (b.run w').2

namespace Act.Agrees

protected theorem pure (x : α) : Act.Agrees R (pure x : Act σ α) (pure x) := fun _ _ hw => ⟨rfl, hw⟩

protected theorem bind {a b : Act σ α} {f g : α → Act σ β} (ha : a.Agrees R b)
    (hf : ∀ x, (f x).Agrees R (g x)) : (a >>= f).Agrees R (b >>= g) := by
  intro w w' hw
  obtain ⟨hresult, hw₁⟩ := ha w w' hw
  change ((g (b.run w').1).run (b.run w').2).1 = ((f (a.run w).1).run (a.run w).2).1 ∧
    R ((f (a.run w).1).run (a.run w).2).2 ((g (b.run w').1).run (b.run w').2).2
  rw [hresult]
  exact hf _ _ _ hw₁

theorem of_run {a b : Act σ α} (ha : a.Agrees R b) {x y : α} {w w' w₁ w₁' : World σ} (hw : R w w')
    (run : a.run w = (x, w₁)) (run' : b.run w' = (y, w₁')) : y = x ∧ R w₁ w₁' := by
  have h := ha w w' hw
  rw [run, run'] at h
  exact h

end Act.Agrees

/-- Worlds can look alike although they differ in what was reported, and in channels that are
closed. To callbacks that read no state all worlds look alike. -/
structure Appearance (R : World σ → World σ → Prop) : Prop where
  equivalence : Equivalence R
  reported : ∀ w e, R w (World.reported w e)
  closed : ∀ w k, R w (World.withChannel w k Channel.close)

namespace Appearance

theorem reportedAll (hR : Appearance R) (w : World σ) (es : List Event) :
    R w (w.reportedAll es) := by
  induction es generalizing w with
  | nil => exact hR.equivalence.refl w
  | cons e es ih => exact hR.equivalence.trans (hR.reported w e) (ih (w.reported e))

theorem congr (hR : Appearance R) {v v' w w' : World σ} (hv : R v v') (hw : R w w') (h : R v w) :
    R v' w' :=
  hR.equivalence.trans (hR.equivalence.symm hv) (hR.equivalence.trans h hw)

end Appearance

def View.Indifferent (v : View) : Prop :=
  ∀ model req res, v.render model req.continued res = v.render model req res

/-- A view that comes along does not read the dispatch type. -/
def ViewRef.Indifferent : ViewRef → Prop
  | .view v => v.Indifferent
  | .name _ => True

def ModelAndView.Indifferent (shown : ModelAndView) : Prop :=
  ∀ ref ∈ shown.view, ref.Indifferent

/-- What an interceptor does after the handler does not depend on the dispatch type, and the views
that it chooses do not read it. When it hears of background work it leaves the response alone, and
the world to its looks. -/
structure Interceptor.Indifferent (R : World σ → World σ → Prop) (i : Interceptor σ) : Prop where
  post : ∀ call res shown,
    (i.postHandle call res shown).Agrees R (i.postHandle call.continued res shown)
  views : ∀ call res shown w, (∀ m ∈ shown, m.Indifferent) →
    ∀ m ∈ ((i.postHandle call res shown).run w).1.2.2, m.Indifferent
  after : ∀ call res error,
    (i.afterCompletion call res error).Agrees R (i.afterCompletion call.continued res error)
  started : ∀ started ∈ i.asyncStarted, ∀ call res w,
    ((started call res).run w).1.2 = res ∧ R w ((started call res).run w).2

/-- The translator and the resolvers of a dispatcher do not read the dispatch type, nor do the views
that these find. -/
structure Dispatcher.Indifferent (R : World σ → World σ → Prop) (d : Dispatcher σ) : Prop where
  viewName? : ∀ req, d.viewName? req.continued = d.viewName? req
  resolve : ∀ r ∈ d.resolvers, ∀ name locale req,
    (r.resolve name locale req).Agrees R (r.resolve name locale req.continued)
  views : ∀ r ∈ d.resolvers, ∀ name locale req w v published,
    ((r.resolve name locale req).run w).1 = (.ok (some v), published) → v.Indifferent

section

variable {d : Dispatcher σ}

theorem Dispatcher.Indifferent.named (hd : d.Indifferent R) (req : Request) (shown : ModelAndView) :
    d.named req.continued shown = d.named req shown := by
  rw [Dispatcher.named, Dispatcher.named, hd.viewName?]

theorem Dispatcher.named_indifferent {shown : ModelAndView} (hshown : shown.Indifferent)
    (req : Request) : (d.named req shown).Indifferent := by
  rw [named]
  split
  · intro ref href
    cases href
    trivial
  · exact hshown

private theorem ViewResolver.first_agrees {name locale : String} {rs : List (ViewResolver σ)}
    (hrs : ∀ r ∈ rs, ∀ req,
      (r.resolve name locale req).Agrees R (r.resolve name locale req.continued)) (req : Request) :
    (ViewResolver.first name locale rs req).Agrees R (first name locale rs req.continued) := by
  induction rs generalizing req with
  | nil => exact .pure _
  | cons r rs ih =>
    rw [List.forall_mem_cons] at hrs
    rw [first, first]
    apply Act.Agrees.bind (hrs.1 req)
    rintro ⟨result, published⟩
    cases result with
    | error e => exact .pure _
    | ok view? =>
      cases view? with
      | some view => exact .pure _
      | none =>
        dsimp only
        rw [Request.publishAll_continued]
        exact .bind (ih hrs.2 _) fun _ => .pure _

private theorem ViewResolver.first_views {name locale : String} {rs : List (ViewResolver σ)}
    (hrs : ∀ r ∈ rs, ∀ req w v published,
      ((r.resolve name locale req).run w).1 = (.ok (some v), published) → v.Indifferent)
    {req : Request} {w : World σ} {v : View} {published : List Attribute}
    (found : ((ViewResolver.first name locale rs req).run w).1 = (.ok (some v), published)) :
    v.Indifferent := by
  induction rs generalizing req w published with
  | nil => cases found
  | cons r rs ih =>
    rw [List.forall_mem_cons] at hrs
    rw [first, StateT.run_bind] at found
    generalize hrun : (r.resolve name locale req).run w = answer at found
    obtain ⟨⟨result, own⟩, w₁⟩ := answer
    cases result with
    | error e => cases found
    | ok view? =>
      cases view? with
      | some view =>
        cases found
        exact hrs.1 _ _ _ _ (congrArg Prod.fst hrun)
      | none =>
        change ((first name locale rs (req.publishAll own) >>= _ : Act σ _).run w₁).1 = _ at found
        rw [StateT.run_bind] at found
        generalize hlater : (first name locale rs (req.publishAll own)).run w₁ = later at found
        obtain ⟨⟨result', more⟩, w₂⟩ := later
        cases found
        exact ih hrs.2 (congrArg Prod.fst hlater)

private theorem Dispatcher.viewOf_agrees (hR : Appearance R) (hd : d.Indifferent R) (req : Request)
    (ref : ViewRef) : (d.viewOf req ref).Agrees R (d.viewOf req.continued ref) := by
  cases ref with
  | view v => exact .pure _
  | name name =>
    apply Act.Agrees.bind (ViewResolver.first_agrees (fun r hr => hd.resolve r hr name _) req)
    rintro ⟨result, published⟩
    cases result with
    | error e => exact .pure _
    | ok view? =>
      cases view? with
      | some view => exact .pure _
      | none =>
        apply Act.Agrees.bind _ fun _ => .pure _
        intro w w' hw
        exact ⟨rfl, hR.congr (hR.reported w _) (hR.reported w' _) hw⟩

private theorem Dispatcher.viewOf_views (hd : d.Indifferent R) {req : Request} {ref : ViewRef}
    (href : ref.Indifferent) {w : World σ} {v : View} {published : List Attribute}
    (found : ((d.viewOf req ref).run w).1 = (.ok v, published)) : v.Indifferent := by
  cases ref with
  | view v' =>
    cases found
    exact href
  | name name =>
    rw [viewOf, StateT.run_bind] at found
    generalize hrun : (ViewResolver.first name (d.locale req) d.resolvers req).run w = answer at found
    obtain ⟨⟨result, own⟩, w₁⟩ := answer
    cases result with
    | error e => cases found
    | ok view? =>
      cases view? with
      | none => cases found
      | some view =>
        cases found
        exact ViewResolver.first_views (fun r hr => hd.views r hr name _) (congrArg Prod.fst hrun)

end

/-- The scene of a request, and one of the same request continued. -/
inductive Twin (R : World σ → World σ → Prop) : Scene σ → Scene σ → Prop where
  | intro {s : Scene σ} {w' : World σ} (hw : R s.world w') (hshown : ∀ m ∈ s.shown, m.Indifferent) :
    Twin R s ⟨w', s.exchange.continued, s.shown⟩

/-- Calls behind the handler that can differ only in their answers. -/
inductive Callback.Asks : Callback → Callback → Prop where
  | post {place : Nat} {answer answer' : Except DispatchError Unit} :
    Asks (.post place answer) (.post place answer')
  | view {ref ref' : Option ViewRef} {answer answer' : Except DispatchError Unit} :
    Asks (.view ref answer) (.view ref' answer')
  | after {place : Nat} {error : Option DispatchError} :
    Asks (.after place error) (.after place error)

/-- What comes of a view that was looked for. -/
def ModelAndView.shownBy (shown : ModelAndView) (req : Request) (res : Response) :
    Except DispatchError View → Except DispatchError Unit × Response
  | .error e => (.error e, { res with status := shown.status.getD res.status })
  | .ok view => view.render shown.model req { res with status := shown.status.getD res.status }

section

variable {d : Dispatcher σ} {h h' : Handler σ} {is : List (Interceptor σ)}
  {s s' s₁ s₁' : Scene σ}

theorem Twin.visit (ht : Twin R s s') (b : Callback) : s'.visit b = (s.visit b).continued := by
  cases ht
  rfl

theorem Twin.reportedAll (hR : Appearance R) (ht : Twin R s s') (es es' : List Event) :
    Twin R { s with world := s.world.reportedAll es }
      { s' with world := s'.world.reportedAll es' } := by
  cases ht with
  | intro hw hshown =>
    exact .intro (hR.congr (hR.reportedAll _ es) (hR.reportedAll _ es') hw) hshown

private theorem Scene.call_continued (s : Scene σ) (w' : World σ) (hname : h'.name = h.name) :
    Scene.call ⟨w', s.exchange.continued, s.shown⟩ h' = (s.call h).continued := by
  rw [call, hname]
  rfl

/-- A call of a view is none if there is none, or goes by what is found for the reference. -/
private theorem Calls.of_view {ref : Option ViewRef} {answer : Except DispatchError Unit}
    (hc : Calls d h is (.view ref answer) s s₁) :
    (s.shown.bind (·.view) = none ∧ ref = none ∧ answer = .ok () ∧
      s₁ = s.wrote s.world
        { s.response with status := (s.shown.bind (·.status)).getD s.response.status }) ∨
    ∃ shown ref₀ result published w, s.shown = some shown ∧ shown.view = some ref₀ ∧
      (d.viewOf s.request ref₀).run s.world = ((result, published), w) ∧ ref = some ref₀ ∧
      let painted := shown.shownBy (s.request.publishAll published) s.response result
      answer = painted.1 ∧ s₁ = ⟨w, ⟨s.request.publishAll published, painted.2⟩, s.shown⟩ := by
  cases hc with
  | noView hs => exact .inl ⟨hs, rfl, rfl, rfl⟩
  | unresolved hs hv resolve =>
    exact .inr ⟨_, _, _, _, _, hs, hv, resolve, rfl, rfl, rfl⟩
  | @rendered s shown ref view published answer res w hs hv resolve render =>
    refine .inr ⟨_, _, _, _, _, hs, hv, resolve, rfl, ?_⟩
    rw [ModelAndView.shownBy, render]
    exact ⟨rfl, rfl⟩

private theorem Calls.view_twin (hR : Appearance R) (hd : d.Indifferent R) (ht : Twin R s s')
    {ref ref' : Option ViewRef} {answer answer' : Except DispatchError Unit}
    (hc : Calls d h is (.view ref answer) s s₁) (hc' : Calls d h' is (.view ref' answer') s' s₁') :
    Callback.view ref' answer' = .view ref answer ∧ Twin R s₁ s₁' := by
  cases ht with
  | intro hw hshown =>
    rcases hc.of_view with ⟨hnone, rfl, rfl, rfl⟩ |
      ⟨shown, ref₀, result, published, w₁, hs, hv, resolve, rfl, rfl, rfl⟩
    · rcases hc'.of_view with ⟨-, rfl, rfl, rfl⟩ | ⟨shown, ref₀, _, _, _, hs, hv, -⟩
      · exact ⟨rfl, .intro hw hshown⟩
      · dsimp only at hs
        rw [hs, Option.bind_some, hv] at hnone
        cases hnone
    · rcases hc'.of_view with ⟨hnone, -⟩ | ⟨_, _, result', published', w₁', hs', hv', resolve', rfl,
        rfl, rfl⟩
      · dsimp only at hnone
        rw [hs, Option.bind_some, hv] at hnone
        cases hnone
      · obtain rfl := Option.some.inj (hs.symm.trans hs')
        obtain rfl := Option.some.inj (hv.symm.trans hv')
        have hagrees := d.viewOf_agrees hR hd s.request ref₀
        obtain ⟨hresult, hw₁⟩ := hagrees.of_run hw resolve resolve'
        cases hresult
        have hpainted : shown.shownBy (s.request.continued.publishAll published) s.response result =
            shown.shownBy (s.request.publishAll published) s.response result := by
          cases result with
          | error e => rfl
          | ok view =>
            have hview := d.viewOf_views hd (hshown shown hs ref₀ hv) (congrArg Prod.fst resolve)
            rw [Request.publishAll_continued]
            exact hview shown.model _ _
        change Callback.view _ (shown.shownBy (s.request.continued.publishAll published) s.response
            result).1 = _ ∧ Twin R _ ⟨w₁', ⟨s.request.continued.publishAll published,
              (shown.shownBy (s.request.continued.publishAll published) s.response result).2⟩,
              s.shown⟩
        rw [hpainted, Request.publishAll_continued]
        exact ⟨rfl, .intro hw₁ hshown⟩

theorem Calls.twin (hR : Appearance R) (hd : d.Indifferent R) (his : ∀ i ∈ is, i.Indifferent R)
    (hname : h'.name = h.name) (ht : Twin R s s') {b b' : Callback} (hb : b.Asks b')
    (hc : Calls d h is b s s₁) (hc' : Calls d h' is b' s' s₁') : b' = b ∧ Twin R s₁ s₁' := by
  cases hb with
  | view => exact hc.view_twin hR hd ht hc'
  | post =>
    cases ht with
    | intro hw hshown =>
      cases hc with
      | post here run =>
        cases hc' with
        | post here' run' =>
          obtain rfl := Option.some.inj (here.symm.trans here')
          have hi := his _ (List.mem_of_getElem? here)
          rw [s.call_continued _ hname] at run'
          obtain ⟨hresult, hw₁⟩ := (hi.post _ _ _).of_run hw run run'
          cases hresult
          have hviews := hi.views (s.call h) s.response s.shown s.world hshown
          rw [run] at hviews
          exact ⟨rfl, .intro hw₁ hviews⟩
  | after =>
    cases ht with
    | intro hw hshown =>
      cases hc with
      | after here run =>
        cases hc' with
        | after here' run' =>
          obtain rfl := Option.some.inj (here.symm.trans here')
          have hi := his _ (List.mem_of_getElem? here)
          rw [s.call_continued _ hname] at run'
          obtain ⟨hresult, hw₁⟩ := (hi.after _ _ _).of_run hw run run'
          cases hresult
          exact ⟨rfl, .intro hw₁ hshown⟩

private theorem Visits.of_nil (hv : Visits d h is [] s s₁) :
    ∃ es, s₁ = { s with world := s.world.reportedAll es } := by
  generalize hnil : ([] : List Visit) = v at hv
  induction hv with
  | done => exact ⟨[], rfl⟩
  | report e _ ih =>
    obtain ⟨es, hs⟩ := ih hnil
    exact ⟨e :: es, hs⟩
  | call first => cases hnil

/-- A run of calls that is not empty: some reports, the first call, and the rest. -/
theorem Visits.of_cons {x : Visit} {v : List Visit} (hv : Visits d h is (x :: v) s s₁) :
    ∃ es s₀, Calls d h is x.callback { s with world := s.world.reportedAll es } s₀ ∧
      x = s.visit x.callback ∧ Visits d h is v s₀ s₁ := by
  generalize hcons : x :: v = u at hv
  induction hv with
  | done => cases hcons
  | report e _ ih =>
    obtain ⟨es, s₀, first, hx, rest⟩ := ih hcons
    exact ⟨e :: es, s₀, first, hx, rest⟩
  | call first rest =>
    cases hcons
    exact ⟨[], _, first, rfl, rest⟩

section

variable (hR : Appearance R) (hd : d.Indifferent R) (his : ∀ i ∈ is, i.Indifferent R)
  (hname : h'.name = h.name)

include hR hd his hname

private theorem Visits.twin_first {b b' : Callback} (hb : b.Asks b') {t t' : List Callback}
    {v u : List Visit} (hvt : v.map Visit.callback = b :: t) (hut : u.map Visit.callback = b' :: t')
    (hv : Visits d h is v s s₁) (hu : Visits d h' is u s' s₁') (htwin : Twin R s s') :
    b' = b ∧ ∃ x v₀ u₀ s₀ s₀', v = x :: v₀ ∧ u = x.continued :: u₀ ∧ v₀.map Visit.callback = t ∧
      u₀.map Visit.callback = t' ∧ Visits d h is v₀ s₀ s₁ ∧ Visits d h' is u₀ s₀' s₁' ∧
      Twin R s₀ s₀' := by
  obtain ⟨x, v₀, rfl, rfl, hv₀⟩ := List.map_eq_cons_iff.mp hvt
  obtain ⟨y, u₀, rfl, rfl, hu₀⟩ := List.map_eq_cons_iff.mp hut
  obtain ⟨es, s₀, first, hx, rest⟩ := hv.of_cons
  obtain ⟨es', s₀', first', hy, rest'⟩ := hu.of_cons
  obtain ⟨hsame, htwin'⟩ := first.twin hR hd his hname (htwin.reportedAll hR es es') hb first'
  have hyx : y = x.continued := by rw [hy, hsame, htwin.visit, ← hx]
  exact ⟨hsame, x, v₀, u₀, s₀, s₀', rfl, by rw [hyx], hv₀, hu₀, rest, rest', htwin'⟩

private theorem Visits.twin_of_same {t : List Callback} (ht : ∀ b ∈ t, b.Asks b) {v u : List Visit}
    (hvt : v.map Visit.callback = t) (hut : u.map Visit.callback = t) (hv : Visits d h is v s s₁)
    (hu : Visits d h' is u s' s₁') (htwin : Twin R s s') :
    u = v.map Visit.continued ∧ Twin R s₁ s₁' := by
  induction t generalizing v u s s' with
  | nil =>
    obtain rfl := List.map_eq_nil_iff.mp hvt
    obtain rfl := List.map_eq_nil_iff.mp hut
    obtain ⟨es, rfl⟩ := hv.of_nil
    obtain ⟨es', rfl⟩ := hu.of_nil
    exact ⟨rfl, htwin.reportedAll hR es es'⟩
  | cons b t ih =>
    rw [List.forall_mem_cons] at ht
    obtain ⟨-, x, v, u, s₀, s₀', rfl, rfl, hvt', hut', rest, rest', htwin'⟩ :=
      hv.twin_first hR hd his hname ht.1 hvt hut hu htwin
    obtain ⟨rfl, htwin₁⟩ := ih ht.2 hvt' hut' rest rest' htwin'
    exact ⟨rfl, htwin₁⟩

end

/-- What can come behind the handler when `j` of `n` interceptors have not yet seen what is to be
shown. -/
inductive Remains (n : Nat) (x : Exchange) :
    Nat → List Callback → Except DispatchError Exchange → Prop where
  | postFailed {j : Nat} {e : DispatchError} :
    Remains n x (j + 1) (.post j (.error e) :: Callback.completed n (some e)) (.error e)
  | posted {j : Nat} {t : List Callback} {r : Except DispatchError Exchange} (ht : Remains n x j t r) :
    Remains n x (j + 1) (.post j (.ok ()) :: t) r
  | viewFailed {ref : ViewRef} {e : DispatchError} :
    Remains n x 0 (.view (some ref) (.error e) :: Callback.completed n (some e)) (.error e)
  | shown {ref : Option ViewRef} :
    Remains n x 0 (.view ref (.ok ()) :: Callback.completed n none) (.ok x)

private theorem Remains.after_posted {n j k : Nat} {x : Exchange} {t : List Callback}
    {r : Except DispatchError Exchange} (hk : k ≤ j) (ht : Remains n x k t r) :
    Remains n x j (Callback.posted j k ++ t) r := by
  induction hk with
  | refl =>
    rw [Callback.posted_self]
    exact ht
  | @step j hk ih =>
    rw [Callback.posted_succ hk]
    exact .posted ih

private theorem Finishes.remains {n : Nat} {x : Exchange} {t : List Callback}
    {r : Except DispatchError Exchange} (ht : Finishes n x t r) : Remains n x n t r := by
  cases ht with
  | postFailed hk => exact .after_posted hk .postFailed
  | viewFailed => exact .after_posted (Nat.zero_le n) .viewFailed
  | shown => exact .after_posted (Nat.zero_le n) .shown

private theorem Callback.asks_completed (n : Nat) (error : Option DispatchError) :
    ∀ b ∈ completed n error, b.Asks b := by
  intro b hb
  obtain ⟨place, -, rfl⟩ := List.mem_map.mp hb
  exact .after

/-- Two runs behind the handler, for a request and for the same request continued, make the same
calls and end alike. -/
theorem Visits.twin (hR : Appearance R) (hd : d.Indifferent R) (his : ∀ i ∈ is, i.Indifferent R)
    (hname : h'.name = h.name) {n j : Nat} {x x' : Exchange} {t t' : List Callback}
    {r r' : Except DispatchError Exchange} {v u : List Visit} (hr : Remains n x j t r)
    (hr' : Remains n x' j t' r') (hvt : v.map Visit.callback = t) (hut : u.map Visit.callback = t')
    (hv : Visits d h is v s s₁) (hu : Visits d h' is u s' s₁') (htwin : Twin R s s') :
    u = v.map Visit.continued ∧ Twin R s₁ s₁' ∧
      ((∃ e, r = .error e ∧ r' = .error e) ∨ r = .ok x ∧ r' = .ok x') := by
  induction hr generalizing v u t' s s' with
  | @postFailed j e =>
    cases hr' with
    | @postFailed _ e' =>
      obtain ⟨hsame, x, v, u, s₀, s₀', rfl, rfl, hvt', hut', rest, rest', htwin'⟩ :=
        hv.twin_first hR hd his hname .post hvt hut hu htwin
      cases hsame
      obtain ⟨rfl, htwin₁⟩ := rest.twin_of_same hR hd his hname (Callback.asks_completed n (some e))
        hvt' hut' rest' htwin'
      exact ⟨rfl, htwin₁, .inl ⟨e, rfl, rfl⟩⟩
    | posted ht' =>
      have hsame := (hv.twin_first hR hd his hname .post hvt hut hu htwin).1
      cases hsame
  | posted ht ih =>
    cases hr' with
    | postFailed =>
      have hsame := (hv.twin_first hR hd his hname .post hvt hut hu htwin).1
      cases hsame
    | posted ht' =>
      obtain ⟨-, x, v, u, s₀, s₀', rfl, rfl, hvt', hut', rest, rest', htwin'⟩ :=
        hv.twin_first hR hd his hname .post hvt hut hu htwin
      obtain ⟨rfl, htwin₁⟩ := ih ht' hvt' hut' rest rest' htwin'
      exact ⟨rfl, htwin₁⟩
  | @viewFailed ref e =>
    cases hr' with
    | @viewFailed ref' e' =>
      obtain ⟨hsame, x, v, u, s₀, s₀', rfl, rfl, hvt', hut', rest, rest', htwin'⟩ :=
        hv.twin_first hR hd his hname .view hvt hut hu htwin
      cases hsame
      obtain ⟨rfl, htwin₁⟩ := rest.twin_of_same hR hd his hname (Callback.asks_completed n (some e))
        hvt' hut' rest' htwin'
      exact ⟨rfl, htwin₁, .inl ⟨e, rfl, rfl⟩⟩
    | shown =>
      have hsame := (hv.twin_first hR hd his hname .view hvt hut hu htwin).1
      cases hsame
  | @shown ref =>
    cases hr' with
    | viewFailed =>
      have hsame := (hv.twin_first hR hd his hname .view hvt hut hu htwin).1
      cases hsame
    | shown =>
      obtain ⟨-, x, v, u, s₀, s₀', rfl, rfl, hvt', hut', rest, rest', htwin'⟩ :=
        hv.twin_first hR hd his hname .view hvt hut hu htwin
      obtain ⟨rfl, htwin₁⟩ := rest.twin_of_same hR hd his hname (Callback.asks_completed n none)
        hvt' hut' rest' htwin'
      exact ⟨rfl, htwin₁, .inr ⟨rfl, rfl⟩⟩

/-- However a request ends behind its handler, it ends alike when it is continued. -/
theorem Concludes.twin (hR : Appearance R) (hd : d.Indifferent R) (his : ∀ i ∈ is, i.Indifferent R)
    (hname : h'.name = h.name) {n : Nat} {value : AsyncValue} {r r' : Except DispatchError Exchange}
    {v u : List Visit}
    (hr : Concludes n s₁.exchange (some value) (v.map Visit.callback) (some r))
    (hr' : Concludes n s₁'.exchange (some value) (u.map Visit.callback) (some r'))
    (hv : Visits d h is v s s₁) (hu : Visits d h' is u s' s₁') (htwin : Twin R s s') :
    u = v.map Visit.continued ∧ Twin R s₁ s₁' ∧ r' = r.map Exchange.continued := by
  generalize hvt : v.map Visit.callback = t at hr
  generalize hut : u.map Visit.callback = t' at hr'
  cases hr with
  | finished ht =>
    cases hr' with
    | finished ht' =>
      obtain ⟨hu', htwin₁, hresults⟩ :=
        hv.twin hR hd his hname ht.remains ht'.remains hvt hut hu htwin
      refine ⟨hu', htwin₁, ?_⟩
      rcases hresults with ⟨e, rfl, rfl⟩ | ⟨rfl, rfl⟩
      · rfl
      · cases htwin₁
        rfl
  | @failed e =>
    cases hr' with
    | failed =>
      obtain ⟨hu', htwin₁⟩ := hv.twin_of_same hR hd his hname (Callback.asks_completed n (some e)) hvt
        hut hu htwin
      exact ⟨hu', htwin₁, rfl⟩

end

end Switchyard
