import Switchyard.Proofs.Config.Readiness
import Switchyard.Proofs.Dispatch.Passing
import Switchyard.Proofs.Routing.Choice
/-!
# Mappings of the same settings

Settings from which one mapping was built make one over any other handlers and interceptors with the
same names (`Settings.mapping_builds`). The two decline the same requests (`Settings.declines_congr`)
and have the same policy for a path (`Settings.policyFor_congr`).
-/

namespace Switchyard

open Config

namespace Router

variable {α β : Type} {r : Router α} {r' : Router β} {m : Method} {path : String}

/-- The pattern and the methods of each route. -/
def conditions (r : Router α) : List (PathPattern × List Method) :=
  r.routes.map fun route => (route.pattern, route.methods)

private theorem serving_eq_nil_iff : r.serving m path = [] ↔
    ∀ c ∈ r.conditions, ¬ ((c.2 = [] ∨ m ∈ c.2) ∧ c.1.isMatch path) := by
  simp [serving, conditions]

private theorem route?_eq_none_congr (h : r'.conditions = r.conditions) (m : Method)
    (path : String) : r'.route? m path = none ↔ r.route? m path = none := by
  have hserving (m : Method) : r'.serving m path = [] ↔ r.serving m path = [] := by
    rw [serving_eq_nil_iff, serving_eq_nil_iff, h]
  simp only [route?_eq_none_iff, eligible, hserving]
  split <;> exact hserving _

end Router

namespace Config

variable {σ τ : Type}

namespace Setup

variable {α β : Type} {x : Setup σ α} {f : α → Setup σ β}

def Succeeds (x : Setup σ α) : Prop := ∀ w, ∃ a, (x.run.run w).1 = .ok a

protected theorem Succeeds.bind (hx : x.Succeeds) (hf : ∀ a, (f a).Succeeds) :
    (x >>= f).Succeeds := by
  intro w
  obtain ⟨a, ha⟩ := hx w
  rw [ExceptT.run_bind, StateT.run_bind]
  generalize x.run.run w = answer at ha
  obtain ⟨_, w'⟩ := answer
  obtain rfl : _ = _ := ha
  exact hf a w'

theorem Succeeds.check {result : Except Failure α} {a : α} (h : result = .ok a) :
    (Setup.check result : Setup σ α).Succeeds :=
  fun _ => ⟨a, h⟩

theorem Succeeds.mapM {as : List α} {g : α → Setup σ β} (h : ∀ a ∈ as, (g a).Succeeds) :
    (as.mapM g).Succeeds := by
  induction as with
  | nil => exact fun _ => ⟨[], rfl⟩
  | cons a as ih =>
    rw [List.forall_mem_cons] at h
    rw [List.mapM_cons]
    exact .bind h.1 fun b => .bind (ih h.2) fun bs _ => ⟨b :: bs, rfl⟩

end Setup

private theorem InterceptorSettings.build_succeeds {i : InterceptorSettings} {scope : Scope}
    (hscope : i.scope = .ok scope) {available : String → Option (Interceptor σ)}
    (havailable : (available i.name).isSome) : (i.build available).Succeeds := by
  obtain ⟨interceptor, hfound⟩ := Option.isSome_iff_exists.mp havailable
  rw [build, hfound]
  exact .bind (.check hscope) fun scope _ => ⟨{ scope, interceptor }, rfl⟩

private theorem RouteSettings.route_succeeds {s : RouteSettings} {r : Route (HandlerRef σ)}
    (h : s.route = .ok r) : ∃ r' : Route (HandlerRef τ), s.route = .ok r' := by
  rw [RouteSettings.route] at h
  obtain ⟨methods, hmethods, h⟩ := except_bind_ok h
  obtain ⟨produces, hproduces, h⟩ := except_bind_ok h
  obtain ⟨pattern, hpattern, -⟩ := except_bind_ok h
  rw [RouteSettings.route, hmethods, hproduces, hpattern]
  exact ⟨_, rfl⟩

private theorem RouteSettings.routes_succeed {settings : List RouteSettings}
    {routes : List (Route (HandlerRef σ))} (h : settings.mapM (·.route) = .ok routes) :
    ∃ routes' : List (Route (HandlerRef τ)), settings.mapM (·.route) = .ok routes' := by
  induction settings generalizing routes with
  | nil => exact ⟨[], rfl⟩
  | cons s settings ih =>
    rw [List.mapM_cons] at h
    obtain ⟨r, hr, h⟩ := except_bind_ok h
    obtain ⟨rest, hrest, -⟩ := except_bind_ok h
    obtain ⟨r', hr'⟩ := route_succeeds (τ := τ) hr
    obtain ⟨rest', hrest'⟩ := ih hrest
    rw [List.mapM_cons, hr', hrest']
    exact ⟨r' :: rest', rfl⟩

private theorem RouteSettings.route_conditions {s : RouteSettings} {r : Route (HandlerRef σ)}
    {r' : Route (HandlerRef τ)} (h : s.route = .ok r) (h' : s.route = .ok r') :
    (r'.pattern, r'.methods) = (r.pattern, r.methods) := by
  rw [RouteSettings.route] at h h'
  obtain ⟨methods, hmethods, h⟩ := except_bind_ok h
  obtain ⟨produces, hproduces, h⟩ := except_bind_ok h
  obtain ⟨pattern, hpattern, h⟩ := except_bind_ok h
  rw [hmethods, hproduces, hpattern] at h'
  cases h
  cases h'
  rfl

private theorem RouteSettings.conditions_eq {settings : List RouteSettings}
    {routes : List (Route (HandlerRef σ))} {routes' : List (Route (HandlerRef τ))}
    (h : settings.mapM (·.route) = .ok routes) (h' : settings.mapM (·.route) = .ok routes') :
    (Router.mk routes').conditions = (Router.mk routes).conditions := by
  induction settings generalizing routes routes' with
  | nil =>
    cases h
    cases h'
    rfl
  | cons s settings ih =>
    rw [List.mapM_cons] at h h'
    obtain ⟨r, hr, h⟩ := except_bind_ok h
    obtain ⟨rest, hrest, h⟩ := except_bind_ok h
    obtain ⟨r', hr', h'⟩ := except_bind_ok h'
    obtain ⟨rest', hrest', h'⟩ := except_bind_ok h'
    cases h
    cases h'
    exact List.cons_eq_cons.mpr ⟨route_conditions hr hr', ih hrest hrest'⟩

namespace Settings

variable {s : Settings} {registry : HandlerRegistry σ} {registry' : HandlerRegistry τ}
  {available : String → Option (Interceptor σ)} {available' : String → Option (Interceptor τ)}
  {m : HandlerMapping σ} {m' : HandlerMapping τ} {w : World σ} {w' : World τ}

theorem lookup_of_mapping (h : ((s.mapping registry available).run.run w).1 = .ok m) :
    ∃ router, m.lookup = .byUrl router := by
  obtain ⟨-, routes, interceptors, table, -, -, -, -, rfl⟩ := mapping_ok h
  exact ⟨_, rfl⟩

/-- Whether a mapping can be built depends on the names of handlers and interceptors alone. -/
theorem mapping_builds (h : ((s.mapping registry available).run.run w).1 = .ok m)
    (hnames : ∀ name ∈ s.handlerNames, (registry'.find? name).isSome)
    (havailable : ∀ i ∈ s.interceptors, (available' i.name).isSome) :
    (s.mapping registry' available').Succeeds := by
  obtain ⟨-, routes, interceptors, table, hroutes, -, hscopes, htable, rfl⟩ := mapping_ok h
  obtain ⟨routes', hroutes'⟩ := RouteSettings.routes_succeed (τ := τ) hroutes
  have hrouter : (s.router : Setup τ _).Succeeds := by
    rw [router]
    exact .bind (.check hroutes') fun routes _ => ⟨⟨routes⟩, rfl⟩
  have hinterceptors : (s.interceptorRegistry available').Succeeds := by
    apply Setup.Succeeds.mapM
    intro i hi
    obtain ⟨scope, hscope⟩ := hscopes i hi
    exact i.build_succeeds hscope (havailable i hi)
  have hregistered : s.handlerNames.find? (fun name => (registry'.find? name).isNone) = none := by
    rw [List.find?_eq_none]
    intro name hname
    rw [Bool.not_eq_true, Option.isNone_eq_false_iff]
    exact hnames name hname
  rw [mapping, hregistered]
  exact .bind hrouter fun router => .bind hinterceptors fun interceptors =>
    .bind (.check htable) fun table _ => ⟨_, rfl⟩

theorem declines_congr (h : ((s.mapping registry available).run.run w).1 = .ok m)
    (h' : ((s.mapping registry' available').run.run w').1 = .ok m') (req : Request) :
    m'.Declines req ↔ m.Declines req := by
  obtain ⟨-, routes, interceptors, table, hroutes, -, -, -, rfl⟩ := mapping_ok h
  obtain ⟨-, routes', interceptors', table', hroutes', -, -, -, rfl⟩ := mapping_ok h'
  rw [HandlerMapping.declines_iff rfl req w, HandlerMapping.declines_iff rfl req w']
  apply and_congr
  · simp only [Option.map_eq_none_iff]
  · exact Router.route?_eq_none_congr (RouteSettings.conditions_eq hroutes hroutes') _ _

theorem policyFor_congr (h : ((s.mapping registry available).run.run w).1 = .ok m)
    (h' : ((s.mapping registry' available').run.run w').1 = .ok m') (req : Request) :
    m'.policyFor req = m.policyFor req := by
  obtain ⟨-, routes, interceptors, table, -, -, -, htable, rfl⟩ := mapping_ok h
  obtain ⟨-, routes', interceptors', table', -, -, -, htable', rfl⟩ := mapping_ok h'
  rw [htable] at htable'
  cases htable'
  rfl

private theorem policyFor_published (h : ((s.mapping registry available).run.run w).1 = .ok m)
    (req : Request) (attributes : Attributes) :
    m.policyFor { req with attributes } = m.policyFor req := by
  obtain ⟨-, routes, interceptors, table, -, -, -, -, rfl⟩ := mapping_ok h
  cases table <;> rfl

/-- The chain that a built mapping has for a request, over handlers without policies of their own:
that of a handler and of available interceptors, under the policy for the path. -/
inductive Makes (registry : HandlerRegistry σ) (available : String → Option (Interceptor σ))
    (policy : Option CorsPolicy) (req : Request) : Chain σ → Prop where
  | answer (hpre : Cors.isPreflight req = true) : Makes registry available policy req
      { handler := CorsProcessor.standard.preFlightHandler policy }
  | guarded (hpre : Cors.isPreflight req = false) {name : String} {handler : Handler σ}
      (hname : registry.find? name = some handler) {rest : List (Interceptor σ)}
      (hrest : ∀ i ∈ rest, ∃ name, available name = some i) :
      Makes registry available policy req (.guardedBy policy handler rest)

theorem Makes.published {policy : Option CorsPolicy} {req : Request} {c : Chain σ}
    (h : Makes registry available policy req c) (attributes : Attributes) :
    Makes registry available policy { req with attributes } c := by
  cases h with
  | answer hpre => exact .answer hpre
  | guarded hpre hname hrest =>
    have hpre' : Cors.isPreflight { req with attributes } = false := hpre
    exact .guarded hpre' hname hrest

/-- What a built mapping finds for a request that it does not decline is a handler by its name. -/
theorem Describes.named (hm : s.Describes registry m) {req : Request} (hreq : ¬ m.Declines req)
    (w : World σ) : ∃ router name handler, m.lookup = .byUrl router ∧
      (((router.route? (HandlerMapping.lookupMethod req) req.path).map (·.route.target)).or
        m.defaultHandler) = some (.named name) ∧
      registry.find? name = some handler ∧ m.handlerOf (.named name) = .ok handler := by
  obtain ⟨router, hlookup, hnamed⟩ := hm.lookup
  have hfound : ∃ name ∈ s.handlerNames,
      (((router.route? (HandlerMapping.lookupMethod req) req.path).map (·.route.target)).or
        m.defaultHandler) = some (.named name) := by
    cases hroute : router.route? (HandlerMapping.lookupMethod req) req.path with
    | some found =>
      obtain ⟨name, hname, htarget⟩ := hnamed found.route (Router.mem_of_route? hroute)
      exact ⟨name, hname, congrArg some htarget⟩
    | none =>
      rw [HandlerMapping.declines_iff hlookup req w, not_and_or] at hreq
      have hdefault : m.defaultHandler ≠ none := hreq.resolve_right (not_not.mpr hroute)
      rw [hm.default] at hdefault ⊢
      obtain ⟨name, hname⟩ := Option.ne_none_iff_exists'.mp fun h => hdefault (congrArg _ h)
      rw [hname]
      exact ⟨name, List.mem_append_right _ (Option.mem_toList.mpr hname), rfl⟩
  obtain ⟨name, hname, hfound⟩ := hfound
  obtain ⟨handler, hhandler⟩ := Option.isSome_iff_exists.mp (hm.names name hname)
  refine ⟨router, name, handler, hlookup, hfound, hhandler, ?_⟩
  apply HandlerMapping.handlerOf_of_leads
  apply HandlerMapping.Leads.named
  rw [hm.registry]
  exact hhandler

theorem resolve_of_not_declines (h : ((s.mapping registry available).run.run w).1 = .ok m)
    (hplain : ∀ name handler, registry.find? name = some handler → handler.cors = none)
    {req : Request} (hreq : ¬ m.Declines req) (w₁ : World σ) :
    ∃ c attributes, ((m.resolve req).run w₁).1 = (.ok (some c), { req with attributes }) ∧
      Makes registry available (m.policyFor req) req c := by
  have hm := mapping_describes h
  obtain ⟨router, name, handler, hlookup, hfound, hname, hhandler⟩ := hm.named hreq w₁
  have hresolve := HandlerMapping.resolve_byUrl hlookup req w₁ w₁
  dsimp only at hresolve
  rw [hfound] at hresolve
  generalize (router.route? (HandlerMapping.lookupMethod req) req.path).elim []
    Lookup.published = published at hresolve
  obtain ⟨attributes, hpublished⟩ := req.publishAll_eq published
  rw [hpublished] at hresolve
  have heffective := (hm.isReady hplain).effectivePolicy_ok { req with attributes }
  rw [← hplain name handler hname] at heffective
  have hchain := HandlerMapping.chainFor_of_serves (w := w₁) ⟨hhandler, heffective⟩
  rw [HandlerMapping.chainOf_some, hchain] at hresolve
  refine ⟨_, attributes, hresolve, ?_⟩
  rw [HandlerMapping.chainUnder, policyFor_published h req attributes]
  obtain ⟨-, routes, interceptors, table, -, hinterceptors, -, -, rfl⟩ := mapping_ok h
  cases hpre : Cors.isPreflight req with
  | true =>
    have hpre' : Cors.isPreflight { req with attributes } := hpre
    rw [if_pos hpre']
    exact .answer hpre
  | false =>
    have hpre' : ¬ Cors.isPreflight { req with attributes } := Bool.eq_false_iff.mp hpre
    rw [if_neg hpre']
    refine .guarded hpre hname fun i hi => ?_
    obtain ⟨entry, hentry, rfl⟩ := List.mem_map.mp hi
    exact hinterceptors entry (List.mem_of_mem_filter hentry)

end Settings

end Config

end Switchyard
