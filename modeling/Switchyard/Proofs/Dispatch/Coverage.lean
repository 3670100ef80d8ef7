import Switchyard.Proofs.Dispatch.Resolution
import Switchyard.Proofs.Pattern.Subtree
/-!
# What interceptors of a subtree cover

An interceptor that is registered for the pattern `P/**` runs for the requests that this pattern
matches, and these are not all that routes below `P` serve: the pattern does not match across line
feeds, and path variables do.
-/

namespace Switchyard

variable {σ : Type} {m : HandlerMapping σ} {req req' : Request} {w w' : World σ} {c : Chain σ}

private theorem Scope.appliesTo_one (p : PathPattern) (path : String) :
    (Scope.mapped [p] []).appliesTo path = p.isMatch path := by
  simp [appliesTo]

private theorem InterceptorRegistry.mem_matching {r : InterceptorRegistry σ}
    {e : ScopedInterceptor σ} (he : e ∈ r) {path : String} (hpath : e.scope.appliesTo path = true) :
    e.interceptor ∈ r.matching path :=
  List.mem_map.mpr ⟨e, List.mem_filter.mpr ⟨he, hpath⟩, rfl⟩

/-- Behind the guard and the interceptors that its reference carries, a chain has all that are
registered for the path. -/
private theorem HandlerMapping.resolve_interceptors (hpre : Cors.isPreflight req = false)
    (found : (m.resolve req).run w = ((.ok (some c), req'), w')) :
    ∃ front, c.interceptors = front ++ InterceptorRegistry.matching m.interceptors req.path := by
  obtain ⟨⟨attributes, hreq⟩, ref, handler, policy, -, hc⟩ := resolve_ok found
  have hpre' : Cors.isPreflight req' = false := by
    rw [hreq]
    exact hpre
  rw [hc, chainUnder, hpre', hreq]
  exact ⟨_, (List.append_assoc _ _ _).symm⟩

namespace HandlerMapping

theorem find_byUrl {router : Router (HandlerRef σ)} {found : RouteMatch (HandlerRef σ)}
    (hlookup : m.lookup = Lookup.byUrl router)
    (hroute : router.route? (lookupMethod req) req.path = some found) (w : World σ) :
    (m.find req).run w = ((.ok (some found.route.target), Lookup.published found),
      w.reportedAll (router.routeEvents (lookupMethod req) req.path)) := by
  rw [find, hlookup, Lookup.byUrl, StateT.run_bind, StateT.run_bind, Act.emitAll_run]
  simp only [hroute]
  rfl

/-- One route, to a handler without a policy of its own, and one interceptor for the paths that
another pattern matches; both keep a record. -/
def guarded (route guard : PathPattern) : HandlerMapping (List Callback) where
  lookup := Lookup.byUrl ⟨[{ pattern := route, target := .raw (.recording (.ok .handled)) }]⟩
  interceptors := [⟨.mapped [guard] [], .recording 0⟩]

private theorem resolve_guarded {route : PathPattern} (guard : PathPattern) {path : String}
    (hserve : route.isMatch path) (w : World (List Callback)) :
    (((guarded route guard).resolve { method := .get, path }).run w).1.1 =
      .ok (some { handler := .recording (.ok .handled),
                  interceptors := if guard.isMatch path then [.recording 0] else [] }) := by
  let entry : Route (HandlerRef (List Callback)) :=
    { pattern := route, target := .raw (.recording (.ok .handled)) }
  obtain ⟨params, hparams⟩ := PathPattern.matchPath_of_isMatch hserve
  have hroute : Router.route? ⟨[entry]⟩ .get path = some ⟨entry, params⟩ := by
    simp [entry, Router.route?, Router.best?, Router.candidates, Route.accepts, hparams,
      Router.better]
  let req : Request := { method := .get, path }
  let served := req.publishAll (Lookup.published ⟨entry, params⟩)
  have hserves : (guarded route guard).Serves served entry.target
      (.recording (.ok .handled)) none := ⟨rfl, rfl⟩
  have hmatching : InterceptorRegistry.matching (guarded route guard).interceptors served.path =
      if guard.isMatch path then [.recording 0] else [] := by
    change InterceptorRegistry.matching [⟨.mapped [guard] [], .recording 0⟩] path = _
    cases hguard : guard.isMatch path <;>
      simp [InterceptorRegistry.matching, Scope.appliesTo_one, hguard]
  rw [resolve_run, find_byUrl rfl hroute]
  dsimp only
  rw [chainOf_run_of_serves rfl hserves, ← hmatching]
  rfl

end HandlerMapping

/-- The interceptors of a subtree, exactly. One that is registered for `P/**` is in the chain of a
request at `P`, or below it when no line feed is in the rest of its path; by that registration it is
in no other. Routes below `P` serve no path outside, but those with a variable serve line feeds. -/
theorem subtree_coverage {root : String} (hroot : Pattern.isSubtreeRoot root) :
    ∃ subtree, PathPattern.parse (root ++ "/**") = .ok subtree ∧
      (∀ path, subtree.isMatch path ↔ IsReached root path) ∧
      (∀ {σ : Type} (i : Interceptor σ) (path : String),
        i ∈ InterceptorRegistry.matching [⟨.mapped [subtree] [], i⟩] path ↔ IsReached root path) ∧
      (∀ {σ : Type} (m : HandlerMapping σ) (i : Interceptor σ) {req req' : Request}
        {w w' : World σ} {c : Chain σ}, ⟨.mapped [subtree] [], i⟩ ∈ m.interceptors →
        Cors.isPreflight req = false → (m.resolve req).run w = ((.ok (some c), req'), w') →
        IsReached root req.path → i ∈ c.interceptors) ∧
      (∀ name : String, Pattern.isVariableName name.toList →
        ∃ route, PathPattern.parse (root ++ "/" ++ ("\x7b" ++ name ++ "\x7d")) = .ok route ∧
          ∀ path, route.isMatch path ↔ ∃ value, value ≠ "" ∧ '/' ∉ value.toList ∧
            (path = root ++ "/" ++ value ∨ path = root ++ "/" ++ value ++ "/")) ∧
      ∀ (suffix : String) {segments : List Pattern.Segment} {names : List String}
        {route : PathPattern},
        Pattern.read (root ++ "/" ++ suffix) = .ok (segments, names) →
        (∀ segment ∈ segments, segment.isPlain) →
        PathPattern.parse (root ++ "/" ++ suffix) = .ok route →
        ∀ path, route.isMatch path → IsBelow root path := by
  obtain ⟨subtree, hparse, hmatch⟩ := PathPattern.parse_subtree hroot
  have hscope (path : String) :
      (Scope.mapped [subtree] []).appliesTo path = true ↔ IsReached root path := by
    rw [Scope.appliesTo_one, hmatch]
  refine ⟨subtree, hparse, hmatch, ?_, ?_, ?_, ?_⟩
  · intro σ i path
    rw [← hscope path]
    constructor
    · intro hi
      obtain ⟨e, he, -⟩ := List.mem_map.mp hi
      obtain ⟨hmem, happlies⟩ := List.mem_filter.mp he
      rw [List.mem_singleton.mp hmem] at happlies
      exact happlies
    · intro happlies
      exact InterceptorRegistry.mem_matching List.mem_cons_self happlies
  · intro σ m i req req' w w' c hentry hpre found hreached
    obtain ⟨front, hfront⟩ := HandlerMapping.resolve_interceptors hpre found
    rw [hfront]
    apply List.mem_append_right
    exact InterceptorRegistry.mem_matching hentry ((hscope req.path).mpr hreached)
  · intro name hname
    exact PathPattern.parse_variable hroot hname
  · intro suffix segments names route hread hplain hparse path hpath
    exact PathPattern.below_of_isMatch hroot hread hplain hparse hpath

private theorem not_isReached_line : ¬ IsReached "/a" "/a/x\ny" := by
  intro h
  cases h with
  | inl h => exact absurd h (by decide)
  | inr h =>
    obtain ⟨rest, hpath, hrest⟩ := h
    have hlist : ['x', '\n', 'y'] = rest.toList := by
      simpa using congrArg String.toList hpath
    rw [← hlist] at hrest
    exact hrest (by decide)

theorem subtree_coverage_id :
    ∃ subtree route, PathPattern.parse ("/a" ++ "/**") = .ok subtree ∧
      PathPattern.parse ("/a" ++ "/" ++ ("\x7b" ++ "id" ++ "\x7d")) = .ok route ∧
      subtree.isMatch "/a/x" ∧ route.isMatch "/a/x" ∧
      ∃ c, (((HandlerMapping.guarded route subtree).resolve { method := .get, path := "/a/x" }).run
          ⟨[], #[], #[], #[], #[]⟩).1.1 = .ok (some c) ∧ Interceptor.recording 0 ∈ c.interceptors := by
  have hroot : Pattern.isSubtreeRoot "/a" := by decide
  obtain ⟨subtree, hsubtree, hreached, -, hcovered, hvariables, -⟩ := subtree_coverage hroot
  have hname : Pattern.isVariableName "id".toList := by decide
  obtain ⟨route, hroute, hserved⟩ := hvariables "id" hname
  have hbelow : IsReached "/a" "/a/x" := .inr ⟨"x", by decide, by decide⟩
  have hserve : route.isMatch "/a/x" :=
    (hserved _).mpr ⟨"x", by decide, by decide, .inl (by decide)⟩
  refine ⟨subtree, route, hsubtree, hroute, (hreached _).mpr hbelow, hserve, ?_⟩
  have found := HandlerMapping.resolve_guarded subtree hserve ⟨[], #[], #[], #[], #[]⟩
  refine ⟨_, found, ?_⟩
  apply hcovered (HandlerMapping.guarded route subtree) (.recording 0) List.mem_cons_self rfl
    (Prod.ext (Prod.ext found rfl) rfl) hbelow

/-- The guard of all that is below `/a` does not see a request that a route below `/a` serves. -/
theorem subtree_guard_missing :
    ∃ subtree route, PathPattern.parse ("/a" ++ "/**") = .ok subtree ∧
      PathPattern.parse ("/a" ++ "/" ++ ("\x7b" ++ "id" ++ "\x7d")) = .ok route ∧
      ∃ c, (((HandlerMapping.guarded route subtree).resolve
          { method := .get, path := "/a/x\ny" }).run ⟨[], #[], #[], #[], #[]⟩).1.1 = .ok (some c) ∧
        c.interceptors = [] := by
  have hroot : Pattern.isSubtreeRoot "/a" := by decide
  obtain ⟨subtree, hsubtree, hreached⟩ := PathPattern.parse_subtree hroot
  have hname : Pattern.isVariableName "id".toList := by decide
  obtain ⟨route, hroute, hserved⟩ := PathPattern.parse_variable hroot hname
  refine ⟨subtree, route, hsubtree, hroute, ?_⟩
  have hserve : route.isMatch "/a/x\ny" :=
    (hserved _).mpr ⟨"x\ny", by decide, by decide, .inl (by decide)⟩
  have hmiss : ¬ subtree.isMatch "/a/x\ny" := by
    intro h
    exact not_isReached_line ((hreached _).mp h)
  refine ⟨_, HandlerMapping.resolve_guarded subtree hserve _, ?_⟩
  exact if_neg hmiss

end Switchyard
