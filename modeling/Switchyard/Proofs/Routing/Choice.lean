import Mathlib.Data.List.Basic
import Mathlib.Data.List.Induction
import Mathlib.Data.List.Pairwise
import Switchyard.Proofs.Attempt
import Switchyard.Regex.Spans
import Switchyard.Routing.Router
/-!
# The choice of a route

Specificity is a total preorder of patterns, so the fold that keeps the better of two matches finds
the first route that none of the others precedes. Which routes are equal to it does not depend on
the order of the table (`Router.route?_chooses`).
-/

namespace Switchyard

open Std

namespace PathPattern

theorem specificityCmp_eq (a b : PathPattern) : a.specificityCmp b =
    (compare (!a.isLiteral) (!b.isLiteral)).then ((compare a.isCatchAll b.isCatchAll).then
      (((compare a.weight b.weight).then (compare b.raw.utf8ByteSize a.raw.utf8ByteSize)).then
        (compare a.doubleWildcards b.doubleWildcards))) := by
  rw [specificityCmp]
  cases a.isLiteral <;> cases b.isLiteral <;> cases a.isCatchAll <;> cases b.isCatchAll <;> rfl

instance : TransCmp specificityCmp := by
  -- a chain of keys, of which the length of the text counts backwards
  have hkeys : specificityCmp = compareLex (compareOn fun p => !p.isLiteral)
      (compareLex (compareOn isCatchAll) (compareLex (compareLex (compareOn weight)
        (fun a b => compareOn (fun p : PathPattern => p.raw.utf8ByteSize) b a))
          (compareOn doubleWildcards))) := by
    funext a b
    exact specificityCmp_eq a b
  rw [hkeys]
  infer_instance

end PathPattern

namespace Router

variable {α : Type}

/-- A pattern is strictly more specific than another one. -/
def Precedes (a b : Route α) : Prop := a.pattern.specificityCmp b.pattern = .lt

instance (a b : Route α) : Decidable (Precedes a b) := inferInstanceAs (Decidable (_ = _))

/-- A route that precedes all before it in a list, and that none behind it precedes. -/
def IsFirstBest (routes : List (Route α)) (best : Route α) : Prop :=
  ∃ before after, routes = before ++ best :: after ∧
    (∀ r ∈ before, Precedes best r) ∧ ∀ r ∈ after, ¬ Precedes r best

theorem Precedes.trans {a b c : Route α} (hab : Precedes a b) (hbc : Precedes b c) :
    Precedes a c := TransCmp.lt_trans hab hbc

private theorem Precedes.asymm {a b : Route α} (h : Precedes a b) : ¬ Precedes b a := by
  intro h'
  have hgt : a.pattern.specificityCmp b.pattern = .gt := OrientedCmp.gt_of_lt h'
  rw [Precedes, hgt] at h
  cases h

private theorem Precedes.of_not {a b c : Route α} (hab : Precedes a b) (hcb : ¬ Precedes c b) :
    Precedes a c := by
  have hle : (b.pattern.specificityCmp c.pattern).isLE := by
    have hswap : b.pattern.specificityCmp c.pattern =
        (c.pattern.specificityCmp b.pattern).swap := OrientedCmp.eq_swap
    rw [Precedes] at hcb
    rw [hswap]
    cases hcmp : c.pattern.specificityCmp b.pattern with
    | lt => exact absurd hcmp hcb
    | eq => rfl
    | gt => rfl
  exact TransCmp.lt_of_lt_of_isLE hab hle

namespace IsFirstBest

variable {routes : List (Route α)} {best other : Route α}

private theorem mem (h : IsFirstBest routes best) : best ∈ routes := by
  obtain ⟨before, after, rfl, -, -⟩ := h
  simp

theorem not_precedes (h : IsFirstBest routes best) {r : Route α} (hr : r ∈ routes) :
    ¬ Precedes r best := by
  obtain ⟨before, after, rfl, hbefore, hafter⟩ := h
  rcases List.mem_append.mp hr with hr | hr
  · exact (hbefore r hr).asymm
  · rcases List.mem_cons.mp hr with rfl | hr
    · intro hself
      exact hself.asymm hself
    · exact hafter r hr

/-- One route more either precedes the best so far and all others with it, or changes nothing. -/
private theorem append_of_precedes (h : IsFirstBest routes best) (hother : Precedes other best) :
    IsFirstBest (routes ++ [other]) other := by
  refine ⟨routes, [], rfl, ?_, by simp⟩
  intro r hr
  exact hother.of_not (h.not_precedes hr)

private theorem append_of_not (h : IsFirstBest routes best) (hother : ¬ Precedes other best) :
    IsFirstBest (routes ++ [other]) best := by
  obtain ⟨before, after, rfl, hbefore, hafter⟩ := h
  refine ⟨before, after ++ [other], by simp, hbefore, ?_⟩
  intro r hr
  rcases List.mem_append.mp hr with hr | hr
  · exact hafter r hr
  · rw [List.mem_singleton.mp hr]
    exact hother

theorem filter (h : IsFirstBest routes best) {p : Route α → Bool} (hp : p best) :
    IsFirstBest (routes.filter p) best := by
  obtain ⟨before, after, rfl, hbefore, hafter⟩ := h
  refine ⟨before.filter p, after.filter p, by simp [hp], ?_, ?_⟩
  · intro r hr
    exact hbefore r (List.mem_filter.mp hr).1
  · intro r hr
    exact hafter r (List.mem_filter.mp hr).1

private theorem find?_eq (h : IsFirstBest routes best) :
    routes.find? (fun r => routes.all fun other => ¬ Precedes other r) = some best := by
  have hbest : routes.all (fun other => ¬ Precedes other best) := by
    simpa using fun r hr => h.not_precedes hr
  have hmem := h.mem
  obtain ⟨before, after, hroutes, hbefore, -⟩ := h
  rw [List.find?_eq_some_iff_append]
  refine ⟨hbest, before, after, hroutes, ?_⟩
  intro r hr
  simpa using ⟨best, hmem, hbefore r hr⟩

theorem specificityCmp_eq {routes' : List (Route α)} {best' : Route α}
    (h : IsFirstBest routes best) (h' : IsFirstBest routes' best') (hperm : routes.Perm routes') :
    best.pattern.specificityCmp best'.pattern = .eq := by
  have hback := h.not_precedes (hperm.mem_iff.mpr h'.mem)
  have hforth := h'.not_precedes (hperm.mem_iff.mp h.mem)
  rw [Precedes] at hback hforth
  cases hcmp : best.pattern.specificityCmp best'.pattern with
  | lt => exact absurd hcmp hforth
  | eq => rfl
  | gt => exact absurd (OrientedCmp.lt_of_gt hcmp) hback

end IsFirstBest

/-- The first route of a list that none of the others precedes. -/
def firstBest (routes : List (Route α)) : Option (Route α) :=
  routes.find? fun r => routes.all fun other => ¬ Precedes other r

theorem firstBest_eq {routes : List (Route α)} {best : Route α} (h : IsFirstBest routes best) :
    firstBest routes = some best := h.find?_eq

/-- The routes that accept a method and match a path, in the order of the table. -/
def serving (r : Router α) (m : Method) (path : String) : List (Route α) :=
  r.routes.filter fun route => (route.methods = [] ∨ m ∈ route.methods) ∧ route.pattern.isMatch path

/-- The routes to choose from: those that serve the method, for `HEAD` without any those that serve
`GET`. -/
def eligible (r : Router α) (m : Method) (path : String) : List (Route α) :=
  if m = .head ∧ r.serving .head path = [] then r.serving .get path else r.serving m path

/-- The match of a route with the texts of its variables. -/
def captured (path : String) (route : Route α) : Option (RouteMatch α) :=
  (route.pattern.matchPath path).map (⟨route, ·⟩)

variable {r : Router α} {m : Method} {path : String}

private theorem isSome_captured (route : Route α) :
    (captured path route).isSome = route.pattern.isMatch path := by
  rw [captured, Option.isSome_map, PathPattern.matchPath, Option.isSome_map, Regex.isSome_search]
  rfl

theorem route_of_captured {route : Route α} {found : RouteMatch α}
    (h : captured path route = some found) : found.route = route := by
  obtain ⟨params, -, rfl⟩ := Option.map_eq_some_iff.mp h
  rfl

private theorem accepts_eq (route : Route α) (m : Method) :
    route.accepts m = decide (route.methods = [] ∨ m ∈ route.methods) := by
  rw [Bool.eq_iff_iff]
  simp [Route.accepts]

private theorem candidates_eq :
    r.candidates m path = (r.serving m path).filterMap (captured path) := by
  rw [candidates, serving, List.filterMap_filter]
  apply List.filterMap_congr
  intro route _
  have hmiss : ¬ route.pattern.isMatch path → captured path route = none := by
    intro h
    rwa [← isSome_captured, Option.not_isSome_iff_eq_none] at h
  by_cases hmatch : route.pattern.isMatch path
  · simp [accepts_eq, hmatch, captured]
  · have hnone := hmiss hmatch
    rw [captured] at hnone
    simp [hmatch, hnone]

private theorem map_route_candidates : (r.candidates m path).map (·.route) = r.serving m path := by
  rw [candidates_eq, List.map_filterMap]
  have hself : ∀ route ∈ r.serving m path, (captured path route).map (·.route) = some route := by
    intro route hroute
    have hmatch : route.pattern.isMatch path := by
      simpa using (of_decide_eq_true (List.mem_filter.mp hroute).2).2
    rw [← isSome_captured] at hmatch
    obtain ⟨found, hfound⟩ := Option.isSome_iff_exists.mp hmatch
    rw [hfound, Option.map_some, route_of_captured hfound]
  rw [List.filterMap_congr hself, List.filterMap_some]

/-- The fold that keeps the better of two matches ends with the first of the best. -/
private theorem foldl_better {matched : List (RouteMatch α)} (h : matched ≠ []) :
    ∃ best ∈ matched, matched.foldl better none = some best ∧
      IsFirstBest (matched.map (·.route)) best.route := by
  induction matched using List.reverseRecOn with
  | nil => exact absurd rfl h
  | append_singleton matched next ih =>
    rw [List.foldl_append, List.map_append]
    by_cases hfirst : matched = []
    · refine ⟨next, by simp, by simp [hfirst, better], [], [], by simp [hfirst], by simp, by simp⟩
    · obtain ⟨best, hmem, hbest, hfirstBest⟩ := ih hfirst
      rw [hbest]
      by_cases hnext : Precedes next.route best.route
      · exact ⟨next, by simp, if_pos hnext, hfirstBest.append_of_precedes hnext⟩
      · exact ⟨best, by simp [hmem], if_neg hnext, hfirstBest.append_of_not hnext⟩

private theorem best?_of_serving (h : r.serving m path ≠ []) : ∃ best found,
    r.best? m path = some found ∧ captured path best = some found ∧
      IsFirstBest (r.serving m path) best := by
  have hne : r.candidates m path ≠ [] := by
    intro hnil
    rw [← map_route_candidates, hnil] at h
    exact h rfl
  obtain ⟨found, hmem, hfound, hfirst⟩ := foldl_better hne
  rw [candidates_eq] at hmem
  obtain ⟨best, -, hbest⟩ := List.mem_filterMap.mp hmem
  rw [map_route_candidates, route_of_captured hbest] at hfirst
  exact ⟨best, found, hfound, hbest, hfirst⟩

private theorem best?_of_serving_nil (h : r.serving m path = []) : r.best? m path = none := by
  rw [best?, candidates_eq, h]
  rfl

theorem route?_of_eligible_nil (h : r.eligible m path = []) : r.route? m path = none := by
  rw [eligible] at h
  split at h
  · next hhead => rw [route?, hhead.1, best?_of_serving_nil hhead.2, best?_of_serving_nil h]; rfl
  · next hhead =>
    have hother : m ≠ .head := by
      rintro rfl
      exact hhead ⟨rfl, h⟩
    rw [route?, best?_of_serving_nil h]
    exact if_neg hother

/-- The match that is found is that of the first of the best routes to choose from. -/
theorem route?_of_eligible (h : r.eligible m path ≠ []) : ∃ best found,
    r.route? m path = some found ∧ captured path best = some found ∧
      IsFirstBest (r.eligible m path) best := by
  rw [eligible] at h ⊢
  split at h
  · next hhead =>
    obtain ⟨best, found, hfound, hbest, hfirst⟩ := best?_of_serving h
    rw [if_pos hhead]
    refine ⟨best, found, ?_, hbest, hfirst⟩
    rw [route?, hhead.1, best?_of_serving_nil hhead.2]
    exact hfound
  · next hhead =>
    obtain ⟨best, found, hfound, hbest, hfirst⟩ := best?_of_serving h
    rw [if_neg hhead]
    refine ⟨best, found, ?_, hbest, hfirst⟩
    rw [route?, hfound]

theorem route?_eq_none_iff : r.route? m path = none ↔ r.eligible m path = [] := by
  constructor
  · intro hnone
    apply Decidable.byContradiction
    intro hne
    obtain ⟨best, found, hfound, -⟩ := route?_of_eligible hne
    rw [hnone] at hfound
    cases hfound
  · exact route?_of_eligible_nil

theorem route?_eq : r.route? m path = (firstBest (r.eligible m path)).bind (captured path) := by
  by_cases h : r.eligible m path = []
  · rw [route?_of_eligible_nil h, h]
    rfl
  · obtain ⟨best, found, hfound, hbest, hfirst⟩ := route?_of_eligible h
    rw [hfound, firstBest_eq hfirst, Option.bind_some, hbest]

private theorem serving_perm {r' : Router α} (h : r.routes.Perm r'.routes) (m : Method)
    (path : String) : (r.serving m path).Perm (r'.serving m path) := h.filter _

private theorem eligible_perm {r' : Router α} (h : r.routes.Perm r'.routes) (m : Method)
    (path : String) : (r.eligible m path).Perm (r'.eligible m path) := by
  have hnil : r.serving .head path = [] ↔ r'.serving .head path = [] := by
    have hhead := serving_perm h .head path
    constructor
    · intro hr
      rwa [hr, List.nil_perm] at hhead
    · intro hr'
      rwa [hr', List.perm_nil] at hhead
  simp only [eligible, hnil]
  split
  · exact serving_perm h .get path
  · exact serving_perm h m path

/-- Two matches are of equally specific routes, or there is none in either case. -/
def Ties : Option (RouteMatch α) → Option (RouteMatch α) → Prop :=
  Option.Rel fun a b => a.route.pattern.specificityCmp b.route.pattern = .eq

private theorem route?_ties {r' : Router α} (h : r.routes.Perm r'.routes) (m : Method)
    (path : String) : Ties (r.route? m path) (r'.route? m path) := by
  have hperm := eligible_perm h m path
  by_cases hnil : r.eligible m path = []
  · have hnil' : r'.eligible m path = [] := by rwa [hnil, List.nil_perm] at hperm
    rw [route?_of_eligible_nil hnil, route?_of_eligible_nil hnil']
    exact .none
  · have hnil' : r'.eligible m path ≠ [] := by
      intro hr'
      rw [hr', List.perm_nil] at hperm
      exact hnil hperm
    obtain ⟨best, found, hfound, hbest, hfirst⟩ := route?_of_eligible hnil
    obtain ⟨best', found', hfound', hbest', hfirst'⟩ := route?_of_eligible hnil'
    rw [hfound, hfound']
    apply Option.Rel.some
    rw [route_of_captured hbest, route_of_captured hbest']
    exact hfirst.specificityCmp_eq hfirst' hperm

private theorem route?_eq_of_distinct {r' : Router α} (h : r.routes.Perm r'.routes)
    (hdistinct : (r.eligible m path).Pairwise fun a b =>
      a.pattern.specificityCmp b.pattern ≠ .eq) : r.route? m path = r'.route? m path := by
  have hperm := eligible_perm h m path
  have hsymm : Std.Symm fun a b : Route α => a.pattern.specificityCmp b.pattern ≠ .eq := by
    constructor
    intro a b hne heq
    exact hne (OrientedCmp.eq_symm heq)
  rw [route?_eq, route?_eq]
  by_cases hnil : r.eligible m path = []
  · rw [hnil, List.nil_perm] at hperm
    rw [hnil, hperm]
  · have hnil' : r'.eligible m path ≠ [] := by
      intro hr'
      rw [hr', List.perm_nil] at hperm
      exact hnil hperm
    obtain ⟨best, -, -, -, hfirst⟩ := route?_of_eligible hnil
    obtain ⟨best', -, -, -, hfirst'⟩ := route?_of_eligible hnil'
    have hsame : best = best' := by
      apply Classical.byContradiction
      intro hne
      exact hdistinct.forall hfirst.mem (hperm.mem_iff.mpr hfirst'.mem) hne
        (hfirst.specificityCmp_eq hfirst' hperm)
    rw [firstBest_eq hfirst, firstBest_eq hfirst', hsame]

/-- A request is routed to the first of the routes to choose from that none of them precedes, with
the texts that its own pattern captures, and to none only if there is none to choose from. The
comparison is a total preorder of all patterns, so that in a table of another order an equally
specific route wins, and the same one where no two are equally specific. -/
theorem route?_chooses :
    (∀ {α : Type} (r : Router α) (m : Method) (path : String),
      (r.route? m path = none ↔ r.eligible m path = []) ∧
        r.route? m path = (firstBest (r.eligible m path)).bind (captured path)) ∧
    (∀ a b : PathPattern, a.specificityCmp b = (b.specificityCmp a).swap) ∧
    (∀ a b c : PathPattern, a.specificityCmp b ≠ .gt → b.specificityCmp c ≠ .gt →
      a.specificityCmp c ≠ .gt) ∧
    ∀ {α : Type} (r r' : Router α), r.routes.Perm r'.routes → ∀ (m : Method) (path : String),
      Ties (r.route? m path) (r'.route? m path) ∧
        ((r.eligible m path).Pairwise (fun a b => a.pattern.specificityCmp b.pattern ≠ .eq) →
          r.route? m path = r'.route? m path) := by
  refine ⟨?_, ?_, ?_, ?_⟩
  · intro α r m path
    exact ⟨route?_eq_none_iff, route?_eq⟩
  · intro a b
    exact OrientedCmp.eq_swap
  · intro a b c hab hbc
    simp only [ne_eq, Ordering.ne_gt_iff_isLE] at hab hbc ⊢
    exact TransCmp.isLE_trans hab hbc
  · intro α r r' hperm m path
    exact ⟨route?_ties hperm m path, route?_eq_of_distinct hperm⟩

/-- Pages below a path, one of them with a route of its own, and all others. -/
def pageTable : Except PatternFault (Router String) := do
  return ⟨[
    { pattern := ← PathPattern.parse "/**", target := "other" },
    { pattern := ← PathPattern.parse "/pages/{id}", methods := [.get], target := "page" },
    { pattern := ← PathPattern.parse "/pages/new", methods := [.post], target := "form" }]⟩

theorem route?_chooses_pages : ∃ r, pageTable = .ok r ∧
    (∃ other page form, r.routes = [other, page, form] ∧
      form.pattern.specificityCmp page.pattern ≠ .gt ∧
      page.pattern.specificityCmp other.pattern ≠ .gt ∧
      form.pattern.specificityCmp other.pattern ≠ .gt) ∧
    (r.eligible .get "/pages/new").Pairwise (fun a b => a.pattern.specificityCmp b.pattern ≠ .eq) ∧
    r.route? .get "/pages/new" = (⟨r.routes.reverse⟩ : Router String).route? .get "/pages/new" ∧
    (r.route? .get "/pages/new").map (·.route.target) = some "page" := by
  have htable : (pageTable.toOption.any fun r => r.routes.length = 3 ∧
      r.routes.reverse.Pairwise (fun a b => a.pattern.specificityCmp b.pattern = .lt) ∧
      (r.eligible .get "/pages/new").Pairwise (fun a b =>
        a.pattern.specificityCmp b.pattern ≠ .eq) ∧
      (r.route? .get "/pages/new").map (·.route.target) = some "page") = true := by
    decide +kernel
  obtain ⟨r, hr, htable⟩ := exists_ok_of_any htable
  obtain ⟨hlength, hsorted, hdistinct, htarget⟩ := of_decide_eq_true htable
  obtain ⟨other, page, form, hroutes⟩ := List.length_eq_three.mp hlength
  obtain ⟨-, -, htrans, hother⟩ := route?_chooses
  simp only [hroutes, List.reverse_cons, List.reverse_nil, List.nil_append, List.cons_append,
    List.pairwise_cons, List.mem_cons, forall_eq_or_imp] at hsorted
  have hform : form.pattern.specificityCmp page.pattern ≠ .gt := by simp [hsorted.1.1]
  have hpage : page.pattern.specificityCmp other.pattern ≠ .gt := by simp [hsorted.2.1.1]
  refine ⟨r, hr, ⟨other, page, form, hroutes, hform, hpage, htrans _ _ _ hform hpage⟩,
    hdistinct, ?_, htarget⟩
  exact (hother _ _ (List.reverse_perm _).symm _ _).2 hdistinct

end Router

end Switchyard
