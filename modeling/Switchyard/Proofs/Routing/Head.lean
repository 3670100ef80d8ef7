import Switchyard.Proofs.Routing.Choice
/-!
# `HEAD` beside `GET`

Where no route lists `HEAD`, the routes that serve it are those without methods, which serve `GET`
too. The fallback to `GET` is for the whole table: one route without methods that matches the path
is enough to keep `HEAD` among the routes of its kind (`Router.route?_head`).
-/

namespace Switchyard.Router

variable {α : Type} {r : Router α} {path : String}

/-- The routes without methods that match a path. -/
def unrestricted (r : Router α) (path : String) : List (Route α) :=
  r.routes.filter fun route => route.methods = [] ∧ route.pattern.isMatch path

private theorem unrestricted_eq_filter_serving (m : Method) :
    r.unrestricted path = (r.serving m path).filter (·.methods = []) := by
  rw [unrestricted, serving, List.filter_filter]
  apply List.filter_congr
  intro route _
  by_cases hmethods : route.methods = []
  · simp [hmethods]
  · simp [hmethods]

private theorem serving_head (h : ∀ route ∈ r.routes, .head ∉ route.methods) :
    r.serving .head path = r.unrestricted path := by
  rw [unrestricted_eq_filter_serving .head, eq_comm, List.filter_eq_self]
  intro route hroute
  obtain ⟨hmem, hserves⟩ := List.mem_filter.mp hroute
  rcases (of_decide_eq_true hserves).1 with hopen | hlisted
  · exact decide_eq_true hopen
  · exact absurd hlisted (h route hmem)

private theorem eligible_get : r.eligible .get path = r.serving .get path := by simp [eligible]

private theorem eligible_head_of_unrestricted_nil (h : ∀ route ∈ r.routes, .head ∉ route.methods)
    (hnil : r.unrestricted path = []) : r.eligible .head path = r.eligible .get path := by
  rw [eligible_get, eligible, if_pos ⟨rfl, by rw [serving_head h, hnil]⟩]

private theorem eligible_head_of_unrestricted (h : ∀ route ∈ r.routes, .head ∉ route.methods)
    (hopen : r.unrestricted path ≠ []) : r.eligible .head path = r.unrestricted path := by
  rw [← serving_head h] at hopen ⊢
  rw [eligible, if_neg fun hhead => hopen hhead.2]

/-- A route without methods that wins for `GET` wins among the routes of its kind. -/
private theorem firstBest_unrestricted {best : Route α}
    (h : IsFirstBest (r.eligible .get path) best) (hopen : best.methods = []) :
    firstBest (r.unrestricted path) = some best := by
  rw [unrestricted_eq_filter_serving .get, ← eligible_get]
  exact firstBest_eq (h.filter (decide_eq_true hopen))

private theorem methods_of_firstBest_unrestricted {best : Route α}
    (h : firstBest (r.unrestricted path) = some best) : best.methods = [] := by
  have hmem : best ∈ r.unrestricted path := List.mem_of_find?_eq_some h
  exact (of_decide_eq_true (List.mem_filter.mp hmem).2).1

/-- In a table without a route that lists `HEAD`, it is routed like `GET` exactly if no route
without methods matches the path or the route for `GET` is one of these. If one matches, `HEAD` goes
to the first of the best of them, whatever serves `GET`. -/
theorem route?_head (r : Router α) (h : ∀ route ∈ r.routes, .head ∉ route.methods)
    (path : String) :
    (r.route? .head path = r.route? .get path ↔ r.unrestricted path = [] ∨
      ∃ found, r.route? .get path = some found ∧ found.route.methods = []) ∧
    (r.unrestricted path ≠ [] → r.route? .head path =
      (firstBest (r.unrestricted path)).bind (captured path)) := by
  by_cases hnil : r.unrestricted path = []
  · have hsame : r.route? .head path = r.route? .get path := by
      rw [route?_eq, route?_eq, eligible_head_of_unrestricted_nil h hnil]
    exact ⟨iff_of_true hsame (.inl hnil), fun hopen => absurd hnil hopen⟩
  · have heligible := eligible_head_of_unrestricted h hnil
    have hhead : r.route? .head path = (firstBest (r.unrestricted path)).bind (captured path) := by
      rw [route?_eq, heligible]
    refine ⟨⟨?_, ?_⟩, fun _ => hhead⟩
    · -- a common route is the best of those for `HEAD`, none of which has methods
      intro hsame
      obtain ⟨best, found, hfound, hbest, hfirst⟩ := route?_of_eligible (heligible ▸ hnil)
      rw [heligible] at hfirst
      refine .inr ⟨found, hsame ▸ hfound, ?_⟩
      rw [route_of_captured hbest]
      exact methods_of_firstBest_unrestricted (firstBest_eq hfirst)
    · rintro (hnone | ⟨found, hfound, hopen⟩)
      · exact absurd hnone hnil
      · have hne : r.eligible .get path ≠ [] := by
          intro hget
          rw [route?_of_eligible_nil hget] at hfound
          cases hfound
        obtain ⟨best, found', hfound', hbest, hfirst⟩ := route?_of_eligible hne
        obtain rfl : found' = found := Option.some.inj (hfound'.symm.trans hfound)
        rw [route_of_captured hbest] at hopen
        rw [hhead, hfound, firstBest_unrestricted hfirst hopen, Option.bind_some, hbest]

/-- A page for `GET` beside a route without methods for all paths. -/
def openTable : Except PatternFault (Router String) := do
  return ⟨[
    { pattern := ← PathPattern.parse "/pets", methods := [.get], target := "pets" },
    { pattern := ← PathPattern.parse "/**", target := "any" }]⟩

theorem route?_head_open : ∃ r, openTable = .ok r ∧
    (∀ route ∈ r.routes, .head ∉ route.methods) ∧
    r.route? .head "/other" = r.route? .get "/other" ∧
    r.route? .head "/pets" = (firstBest (r.unrestricted "/pets")).bind (captured "/pets") := by
  have htable : (openTable.toOption.any fun r =>
      (∀ route ∈ r.routes, .head ∉ route.methods) ∧
      (r.route? .get "/other").any (·.route.methods = []) ∧
      (r.unrestricted "/pets").length = 1) = true := by
    decide +kernel
  obtain ⟨r, hr, htable⟩ := exists_ok_of_any htable
  obtain ⟨hnone, hother, hpets⟩ := of_decide_eq_true htable
  have hne : r.unrestricted "/pets" ≠ [] := by
    intro hnil
    rw [hnil] at hpets
    cases hpets
  have hopen : ∃ found, r.route? .get "/other" = some found ∧ found.route.methods = [] := by
    obtain ⟨found, hfound, hmethods⟩ := (Option.any_eq_true _ _).mp hother
    exact ⟨found, hfound, of_decide_eq_true hmethods⟩
  exact ⟨r, hr, hnone, (route?_head r hnone "/other").1.mpr (.inr hopen),
    (route?_head r hnone "/pets").2 hne⟩

/-- A page that is served for `GET` is not found for `HEAD`. -/
theorem head_leaves_get : ∃ r, openTable = .ok r ∧
    (∀ route ∈ r.routes, .head ∉ route.methods) ∧
    (r.route? .get "/pets").map (·.route.target) = some "pets" ∧
    (r.route? .head "/pets").map (·.route.target) = some "any" ∧
    r.route? .head "/pets" ≠ r.route? .get "/pets" := by
  have htable : (openTable.toOption.any fun r =>
      (∀ route ∈ r.routes, .head ∉ route.methods) ∧
      (r.route? .get "/pets").map (·.route.target) = some "pets" ∧
      (r.route? .head "/pets").map (·.route.target) = some "any") = true := by
    decide +kernel
  obtain ⟨r, hr, htable⟩ := exists_ok_of_any htable
  obtain ⟨hnone, hget, hhead⟩ := of_decide_eq_true htable
  refine ⟨r, hr, hnone, hget, hhead, ?_⟩
  intro hsame
  rw [hsame, hget] at hhead
  exact absurd hhead (by decide)

end Switchyard.Router
