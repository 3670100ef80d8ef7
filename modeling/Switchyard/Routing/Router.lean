import Switchyard.Http.Method
import Switchyard.Journal
import Switchyard.Media.MediaType
import Switchyard.Pattern.Basic
/-!
# Routes

A table of routes, and the choice among those that accept a method and match a path: the most
specific pattern, of equally specific ones the first registered. `HEAD` is served like `GET` where
no route accepts it.
-/

namespace Switchyard

/-- A route to a target. Without methods it accepts all. -/
structure Route (α : Type) where
  pattern : PathPattern
  methods : List Method := []
  target : α
  produces : List MediaType := []

/-- A route that was chosen, with the texts of its path variables. -/
structure RouteMatch (α : Type) where
  route : Route α
  params : List (String × String)

/-- Routes in the order of their registration. -/
structure Router (α : Type) where
  routes : List (Route α) := []

namespace Route

variable {α : Type}

def accepts (r : Route α) (m : Method) : Bool := r.methods.isEmpty || r.methods.contains m

def describe (target : α → String) (r : Route α) : String :=
  let methods := if r.methods.isEmpty then "*" else Text.joinWith "," (r.methods.map (·.name))
  methods ++ " " ++ r.pattern.raw ++ " -> " ++ target r.target

end Route

namespace RouteMatch

def param? {α : Type} (m : RouteMatch α) (name : String) : Option String :=
  (m.params.reverse.find? fun p => p.1 == name).map (·.2)

end RouteMatch

namespace Router

variable {α : Type}

def candidates (r : Router α) (m : Method) (path : String) : List (RouteMatch α) :=
  r.routes.filterMap fun route =>
    if route.accepts m then (route.pattern.matchPath path).map fun params => ⟨route, params⟩
    else none

/-- The better of two matches; the earlier one unless the later is strictly more specific. -/
def better (best : Option (RouteMatch α)) (next : RouteMatch α) : Option (RouteMatch α) :=
  match best with
  | none => some next
  | some current =>
    if next.route.pattern.specificityCmp current.route.pattern = .lt then some next else some current

def best? (r : Router α) (m : Method) (path : String) : Option (RouteMatch α) :=
  (r.candidates m path).foldl better none

def route? (r : Router α) (m : Method) (path : String) : Option (RouteMatch α) :=
  match r.best? m path with
  | some found => some found
  | none => if m = Method.head then r.best? Method.get path else none

private theorem mem_of_foldl_better {best : Option (RouteMatch α)} {found : RouteMatch α}
    {matched : List (RouteMatch α)} (h : matched.foldl better best = some found) :
    best = some found ∨ found ∈ matched := by
  induction matched generalizing best with
  | nil => exact .inl h
  | cons next rest ih =>
    have hbetter : better best next = best ∨ better best next = some next := by
      cases best with
      | none => exact .inr rfl
      | some current =>
        rw [better]
        split
        · exact .inr rfl
        · exact .inl rfl
    rcases ih h with hfirst | hrest
    · rcases hbetter with hkept | hnext
      · exact .inl (hkept ▸ hfirst)
      · rw [hnext] at hfirst
        exact .inr (Option.some.inj hfirst ▸ List.mem_cons_self)
    · exact .inr (List.mem_cons_of_mem next hrest)

private theorem mem_of_best? {r : Router α} {m : Method} {path : String} {found : RouteMatch α}
    (h : r.best? m path = some found) : found.route ∈ r.routes := by
  have hcandidate : found ∈ r.candidates m path := by
    rcases mem_of_foldl_better h with hnone | hfound
    · cases hnone
    · exact hfound
  obtain ⟨route, hroute, hmatch⟩ := List.mem_filterMap.mp hcandidate
  split at hmatch
  · obtain ⟨params, -, rfl⟩ := Option.map_eq_some_iff.mp hmatch
    exact hroute
  · cases hmatch

theorem mem_of_route? {r : Router α} {m : Method} {path : String} {found : RouteMatch α}
    (h : r.route? m path = some found) : found.route ∈ r.routes := by
  rw [route?] at h
  cases hbest : r.best? m path with
  | some best =>
    rw [hbest] at h
    cases h
    exact mem_of_best? hbest
  | none =>
    rw [hbest] at h
    dsimp only at h
    split at h
    · exact mem_of_best? h
    · cases h

def add (r : Router α) (route : Route α) : Router α := ⟨r.routes ++ [route]⟩

def table (target : α → String) (r : Router α) : List String := r.routes.map (Route.describe target)

/-- What is reported when a table is loaded: its size and its first ten routes. -/
def loadedEvent (target : α → String) (r : Router α) : Event :=
  .info "Routing table loaded"
    [("routes_count", .number r.routes.length),
      ("routes_summary", .text (Text.quotedList ((r.table target).take 10)))]

def routeEvents (r : Router α) (m : Method) (path : String) : List Event :=
  let facts : List (String × Fact) := [("method", .text m.name), ("path", .text path)]
  let result := match r.route? m path with
    | some found =>
      .debug "Route matched" (facts ++ [("route_pattern", .text found.route.pattern.raw)])
    | none => .debug "No route matched" facts
  [.debug "Route match attempt" facts, result]

end Router

end Switchyard
