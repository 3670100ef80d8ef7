import Mathlib.Data.List.Induction
import Switchyard.Proofs.Attempt
import Switchyard.Proofs.Dispatch.Assembly
import Switchyard.Proofs.Dispatch.Traffic
/-!
# What is published on requests

The attributes that a search through mappings publishes are those of the route that was found by the
mapping whose chain is used, and there are none when its default handler is
(`Dispatcher.published_by_winner`). Whatever happens to a request later, attributes that are set stay
as they are (`Attributes.Keeps`).
-/

namespace Switchyard

variable {σ α : Type}

/-- The first of those with a property, by order and among equal orders by place. -/
def Order.IsFirst (order : α → Int) (p : α → Prop) (items : List α) (a : α) : Prop :=
  p a ∧ ∃ earlier later, items = earlier ++ a :: later ∧
    (∀ b ∈ earlier, p b → order a < order b) ∧ ∀ b ∈ later, p b → order a ≤ order b

private theorem Order.isFirst_of_sortBy {order : α → Int} {p : α → Prop}
    {items before after : List α}
    {a : α} (hsorted : sortBy order items = before ++ a :: after) (hbefore : ∀ b ∈ before, ¬ p b)
    (ha : p a) : IsFirst order p items a := by
  classical
  have hle : ∀ b ∈ items, p b → order a ≤ order b := by
    intro b hb hpb
    rw [← (sortBy_perm order items).mem_iff, hsorted, List.mem_append, List.mem_cons] at hb
    have hpairwise := sortBy_pairwise order items
    rw [hsorted, List.pairwise_append, List.pairwise_cons] at hpairwise
    rcases hb with hb | rfl | hb
    · exact absurd hpb (hbefore b hb)
    · exact Int.le_refl _
    · exact hpairwise.2.1.1 b hb
  -- of the items of this order the sorted list has the same first one as the list itself
  have hfilter := filter_sortBy order items (order a)
  have hfirst : (items.filter (order · = order a)).filter (p ·) =
      a :: (after.filter (order · = order a)).filter (p ·) := by
    have hnone : (before.filter (order · = order a)).filter (p ·) = [] := by
      rw [List.filter_eq_nil_iff]
      intro b hb
      simpa using hbefore b (List.mem_of_mem_filter hb)
    rw [← hfilter, hsorted, List.filter_append, List.filter_append, hnone, List.nil_append,
      List.filter_cons_of_pos (by simp), List.filter_cons_of_pos (by simpa using ha)]
  rw [List.filter_filter, List.filter_eq_cons_iff] at hfirst
  obtain ⟨earlier, later, rfl, hearlier, -, -⟩ := hfirst
  refine ⟨ha, earlier, later, rfl, ?_, ?_⟩
  · intro b hb hpb
    have hdiffers : order b ≠ order a := by
      intro heq
      exact hearlier b hb (by simp [hpb, heq])
    have := hle b (List.mem_append_left _ hb) hpb
    omega
  · intro b hb hpb
    exact hle b (List.mem_append_right _ (List.mem_cons_of_mem a hb)) hpb

private theorem exists_first_not {p : α → Prop} {items : List α} (h : ¬ ∀ a ∈ items, p a) :
    ∃ before a after, items = before ++ a :: after ∧ (∀ b ∈ before, p b) ∧ ¬ p a := by
  induction items with
  | nil => exact absurd (fun _ ha => nomatch ha) h
  | cons a items ih =>
    by_cases ha : p a
    · have hrest : ¬ ∀ b ∈ items, p b := fun hall => h (List.forall_mem_cons.mpr ⟨ha, hall⟩)
      obtain ⟨before, b, after, rfl, hbefore, hb⟩ := ih hrest
      exact ⟨a :: before, b, after, rfl, List.forall_mem_cons.mpr ⟨ha, hbefore⟩, hb⟩
    · exact ⟨[], a, items, rfl, fun _ hb => (nomatch hb), ha⟩

namespace Attributes

/-- What is set in the one is the same in the other. -/
structure Keeps (a b : Attributes) : Prop where
  pattern : ∀ v ∈ a.pattern, v ∈ b.pattern
  handler : ∀ v ∈ a.handler, v ∈ b.handler
  params : ∀ v ∈ a.params, v ∈ b.params
  produces : ∀ v ∈ a.produces, v ∈ b.produces
  selected : ∀ v ∈ a.selected, v ∈ b.selected

protected theorem Keeps.refl (a : Attributes) : a.Keeps a :=
  ⟨fun _ => id, fun _ => id, fun _ => id, fun _ => id, fun _ => id⟩

protected theorem Keeps.trans {a b c : Attributes} (h : a.Keeps b) (h' : b.Keeps c) : a.Keeps c where
  pattern v hv := h'.pattern v (h.pattern v hv)
  handler v hv := h'.handler v (h.handler v hv)
  params v hv := h'.params v (h.params v hv)
  produces v hv := h'.produces v (h.produces v hv)
  selected v hv := h'.selected v (h.selected v hv)

private theorem keeps_publish (a : Attributes) (b : Attribute) : a.Keeps (a.publish b) := by
  have hslot {τ : Type} (old : Option τ) (new : τ) : ∀ v ∈ old, v ∈ old.or (some new) := by
    intro v hv
    rw [Option.mem_def.mp hv]
    rfl
  cases b with
  | pattern new => exact { Keeps.refl a with pattern := hslot a.pattern new }
  | handler new => exact { Keeps.refl a with handler := hslot a.handler new }
  | params new => exact { Keeps.refl a with params := hslot a.params new }
  | produces new => exact { Keeps.refl a with produces := hslot a.produces new }
  | selected new => exact { Keeps.refl a with selected := hslot a.selected new }

end Attributes

private theorem Request.keeps_publishAll (r : Request) (as : List Attribute) :
    r.attributes.Keeps (r.publishAll as).attributes := by
  induction as generalizing r with
  | nil => exact .refl _
  | cons a as ih => exact (r.attributes.keeps_publish a).trans (ih (r.publish a))

section

variable {d : Dispatcher σ} {h : Handler σ} {is : List (Interceptor σ)}

private theorem Calls.keeps {b : Callback} {s s' : Scene σ} (hcall : Calls d h is b s s') :
    s.request.attributes.Keeps s'.request.attributes := by
  cases hcall with
  | unresolved | rendered => exact s.request.keeps_publishAll _
  | _ => exact .refl _

private theorem Performs.keeps {t : List Callback} {s s' : Scene σ}
    (hrun : Performs d h is t s s') : s.request.attributes.Keeps s'.request.attributes := by
  induction hrun with
  | done => exact .refl _
  | report e _ ih => exact ih
  | call first _ ih => exact first.keeps.trans ih

end

def DispatchOutcome.exchange : DispatchOutcome σ → Exchange
  | completed x | rejected x | notFound x => x
  | suspended p => p.exchange

theorem Finishes.exchange {n : Nat} {x y : Exchange} {t : List Callback}
    (ht : Finishes n x t (.ok y)) : y = x := by
  cases ht
  rfl

theorem Concludes.exchange {n : Nat} {x y : Exchange} {cause : Option AsyncValue}
    {t : List Callback} (ht : Concludes n x cause t (some (.ok y))) : y = x := by
  cases ht with
  | finished ht => exact ht.exchange

theorem Protocol.exchange {c : Chain σ} {x : Exchange} {t : List Callback}
    {r : Except DispatchError (DispatchOutcome σ)} {outcome : DispatchOutcome σ}
    (ht : Protocol c x t r) (hr : r = .ok outcome) : outcome.exchange = x := by
  cases ht with
  | refused | suspended =>
    cases hr
    rfl
  | preFailed | handlerFailed => cases hr
  | @finished o t r ho ht =>
    cases r with
    | error e => cases hr
    | ok y =>
      cases hr
      exact ht.exchange

private theorem Protocol.not_notFound {c : Chain σ} {x y : Exchange} {t : List Callback}
    {r : Except DispatchError (DispatchOutcome σ)} (ht : Protocol c x t r) :
    r ≠ .ok (.notFound y) := by
  cases ht with
  | @finished o t r ho ht => cases r <;> simp [Except.map]
  | _ => simp

private theorem HandlerRef.description_nest (leaf : String ⊕ Handler σ)
    (layers : List (List (Interceptor σ))) :
    (nest leaf layers).description = leaf.elim id Handler.name := by
  induction layers using List.reverseRecOn with
  | nil => cases leaf <;> rfl
  | append_singleton layers layer ih =>
    rw [nest_append]
    exact ih

namespace HandlerMapping

variable {m : HandlerMapping σ} {req : Request} {router : Router (HandlerRef σ)}

/-- A mapping that has no chain for a request. -/
def Declines (m : HandlerMapping σ) (req : Request) : Prop :=
  ∀ w, ((m.resolve req).run w).1.1 = .ok none

/-- The attributes of a request without any, after a mapping with routes was asked. -/
inductive Publishes (m : HandlerMapping σ) (req : Request) : Attributes → Prop where
  | routed {router : Router (HandlerRef σ)} {found : RouteMatch (HandlerRef σ)}
      {leaf : String ⊕ Handler σ} {layers : List (List (Interceptor σ))}
      (lookup : m.lookup = .byUrl router)
      (route : router.route? (lookupMethod req) req.path = some found)
      (target : found.route.target = .nest leaf layers) :
      m.Publishes req {
        pattern := some found.route.pattern.raw
        handler := some (leaf.elim id Handler.name)
        params := some found.params
        produces := if found.route.produces = [] then none else some found.route.produces }
  | unrouted {router : Router (HandlerRef σ)} (lookup : m.lookup = .byUrl router)
      (route : router.route? (lookupMethod req) req.path = none) : m.Publishes req {}

private theorem chainFor_result (m : HandlerMapping σ) (req : Request) (ref : HandlerRef σ)
    (w w' : World σ) : ((m.chainFor req ref).run w).1 = ((m.chainFor req ref).run w').1 := by
  cases hhandler : m.handlerOf ref with
  | error e => rw [chainFor_of_error hhandler, chainFor_of_error hhandler]
  | ok handler =>
    cases hpolicy : effectivePolicy (m.policyFor req) handler.cors with
    | error fault => rw [chainFor_of_fault hhandler hpolicy, chainFor_of_fault hhandler hpolicy]
    | ok policy => rw [chainFor_of_serves ⟨hhandler, hpolicy⟩, chainFor_of_serves ⟨hhandler, hpolicy⟩]

private theorem chainOf_result (m : HandlerMapping σ) (req : Request)
    (found : Except DispatchError (Option (HandlerRef σ))) (w w' : World σ) :
    ((m.chainOf req found).run w).1 = ((m.chainOf req found).run w').1 := by
  rcases found with e | _ | ref
  · rfl
  · rfl
  · rw [chainOf_some, chainOf_some, m.chainFor_result req ref w w']

theorem resolve_byUrl (hlookup : m.lookup = .byUrl router) (req : Request) (w w' : World σ) :
    let found? := router.route? (lookupMethod req) req.path
    let req' := req.publishAll (found?.elim [] Lookup.published)
    ((m.resolve req).run w).1 =
      (((m.chainOf req' (.ok ((found?.map (·.route.target)).or m.defaultHandler))).run w').1,
        req') := by
  have hfind := m.find_answer req w
  rw [hlookup, byUrl_answer] at hfind
  rw [resolve_run]
  generalize (m.find req).run w = answer at hfind
  obtain ⟨⟨found, published⟩, w₁⟩ := answer
  cases hroute : router.route? (lookupMethod req) req.path with
  | none =>
    rw [hroute] at hfind
    obtain ⟨rfl, rfl⟩ := Prod.mk.inj hfind
    have hchain := m.chainOf_result (req.publishAll []) (.ok m.defaultHandler) w₁ w'
    exact congrArg (·, req.publishAll []) hchain
  | some matched =>
    rw [hroute] at hfind
    obtain ⟨rfl, rfl⟩ := Prod.mk.inj hfind
    have hchain := m.chainOf_result (req.publishAll (Lookup.published matched))
      (.ok (some matched.route.target)) w₁ w'
    exact congrArg (·, req.publishAll (Lookup.published matched)) hchain

/-- What a mapping with routes makes of a request is the same in all worlds. -/
private theorem resolve_result (hlookup : m.lookup = .byUrl router) (req : Request)
    (w w' : World σ) : ((m.resolve req).run w).1 = ((m.resolve req).run w').1 := by
  rw [resolve_byUrl hlookup req w w, resolve_byUrl hlookup req w' w]

private theorem publishes_of_byUrl (hlookup : m.lookup = .byUrl router) (hreq : req.attributes = {})
    (w : World σ) : m.Publishes req ((m.resolve req).run w).1.2.attributes := by
  rw [resolve_byUrl hlookup req w w]
  cases hroute : router.route? (lookupMethod req) req.path with
  | none =>
    have hunset : (req.publishAll []).attributes = {} := hreq
    rw [Option.elim_none, hunset]
    exact .unrouted hlookup hroute
  | some found =>
    obtain ⟨layers, htarget, -⟩ := found.route.target.exists_nest
    have hset : (req.publishAll (Lookup.published found)).attributes = {
        pattern := some found.route.pattern.raw
        handler := some (found.route.target.leaf.elim id Handler.name)
        params := some found.params
        produces := if found.route.produces = [] then none else some found.route.produces } := by
      have hname := HandlerRef.description_nest found.route.target.leaf layers
      rw [← htarget] at hname
      rw [Lookup.published, hname]
      cases hproduces : found.route.produces with
      | nil => simp [Request.publishAll, Request.publish, Attributes.publish, hreq]
      | cons => simp [Request.publishAll, Request.publish, Attributes.publish, hreq]
    rw [Option.elim_some, hset]
    exact .routed hlookup hroute htarget

private theorem chainOf_some_ne_none (m : HandlerMapping σ) (req : Request) (ref : HandlerRef σ)
    (w : World σ) : ((m.chainOf req (.ok (some ref))).run w).1 ≠ .ok none := by
  rw [chainOf_some]
  cases ((m.chainFor req ref).run w).1 <;> simp [Except.map]

/-- A mapping with routes declines what has no route, if it has no default handler. -/
theorem declines_iff (hlookup : m.lookup = .byUrl router) (req : Request) (w : World σ) :
    m.Declines req ↔
      m.defaultHandler = none ∧ router.route? (lookupMethod req) req.path = none := by
  constructor
  · intro hdeclines
    have hnone := hdeclines w
    rw [resolve_byUrl hlookup req w w] at hnone
    cases hroute : router.route? (lookupMethod req) req.path with
    | some matched =>
      rw [hroute] at hnone
      exact absurd hnone (m.chainOf_some_ne_none _ _ w)
    | none =>
      rw [hroute] at hnone
      cases hdefault : m.defaultHandler with
      | some ref =>
        rw [hdefault] at hnone
        exact absurd hnone (m.chainOf_some_ne_none _ _ w)
      | none => exact ⟨rfl, rfl⟩
  · rintro ⟨hdefault, hroute⟩ w'
    rw [resolve_byUrl hlookup req w' w', hroute, hdefault]
    rfl

theorem resolve_of_declines (hlookup : m.lookup = .byUrl router) (hdeclines : m.Declines req)
    (w : World σ) : ((m.resolve req).run w).1 = (.ok none, req) := by
  obtain ⟨hdefault, hroute⟩ := (declines_iff hlookup req w).mp hdeclines
  rw [resolve_byUrl hlookup req w w, hroute, hdefault]
  rfl

private theorem resolve_ne_none (hlookup : m.lookup = .byUrl router) (hm : ¬ m.Declines req)
    (w : World σ) : ((m.resolve req).run w).1.1 ≠ .ok none := by
  intro hnone
  apply hm
  intro w'
  rw [m.resolve_result hlookup req w' w, hnone]

end HandlerMapping

namespace Dispatcher

variable {ms before : List (HandlerMapping σ)} {m : HandlerMapping σ} {req : Request}

private theorem chainFor_cons (m : HandlerMapping σ) (ms : List (HandlerMapping σ)) (req : Request)
    (w : World σ) :
    (chainFor (m :: ms) req).run w =
      let ((result, req'), w') := (m.resolve req).run w
      match result with
      | .ok none => (chainFor ms req').run w'
      | _ => ((result, req'), w') := by
  rw [chainFor, StateT.run_bind]
  generalize (m.resolve req).run w = answer
  obtain ⟨⟨result, req'⟩, w'⟩ := answer
  rcases result with e | _ | c <;> rfl

private theorem chainFor_of_declines
    (hurl : ∀ m ∈ before, ∃ router, m.lookup = .byUrl router) (hbefore : ∀ m ∈ before, m.Declines req)
    (w : World σ) :
    ∃ w', ∀ ms, (chainFor (before ++ ms) req).run w = (chainFor ms req).run w' := by
  induction before generalizing w with
  | nil => exact ⟨w, fun _ => rfl⟩
  | cons m before ih =>
    rw [List.forall_mem_cons] at hurl hbefore
    obtain ⟨router, hlookup⟩ := hurl.1
    have hresolve := m.resolve_of_declines hlookup hbefore.1 w
    generalize hrun : (m.resolve req).run w = answer at hresolve
    obtain ⟨answer, w₁⟩ := answer
    obtain rfl : answer = (.ok none, req) := hresolve
    obtain ⟨w', hrest⟩ := ih hurl.2 hbefore.2 w₁
    refine ⟨w', fun ms => ?_⟩
    rw [← hrest ms, List.cons_append, chainFor_cons, hrun]

theorem chainFor_of_not_declines (m : HandlerMapping σ) (ms : List (HandlerMapping σ))
    {w : World σ} (hm : ((m.resolve req).run w).1.1 ≠ .ok none) :
    (chainFor (m :: ms) req).run w = (m.resolve req).run w := by
  rw [chainFor_cons]
  generalize (m.resolve req).run w = answer at hm ⊢
  obtain ⟨⟨result, req'⟩, w'⟩ := answer
  rcases result with e | _ | c
  · rfl
  · exact absurd rfl hm
  · rfl

/-- When not all mappings decline, the first that does not is the last one asked. -/
private theorem chainFor_winner (hurl : ∀ m ∈ ms, ∃ router, m.lookup = .byUrl router)
    (hms : ¬ ∀ m ∈ ms, m.Declines req) (w : World σ) :
    ∃ before m after w₁, ms = before ++ m :: after ∧ (∀ m' ∈ before, m'.Declines req) ∧
      ¬ m.Declines req ∧ ((m.resolve req).run w₁).1.1 ≠ .ok none ∧
      ∀ others, (chainFor (before ++ m :: others) req).run w = (m.resolve req).run w₁ := by
  obtain ⟨before, m, after, rfl, hbefore, hm⟩ := exists_first_not hms
  obtain ⟨router, hlookup⟩ := hurl m (List.mem_append_right _ List.mem_cons_self)
  obtain ⟨w₁, hrest⟩ := chainFor_of_declines
    (fun m' hm' => hurl m' (List.mem_append_left _ hm')) hbefore w
  have hserves := HandlerMapping.resolve_ne_none hlookup hm w₁
  refine ⟨before, m, after, w₁, rfl, hbefore, hm, hserves, fun others => ?_⟩
  rw [hrest, chainFor_of_not_declines m others hserves]

theorem dispatch_of_declines {d : Dispatcher σ}
    (hurl : ∀ m ∈ d.mappings, ∃ router, m.lookup = .byUrl router)
    (hdecline : ∀ m ∈ d.mappings, m.Declines req) (res : Response) (w : World σ) :
    ((d.dispatch req res).run w).1 = .ok (.notFound ⟨req, notFound res⟩) := by
  obtain ⟨w₁, hrest⟩ := chainFor_of_declines hurl hdecline w
  have hnone := hrest []
  rw [List.append_nil] at hnone
  rw [dispatch, StateT.run_bind, hnone]
  rfl

/-- Nothing is found for a request exactly if all mappings decline it. -/
theorem notFound_iff {d : Dispatcher σ}
    (hurl : ∀ m ∈ d.mappings, ∃ router, m.lookup = .byUrl router) (res : Response) (w : World σ) :
    (∃ x, ((d.dispatch req res).run w).1 = .ok (.notFound x)) ↔ ∀ m ∈ d.mappings, m.Declines req := by
  constructor
  · rintro ⟨x, hx⟩
    refine Classical.byContradiction fun hnot => ?_
    obtain ⟨before, m, after, w₁, hsplit, -, -, hserves, hothers⟩ := chainFor_winner hurl hnot w
    have hsearch := hothers after
    rw [← hsplit] at hsearch
    generalize (m.resolve req).run w₁ = answer at hserves hsearch
    obtain ⟨⟨found, req'⟩, w'⟩ := answer
    rcases found with e | _ | c
    · rw [dispatch, StateT.run_bind, hsearch] at hx
      cases hx
    · exact hserves rfl
    · obtain ⟨t, s, -, -, hprotocol⟩ := dispatch_performs d res hsearch
      exact hprotocol.not_notFound hx
  · exact fun hdecline => ⟨_, dispatch_of_declines hurl hdecline res w⟩

private theorem keeps_of_dispatch {d : Dispatcher σ} {req req' : Request} {w w' : World σ}
    {found : Except DispatchError (Option (Chain σ))}
    (search : (chainFor d.mappings req).run w = ((found, req'), w')) {res : Response}
    {outcome : DispatchOutcome σ} (run : ((d.dispatch req res).run w).1 = .ok outcome) :
    req'.attributes.Keeps outcome.exchange.request.attributes ∧
      ∀ p, outcome = .suspended p → p.IsReady := by
  cases found with
  | error e =>
    rw [dispatch, StateT.run_bind, search] at run
    cases run
  | ok c? =>
    cases c? with
    | none =>
      rw [dispatch, StateT.run_bind, search] at run
      cases run
      refine ⟨.refl _, ?_⟩
      rintro p ⟨⟩
    | some c =>
      obtain ⟨t, s, ht, -, hprotocol⟩ := dispatch_performs d res search
      constructor
      · rw [hprotocol.exchange run]
        exact ht.keeps
      · rintro p rfl
        rw [Pending.IsReady, (hprotocol.of_suspended run).2.1]
        exact ⟨rfl, rfl⟩

private theorem keeps_of_ending {d : Dispatcher σ} {p : Pending σ} (hp : p.IsReady)
    (ending : Ending)
    {w : World σ} {x : Exchange} (run : ((ending.run d p).run w).1 = some (.ok x)) :
    p.exchange.request.attributes.Keeps x.request.attributes := by
  obtain ⟨t, s, f, g, ht, -, hconcludes, -⟩ := ending.ends (d := d) hp w
  rw [run] at hconcludes
  rw [hconcludes.exchange]
  have hscene : (p.sceneAt d (w.withChannel p.result.channel f) (ending.cause p w)).request.attributes =
      p.exchange.request.attributes := by
    cases ending.cause p w <;> rfl
  rw [← hscene]
  exact ht.keeps

/-- The attributes of a request that came without any are those of the mapping that is used, the first
by order that does not decline. Those behind it are not asked. Whatever is done with the request later,
attributes that are set stay. -/
theorem published_by_winner (d : Dispatcher σ)
    (hurl : ∀ m ∈ d.mappings, ∃ router, m.lookup = .byUrl router) {req : Request}
    (hreq : req.attributes = {}) (w₀ w : World σ) :
    let d' := ((new d).run w₀).1
    ∃ result req' w', (chainFor d'.mappings req).run w = ((result, req'), w') ∧
      ((∀ m ∈ d.mappings, m.Declines req) ∧ result = .ok none ∧ req'.attributes = {} ∨
        ∃ m before after, d'.mappings = before ++ m :: after ∧
          Order.IsFirst (·.order) (fun m => ¬ m.Declines req) d.mappings m ∧
          (∀ w₁, ((m.resolve req).run w₁).1.1 = result) ∧
          (∀ others, (chainFor (before ++ m :: others) req).run w = ((result, req'), w')) ∧
          m.Publishes req req'.attributes) ∧
      (∀ res outcome, ((d'.dispatch req res).run w).1 = .ok outcome →
        req'.attributes.Keeps outcome.exchange.request.attributes ∧
        ∀ p, outcome = .suspended p → ∀ (ending : Ending) w₁ x,
          ((ending.run d' p).run w₁).1 = some (.ok x) →
          p.exchange.request.attributes.Keeps x.request.attributes) ∧
      (∀ h is t (s s' : Scene σ), Performs d' h is t s s' →
        s.request.attributes.Keeps s'.request.attributes) ∧
      ∀ (r : Request) as, r.attributes.Keeps (r.publishAll as).attributes := by
  classical
  intro d'
  have hsorted : d'.mappings = Order.sortBy (·.order) d.mappings := rfl
  have hurl' : ∀ m ∈ d'.mappings, ∃ router, m.lookup = .byUrl router := by
    intro m hm
    exact hurl m ((Order.sortBy_perm _ _).mem_iff.mp hm)
  generalize hsearch : (chainFor d'.mappings req).run w = search
  obtain ⟨⟨result, req'⟩, w'⟩ := search
  refine ⟨result, req', w', rfl, ?_, ?_, fun _ _ _ _ _ ht => ht.keeps, Request.keeps_publishAll⟩
  · by_cases hdecline : ∀ m ∈ d'.mappings, m.Declines req
    · left
      obtain ⟨w₁, hrest⟩ := chainFor_of_declines hurl' hdecline w
      have hnone := hrest []
      rw [List.append_nil, hsearch] at hnone
      cases hnone
      exact ⟨fun m hm => hdecline m ((Order.sortBy_perm _ _).mem_iff.mpr hm), rfl, hreq⟩
    · right
      obtain ⟨before, m, after, w₁, hsplit, hbefore, hm, -, hothers⟩ :=
        chainFor_winner hurl' hdecline w
      obtain ⟨router, hlookup⟩ := hurl' m (hsplit ▸ List.mem_append_right _ List.mem_cons_self)
      rw [hsplit] at hsorted hsearch ⊢
      have hfound : (m.resolve req).run w₁ = ((result, req'), w') := (hothers after).symm.trans hsearch
      refine ⟨m, before, after, rfl, Order.isFirst_of_sortBy hsorted.symm ?_ hm, ?_, ?_, ?_⟩
      · intro m' hm'
        rw [not_not]
        exact hbefore m' hm'
      · intro w₂
        rw [m.resolve_result hlookup req w₂ w₁, hfound]
      · intro others
        rw [hothers, hfound]
      · have hpublishes := HandlerMapping.publishes_of_byUrl hlookup hreq w₁
        rw [hfound] at hpublishes
        exact hpublishes
  · intro res outcome hrun
    obtain ⟨hkeeps, hready⟩ := keeps_of_dispatch hsearch hrun
    refine ⟨hkeeps, ?_⟩
    intro p hp ending w₁ x hend
    exact keeps_of_ending (hready p hp) ending hend

/-- A mapping of one route, whose handler is wrapped twice. -/
def pageMapping (order : Int) (pattern : PathPattern) : HandlerMapping Unit where
  lookup := .byUrl ⟨[{
    pattern
    target := .chain (.chain (.raw { name := "page", run := fun _ res => return (.ok .handled, res) })
      []) []
    produces := [⟨"text", "html", []⟩] }]⟩
  order

theorem published_by_winner_pages : ∃ all other page,
    PathPattern.parse "/**" = .ok all ∧ PathPattern.parse "/other" = .ok other ∧
    PathPattern.parse "/pages/\x7bid\x7d" = .ok page ∧
    let ms := [pageMapping 7 all, pageMapping 1 other, pageMapping 3 page]
    let req : Request := { method := .get, path := "/pages/12" }
    (∀ m ∈ ms, ∃ router, m.lookup = .byUrl router) ∧ req.attributes = {} ∧
    ∃ m, Order.IsFirst (·.order) (fun m => ¬ m.Declines req) ms m ∧ m.Publishes req {
      pattern := some "/pages/\x7bid\x7d"
      handler := some "page"
      params := some [("id", "12")]
      produces := some [⟨"text", "html", []⟩] } := by
  let req : Request := { method := .get, path := "/pages/12" }
  let w : World Unit := { app := () }
  let published : Except PatternFault Attributes := do
    let all ← PathPattern.parse "/**"
    let other ← PathPattern.parse "/other"
    let page ← PathPattern.parse "/pages/\x7bid\x7d"
    let sorted := [pageMapping 1 other, pageMapping 3 page, pageMapping 7 all]
    return ((chainFor sorted req).run w).1.2.attributes
  have hrun : published.toOption.any fun attributes => attributes = {
      pattern := some "/pages/\x7bid\x7d"
      handler := some "page"
      params := some [("id", "12")]
      produces := some [⟨"text", "html", []⟩] } := by
    decide +kernel
  obtain ⟨attributes, hpublished, hset⟩ := exists_ok_of_any hrun
  obtain ⟨all, hall, hpublished⟩ := except_bind_ok hpublished
  obtain ⟨other, hother, hpublished⟩ := except_bind_ok hpublished
  obtain ⟨page, hpage, hpublished⟩ := except_bind_ok hpublished
  cases hpublished
  have hset := of_decide_eq_true hset
  let ms := [pageMapping 7 all, pageMapping 1 other, pageMapping 3 page]
  have hurl : ∀ m ∈ ms, ∃ router, m.lookup = .byUrl router := by simp [ms, pageMapping]
  have hsorted : Order.sortBy (·.order) ms =
      [pageMapping 1 other, pageMapping 3 page, pageMapping 7 all] := by
    simp [ms, Order.sortBy, pageMapping, List.mergeSort]
  obtain ⟨result, req', w', hsearch, hfound, -⟩ := published_by_winner { mappings := ms } hurl
    (show req.attributes = {} from rfl) w w
  change (chainFor (Order.sortBy (·.order) ms) req).run w = _ at hsearch
  rw [hsorted] at hsearch
  simp only [hsearch] at hset
  refine ⟨all, other, page, hall, hother, hpage, hurl, rfl, ?_⟩
  rcases hfound with ⟨-, -, hunset⟩ | ⟨m, before, after, -, hfirst, -, -, hpublishes⟩
  · rw [hunset] at hset
    cases hset
  · exact ⟨m, hfirst, hset ▸ hpublishes⟩

end Dispatcher

end Switchyard
