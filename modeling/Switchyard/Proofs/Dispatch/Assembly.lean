import Switchyard.Proofs.Cors.Combining
import Switchyard.Proofs.Dispatch.Resolution
/-!
# Assembly of chains

A mapping lives through registrations and requests. What it answers to a request, after any history,
is put together from the reference that its lookup yields, the interceptors registered before, and
the policies that apply (`HandlerMapping.serve_resolve`).
-/

namespace Switchyard

variable {σ : Type}

namespace HandlerRef

/-- A leaf inside chains, the innermost chain first. -/
def nest (leaf : String ⊕ Handler σ) (layers : List (List (Interceptor σ))) : HandlerRef σ :=
  layers.foldl chain (leaf.elim named raw)

theorem nest_append (leaf : String ⊕ Handler σ) (layers : List (List (Interceptor σ)))
    (layer : List (Interceptor σ)) :
    nest leaf (layers ++ [layer]) = chain (nest leaf layers) layer := by
  rw [nest, List.foldl_append]
  rfl

theorem exists_nest (ref : HandlerRef σ) :
    ∃ layers, ref = nest ref.leaf layers ∧ ref.carried = layers.flatten := by
  induction ref with
  | raw h => exact ⟨[], rfl, rfl⟩
  | named n => exact ⟨[], rfl, rfl⟩
  | chain inner layer ih =>
    obtain ⟨layers, hnest, hcarried⟩ := ih
    refine ⟨layers ++ [layer], ?_, ?_⟩
    · rw [nest_append, leaf, ← hnest]
    · rw [carried, hcarried, List.flatten_append, List.flatten_singleton]

end HandlerRef

/-- Some pattern includes the path, unless there is none to include, and none excludes it. -/
def Scope.Holds : Scope → String → Prop
  | global, _ => True
  | mapped includes excludes, path =>
    (includes = [] ∨ ∃ p ∈ includes, p.isMatch path) ∧ ∀ p ∈ excludes, ¬ p.isMatch path

private theorem Scope.appliesTo_iff (s : Scope) (path : String) :
    s.appliesTo path ↔ s.Holds path := by
  cases s with
  | global => simp [appliesTo, Holds]
  | mapped includes excludes => simp [appliesTo, Holds, and_comm]

instance (s : Scope) (path : String) : Decidable (s.Holds path) :=
  decidable_of_iff _ (s.appliesTo_iff path)

private theorem InterceptorRegistry.matching_eq (r : InterceptorRegistry σ) (path : String) :
    r.matching path = (List.filter (fun e : ScopedInterceptor σ => e.scope.Holds path) r).map
      (·.interceptor) := by
  rw [matching]
  congr 2
  funext e
  rw [Bool.eq_iff_iff, Scope.appliesTo_iff, decide_eq_true_eq]

namespace HandlerMapping

open CorsPolicy

/-- The handler that a leaf stands for. -/
inductive Leads (m : HandlerMapping σ) : String ⊕ Handler σ → Handler σ → Prop where
  | raw (h : Handler σ) : m.Leads (.inr h) h
  | named {name : String} {h : Handler σ} (hname : (m.registry.bind (·.find? name)) = some h) :
    m.Leads (.inl name) h

variable {m : HandlerMapping σ} {req : Request} {ref : HandlerRef σ} {w : World σ}

private theorem handlerOf_named {name : String} (hleaf : ref.leaf = .inl name) :
    m.handlerOf ref =
      match m.registry.bind (·.find? name) with
      | some h => .ok h
      | none => .error (.unknownHandler name) := by
  rw [handlerOf, HandlerRegistry.resolve, hleaf]
  cases m.registry <;> rfl

theorem handlerOf_of_leads {h : Handler σ} (hleads : m.Leads ref.leaf h) :
    m.handlerOf ref = .ok h := by
  generalize hleaf : ref.leaf = leaf at hleads
  cases hleads with
  | raw => rw [handlerOf, HandlerRegistry.resolve, hleaf]
  | named hname => rw [handlerOf_named hleaf, hname]

private theorem handlerOf_of_unknown {name : String} (hleaf : ref.leaf = .inl name)
    (hname : m.registry.bind (·.find? name) = none) :
    m.handlerOf ref = .error (.unknownHandler name) := by
  rw [handlerOf_named hleaf, hname]

abbrev Answer (σ : Type) := Except DispatchError (Option (Chain σ)) × Request

/-- What a request comes to whose handler is at a leaf inside the given chains. -/
structure Assembled (m : HandlerMapping σ) (req : Request) (leaf : String ⊕ Handler σ)
    (layers : List (List (Interceptor σ))) (result : Except DispatchError (Option (Chain σ))) :
    Prop where
  unknown : ∀ name, leaf = .inl name → m.registry.bind (·.find? name) = none →
    result = .error (.unknownHandler name)
  invalid : ∀ handler fault, m.Leads leaf handler → Clash (m.policyFor req) handler.cors fault →
    result = .error (.cors fault)
  valid : ∀ handler, m.Leads leaf handler →
    (∀ fault, ¬ Clash (m.policyFor req) handler.cors fault) →
    ∃ policy, Joins (m.policyFor req) handler.cors policy ∧
      (Cors.isPreflight req → result =
        .ok (some { handler := m.corsProcessor.preFlightHandler policy, interceptors := [] })) ∧
      (¬ Cors.isPreflight req → result = .ok (some {
        handler
        interceptors := policy.toList.map m.corsProcessor.interceptor ++ (layers.flatten ++
          (m.interceptors.filter fun e => e.scope.Holds req.path).map (·.interceptor)) }))

private theorem chainFor_assembled (m : HandlerMapping σ) (req : Request) (ref : HandlerRef σ)
    (w : World σ) :
    ∃ layers, ref = .nest ref.leaf layers ∧
      m.Assembled req ref.leaf layers (((m.chainFor req ref).run w).1.map some) := by
  obtain ⟨layers, hnest, hcarried⟩ := ref.exists_nest
  refine ⟨layers, hnest, ?_, ?_, ?_⟩
  · intro name hleaf hname
    rw [chainFor_of_error (handlerOf_of_unknown hleaf hname)]
    rfl
  · intro handler fault hleads hclash
    have hfault := effectivePolicy_error_iff.mpr hclash
    rw [chainFor_of_fault (handlerOf_of_leads hleads) hfault]
    rfl
  · intro handler hleads hvalid
    obtain ⟨policy, hpolicy, hjoins⟩ := effectivePolicy_ok hvalid
    have hmade : ((m.chainFor req ref).run w).1 = _ :=
      chainFor_of_serves ⟨handlerOf_of_leads hleads, hpolicy⟩
    rw [hmade, chainUnder, hcarried, InterceptorRegistry.matching_eq]
    refine ⟨policy, hjoins, ?_, ?_⟩
    · intro hpre
      rw [if_pos hpre]
      rfl
    · intro hpre
      rw [if_neg hpre]
      rfl

/-- What a request comes to for which the lookup found this. -/
structure Answers (m : HandlerMapping σ) (req : Request)
    (found : Except DispatchError (Option (HandlerRef σ)))
    (result : Except DispatchError (Option (Chain σ))) : Prop where
  failed : ∀ e, found = .error e → result = .error e
  missed : found = .ok none → m.defaultHandler = none → result = .ok none
  yielded : ∀ ref, (found = .ok (some ref) ∨ found = .ok none ∧ m.defaultHandler = some ref) →
    ∃ leaf layers, ref = .nest leaf layers ∧ m.Assembled req leaf layers result

private theorem chainOf_answers (m : HandlerMapping σ) (req : Request)
    (found : Except DispatchError (Option (HandlerRef σ))) (w : World σ) :
    m.Answers req found ((m.chainOf req (found.map (·.or m.defaultHandler))).run w).1 := by
  refine ⟨?_, ?_, ?_⟩
  · rintro e rfl
    rfl
  · rintro rfl hdefault
    rw [hdefault]
    rfl
  · intro ref hyields
    have hsome : found.map (·.or m.defaultHandler) = .ok (some ref) := by
      rcases hyields with rfl | ⟨rfl, hdefault⟩
      · rfl
      · rw [hdefault]
        rfl
    obtain ⟨layers, hnest, hassembled⟩ := m.chainFor_assembled req ref w
    rw [hsome, chainOf_some]
    exact ⟨ref.leaf, layers, hnest, hassembled⟩

private theorem resolve_answers (m : HandlerMapping σ) (req : Request) (w : World σ) :
    ∃ found published result,
      ((m.lookup req (lookupMethod req)).run w).1 = (found, published) ∧
      ((m.resolve req).run w).1 = (result, req.publishAll published) ∧
      m.Answers (req.publishAll published) found result := by
  have hfind := m.find_answer req w
  rw [resolve_run]
  generalize ((m.lookup req (lookupMethod req)).run w).1 = answer at hfind
  generalize (m.find req).run w = answer' at hfind
  obtain ⟨found, published⟩ := answer
  obtain ⟨⟨_, _⟩, w'⟩ := answer'
  obtain ⟨rfl, rfl⟩ := Prod.mk.inj hfind
  exact ⟨found, _, _, rfl, rfl, m.chainOf_answers _ found w'⟩

/-- What a mapping is asked for. -/
inductive Demand (σ : Type) where
  | register (entry : ScopedInterceptor σ)
  | resolve (req : Request)

def serve (m : HandlerMapping σ) : List (Demand σ) → Act σ (List (Answer σ))
  | [] => return []
  | .register entry :: rest => do
    let m ← m.register entry
    m.serve rest
  | .resolve req :: rest => do
    let answer ← m.resolve req
    let answers ← m.serve rest
    return answer :: answers

def Demand.entry? : Demand σ → Option (ScopedInterceptor σ)
  | register entry => some entry
  | resolve _ => none

/-- The mapping behind some demands: it has more interceptors. -/
def after (m : HandlerMapping σ) (demands : List (Demand σ)) : HandlerMapping σ :=
  { m with interceptors := m.interceptors ++ demands.filterMap Demand.entry? }

private theorem after_register (m : HandlerMapping σ) (entry : ScopedInterceptor σ)
    (demands : List (Demand σ)) :
    HandlerMapping.after { m with interceptors := m.interceptors ++ [entry] } demands =
      m.after (.register entry :: demands) := by
  simp [after, Demand.entry?]

/-- Demands in two parts: the later ones meet the mapping as the earlier ones leave it. -/
private theorem serve_append (m : HandlerMapping σ) (earlier later : List (Demand σ))
    (w : World σ) : ((m.serve (earlier ++ later)).run w).1 = ((m.serve earlier).run w).1 ++
      (((m.after earlier).serve later).run ((m.serve earlier).run w).2).1 := by
  induction earlier generalizing m w with
  | nil => simp [serve, after]; rfl
  | cons demand rest ih =>
    cases demand with
    | register entry =>
      have h := ih { m with interceptors := m.interceptors ++ [entry] } ((m.register entry).run w).2
      rw [after_register] at h
      exact h
    | resolve req =>
      have h := ih m ((m.resolve req).run w).2
      exact congrArg (((m.resolve req).run w).1 :: ·) h

/-- The answer to a request after some demands, with any demands behind it. -/
theorem serve_resolve (m : HandlerMapping σ) (earlier later : List (Demand σ)) (req : Request)
    (w : World σ) :
    ∃ found published result answers,
      ((m.lookup req (lookupMethod req)).run ((m.serve earlier).run w).2).1 = (found, published) ∧
      ((m.serve (earlier ++ .resolve req :: later)).run w).1 =
        ((m.serve earlier).run w).1 ++ (result, req.publishAll published) :: answers ∧
      (m.after earlier).Answers (req.publishAll published) found result := by
  let w' := ((m.serve earlier).run w).2
  obtain ⟨found, published, result, hlookup, hresolve, hanswers⟩ :=
    (m.after earlier).resolve_answers req w'
  let answers := (((m.after earlier).serve later).run (((m.after earlier).resolve req).run w').2).1
  refine ⟨found, published, result, answers, hlookup, ?_, hanswers⟩
  rw [serve_append, ← hresolve]
  rfl

/-- A name inside two chains, between two registrations. -/
example :
    let i (name : String) : Interceptor Unit := { name }
    let leaf : Handler Unit :=
      { name := "leaf", cors := some .permissive, run := fun _ res => return (.ok .handled, res) }
    let m : HandlerMapping Unit := {
      lookup := fun _ _ => return (.ok (some (.chain (.chain (.named "h") [i "a"]) [i "b"])), [])
      registry := some ⟨[("h", leaf)]⟩
      interceptors := [⟨.global, i "c"⟩] }
    let answers := ((m.serve [.register ⟨.mapped [] [], i "d"⟩,
      .resolve { method := .get, path := "/" }, .register ⟨.global, i "e"⟩]).run
        ⟨(), #[], #[], #[], #[]⟩).1
    answers.map (fun a => a.1.toOption.bind fun c? => c?.map fun c =>
      (c.handler.name, c.interceptors.map (·.name))) =
        [some ("leaf", ["CorsInterceptor", "a", "b", "c", "d"])] := by
  rfl

end HandlerMapping

end Switchyard
