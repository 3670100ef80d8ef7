import Switchyard.Proofs.Cors.Combining
import Switchyard.Proofs.Dispatch.Protocol
/-!
# Mappings that always answer

A mapping is ready when whatever it may find is a registered handler and its policies are in order.
It answers every request without an error (`HandlerMapping.IsReady.resolve_ok`), so that over such
mappings a dispatch fails only with what a handler, an interceptor or a view has raised
(`Dispatcher.raises_of_error`).
-/

namespace Switchyard

variable {σ : Type}

/-- Neither the answer to a pre-flight request nor the guard of a handler raises an error. -/
structure CorsProcessor.IsQuiet (p : CorsProcessor σ) : Prop where
  answer (policy : Option CorsPolicy) (req : Request) (res : Response) (w : World σ) :
    (((p.preFlightHandler policy).run req res).run w).1.1 = .ok .handled
  guard (policy : CorsPolicy) (call : Call) (res : Response) (w : World σ) :
    ∃ allowed, (((p.interceptor policy).preHandle call res).run w).1.1 = .ok allowed

theorem CorsProcessor.isQuiet (p : CorsProcessor σ) : p.IsQuiet where
  answer policy req res w := rfl
  guard policy call res w := by
    rw [interceptor]
    dsimp only
    split
    · exact ⟨true, rfl⟩
    · exact ⟨_, rfl⟩

namespace HandlerMapping

variable {m : HandlerMapping σ} {req : Request} {ref : HandlerRef σ} {w : World σ}

/-- The reference leads to a handler without a policy of its own. -/
def LeadsToPlain (m : HandlerMapping σ) (ref : HandlerRef σ) : Prop :=
  ∃ handler, m.handlerOf ref = .ok handler ∧ handler.cors = none

/-- All that the mapping may find or apply was checked before. -/
structure IsReady (m : HandlerMapping σ) : Prop where
  lookup (req : Request) (method : Method) (w : World σ) : ∃ ref?,
    ((m.lookup req method).run w).1.1 = .ok ref? ∧ ∀ ref, ref? = some ref → m.LeadsToPlain ref
  default (ref : HandlerRef σ) (h : m.defaultHandler = some ref) : m.LeadsToPlain ref
  policy (req : Request) (p : CorsPolicy) (h : m.policyFor req = some p) :
    p.checkCredentials = .ok ()

namespace IsReady

theorem effectivePolicy_ok (hm : m.IsReady) (req : Request) :
    effectivePolicy (m.policyFor req) none = .ok (m.policyFor req) := by
  cases hpolicy : m.policyFor req with
  | none => rfl
  | some p =>
    rw [effectivePolicy_one (.inl ⟨rfl, rfl⟩), hm.policy req p hpolicy]
    rfl

theorem chainFor_ok (hm : m.IsReady) (href : m.LeadsToPlain ref) (req : Request) (w : World σ) :
    ∃ chain, ((m.chainFor req ref).run w).1 = .ok chain := by
  obtain ⟨handler, hfound, hplain⟩ := href
  have hserves : m.Serves req ref handler (m.policyFor req) := by
    refine ⟨hfound, ?_⟩
    rw [hplain]
    exact hm.effectivePolicy_ok req
  exact ⟨_, chainFor_of_serves hserves⟩

private theorem find_ok (hm : m.IsReady) (req : Request) (w : World σ) : ∃ ref?,
    ((m.find req).run w).1.1 = .ok ref? ∧ (∀ ref, ref? = some ref → m.LeadsToPlain ref) ∧
      (m.defaultHandler.isSome → ref?.isSome) := by
  obtain ⟨ref?, hlookup, hplain⟩ := hm.lookup req (lookupMethod req) w
  refine ⟨ref?.or m.defaultHandler, ?_, ?_, ?_⟩
  · rw [find_answer]
    change ((m.lookup req (lookupMethod req)).run w).1.1.map (·.or m.defaultHandler) = _
    rw [hlookup]
    rfl
  · intro ref href
    rcases Option.or_eq_some_iff.mp href with hfound | ⟨-, hdefault⟩
    · exact hplain ref hfound
    · exact hm.default ref hdefault
  · intro hdefault
    rw [Option.isSome_or, hdefault, Bool.or_true]

/-- A mapping that is ready answers with a chain or with none, and with one if it has a default
handler. -/
theorem resolve_ok (hm : m.IsReady) (req : Request) (w : World σ) : ∃ chain?,
    ((m.resolve req).run w).1.1 = .ok chain? ∧ (m.defaultHandler.isSome → chain?.isSome) := by
  obtain ⟨ref?, hfind, hplain, hdefault⟩ := hm.find_ok req w
  rw [resolve_run]
  generalize (m.find req).run w = answer at hfind
  obtain ⟨⟨found, published⟩, w'⟩ := answer
  dsimp only at hfind
  subst hfind
  cases ref? with
  | none => exact ⟨none, rfl, hdefault⟩
  | some ref =>
    obtain ⟨chain, hchain⟩ := hm.chainFor_ok (hplain ref rfl) (req.publishAll published) w'
    refine ⟨some chain, ?_, fun _ => rfl⟩
    change ((m.chainOf (req.publishAll published) (.ok (some ref))).run w').1 = _
    rw [chainOf_some, hchain]
    rfl

end IsReady

end HandlerMapping

/-- No handler has the name, or the policies do not fit: what settings may get wrong. -/
def DispatchError.IsSetup : DispatchError → Prop
  | .unknownHandler _ | .cors _ => True
  | _ => False

namespace Dispatcher

variable {d : Dispatcher σ} {req : Request} {res : Response} {w : World σ} {e : DispatchError}

private theorem chainFor_of_ready {ms : List (HandlerMapping σ)} (hready : ∀ m ∈ ms, m.IsReady)
    (req : Request) (w : World σ) : ∃ chain?, ((chainFor ms req).run w).1.1 = .ok chain? := by
  induction ms generalizing req w with
  | nil => exact ⟨none, rfl⟩
  | cons m ms ih =>
    obtain ⟨chain?, hresolve, -⟩ := (hready m List.mem_cons_self).resolve_ok req w
    rw [chainFor, StateT.run_bind]
    generalize (m.resolve req).run w = answer at hresolve
    obtain ⟨⟨result, req'⟩, w'⟩ := answer
    dsimp only at hresolve
    subst hresolve
    cases chain? with
    | none => exact ih (fun m' hm' => hready m' (List.mem_cons_of_mem m hm')) req' w'
    | some chain => exact ⟨some chain, rfl⟩

/-- Of the calls that a dispatch of the request makes over its chain, the first that fails raises
this error. -/
def Raises (d : Dispatcher σ) (req : Request) (res : Response) (w : World σ) (e : DispatchError) :
    Prop :=
  ∃ c req' w' t s, (chainFor d.mappings req).run w = ((.ok (some c), req'), w') ∧
    Performs d c.handler c.interceptors t ⟨w', ⟨req', res⟩, none⟩ s ∧
    t.findSome? Callback.failure? = some e

theorem raises_of_error (hready : ∀ m ∈ d.mappings, m.IsReady)
    (herror : ((d.dispatch req res).run w).1 = .error e) : d.Raises req res w e := by
  obtain ⟨chain?, hchain⟩ := chainFor_of_ready hready req w
  generalize hfound : (chainFor d.mappings req).run w = answer at hchain
  obtain ⟨⟨result, req'⟩, w'⟩ := answer
  dsimp only at hchain
  subst hchain
  cases chain? with
  | none =>
    rw [dispatch, StateT.run_bind, hfound] at herror
    cases herror
  | some c =>
    obtain ⟨t, s, hperforms, -, hprotocol⟩ := dispatch_performs d res hfound
    exact ⟨c, req', w', t, s, hfound, hperforms, (hprotocol.error_iff e).mp herror⟩

end Dispatcher

end Switchyard
