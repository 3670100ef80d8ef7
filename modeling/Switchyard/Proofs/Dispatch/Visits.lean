import Switchyard.Proofs.Dispatch.Protocol
/-!
# What the calls of a dispatch are given

A transcript lists the calls of a run with their answers. A visit says besides what was in hand when
the call was made: the request and the response, and what was to be shown.
-/

namespace Switchyard

variable {σ α : Type} {d : Dispatcher σ} {h : Handler σ} {is : List (Interceptor σ)}

/-- A call with what was in hand when it was made. -/
structure Visit where
  callback : Callback
  exchange : Exchange
  shown : Option ModelAndView

def Scene.visit (s : Scene σ) (b : Callback) : Visit := ⟨b, s.exchange, s.shown⟩

/-- Some calls in a row as `Performs` has them, each with what it was given. -/
inductive Visits (d : Dispatcher σ) (h : Handler σ) (is : List (Interceptor σ)) :
    List Visit → Scene σ → Scene σ → Prop where
  | done {s : Scene σ} : Visits d h is [] s s
  | report {v : List Visit} {s s' : Scene σ} (e : Event)
      (rest : Visits d h is v (s.reported e) s') : Visits d h is v s s'
  | call {b : Callback} {v : List Visit} {s s₁ s' : Scene σ} (first : Calls d h is b s s₁)
      (rest : Visits d h is v s₁ s') : Visits d h is (s.visit b :: v) s s'

theorem Visits.append {v u : List Visit} {s s' s'' : Scene σ} (hv : Visits d h is v s s')
    (hu : Visits d h is u s' s'') : Visits d h is (v ++ u) s s'' := by
  induction hv with
  | done => exact hu
  | report e _ ih => exact .report e (ih hu)
  | call first _ ih => exact .call first (ih hu)

theorem Performs.visits {t : List Callback} {s s' : Scene σ} (ht : Performs d h is t s s') :
    ∃ v, v.map Visit.callback = t ∧ Visits d h is v s s' := by
  induction ht with
  | done => exact ⟨[], rfl, .done⟩
  | report e _ ih =>
    obtain ⟨v, hv, hvisits⟩ := ih
    exact ⟨v, hv, .report e hvisits⟩
  | @call b t s s₁ s' first _ ih =>
    obtain ⟨v, hv, hvisits⟩ := ih
    exact ⟨s.visit b :: v, congrArg (b :: ·) hv, .call first hvisits⟩

theorem Does.visits {s : Scene σ} {a : Act σ α} {Q : α → List Callback → Scene σ → Prop}
    (ha : Does d h is s a Q) {x : α} {w : World σ} (run : a.run s.world = (x, w)) :
    ∃ v s', Visits d h is v s s' ∧ s'.world = w ∧ Q x (v.map Visit.callback) s' := by
  obtain ⟨t, s', ht, hw, hq⟩ := ha
  obtain ⟨v, rfl, hv⟩ := ht.visits
  rw [run] at hw hq
  exact ⟨v, s', hv, hw.symm, hq⟩

end Switchyard
