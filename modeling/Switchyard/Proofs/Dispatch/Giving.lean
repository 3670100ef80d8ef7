import Switchyard.Proofs.Dispatch.Twins
/-!
# What actions give in all worlds

Actions that give a value with a property in every world, and leave a world that looks alike. So do
the searches of mappings and dispatchers whose lookups do (`Dispatcher.chainFor_gives`).
-/

namespace Switchyard

variable {σ α β : Type} {R : World σ → World σ → Prop}

/-- In every world an action gives a value with a property, and leaves a world that looks alike. -/
def Act.Gives (R : World σ → World σ → Prop) (a : Act σ α) (P : α → Prop) : Prop :=
  ∀ w, P (a.run w).1 ∧ R w (a.run w).2

namespace Act.Gives

variable {a : Act σ α} {f : α → Act σ β} {P P' : α → Prop} {Q : β → Prop}

protected theorem pure (hR : Appearance R) {x : α} (hx : P x) : Act.Gives R (pure x) P :=
  fun w => ⟨hx, hR.equivalence.refl w⟩

protected theorem bind (hR : Appearance R) (ha : a.Gives R P) (hf : ∀ x, P x → (f x).Gives R Q) :
    (a >>= f).Gives R Q := by
  intro w
  obtain ⟨hx, hw⟩ := ha w
  obtain ⟨hy, hw'⟩ := hf _ hx (a.run w).2
  exact ⟨hy, hR.equivalence.trans hw hw'⟩

theorem mono (ha : a.Gives R P) (h : ∀ x, P x → P' x) : a.Gives R P' :=
  fun w => ⟨h _ (ha w).1, (ha w).2⟩

theorem emitAll (hR : Appearance R) (es : List Event) :
    Act.Gives R (Act.emitAll es) fun _ => True := by
  intro w
  rw [Act.emitAll_run]
  exact ⟨trivial, hR.reportedAll w es⟩

theorem emit_bind (hR : Appearance R) {e : Event} {f : Unit → Act σ β} (hf : (f ()).Gives R Q) :
    (Act.emit e >>= f).Gives R Q :=
  fun w => ⟨(hf _).1, hR.equivalence.trans (hR.reported w e) (hf _).2⟩

end Act.Gives

theorem Lookup.byUrl_gives (hR : Appearance R) (router : Router (HandlerRef σ)) (req : Request)
    (method : Method) : (Lookup.byUrl router req method).Gives R fun _ => True := by
  apply Act.Gives.bind hR (Act.Gives.emitAll hR _)
  intro _ _
  cases router.route? method req.path <;> exact .pure hR trivial

namespace HandlerMapping

variable {m : HandlerMapping σ}

theorem chainFor_gives (hR : Appearance R) (m : HandlerMapping σ) (req : Request)
    (ref : HandlerRef σ) : (m.chainFor req ref).Gives R fun _ => True := by
  rw [chainFor]
  split
  · exact .pure hR trivial
  · dsimp only
    split
    · exact .emit_bind hR (.pure hR trivial)
    · split
      · exact .emit_bind hR (.pure hR trivial)
      · exact .pure hR trivial

theorem resolve_gives (hR : Appearance R)
    (hm : ∀ req method, (m.lookup req method).Gives R fun _ => True) (req : Request) :
    (m.resolve req).Gives R fun _ => True := by
  have hfind : (m.find req).Gives R fun _ => True := by
    apply Act.Gives.bind hR (hm _ _)
    rintro ⟨e | _ | ref, published⟩ -
    · exact .pure hR trivial
    · cases m.defaultHandler <;> exact .emit_bind hR (.pure hR trivial)
    · exact .pure hR trivial
  apply Act.Gives.bind hR hfind
  rintro ⟨e | _ | ref, published⟩ -
  · exact .pure hR trivial
  · exact .pure hR trivial
  · apply Act.Gives.bind hR (m.chainFor_gives hR _ ref)
    rintro (e | chain) -
    · exact .pure hR trivial
    · exact .emit_bind hR (.pure hR trivial)

end HandlerMapping

theorem Dispatcher.chainFor_gives (hR : Appearance R) {ms : List (HandlerMapping σ)}
    (hms : ∀ m ∈ ms, ∀ req method, (m.lookup req method).Gives R fun _ => True) (req : Request) :
    (chainFor ms req).Gives R fun _ => True := by
  induction ms generalizing req with
  | nil => exact .pure hR trivial
  | cons m ms ih =>
    rw [List.forall_mem_cons] at hms
    apply Act.Gives.bind hR (m.resolve_gives hR hms.1 req)
    rintro ⟨e | _ | c, req⟩ -
    · exact .pure hR trivial
    · exact ih hms.2 req
    · exact .pure hR trivial

end Switchyard
