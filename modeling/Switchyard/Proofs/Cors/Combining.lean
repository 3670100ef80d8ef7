import Switchyard.Pipeline.Mapping
import Switchyard.Proofs.Cors.Merging
/-!
# Credentials of combined policies

Two policies that apply together have to agree on credentials, and may not send them to every
origin. `HandlerMapping.effectivePolicy_error_iff` says when they fail to apply and why,
`HandlerMapping.effectivePolicy_ok` what applies otherwise.
-/

namespace Switchyard

namespace CorsPolicy

theorem checkCredentials_error_iff {p : CorsPolicy} {fault : CorsFault} :
    p.checkCredentials = .error fault ↔ fault = .wildcardWithCredentials ∧
      p.allowCredentials = some true ∧ wildcard ∈ p.allowedOrigins.getD [] := by
  rw [checkCredentials]
  split
  · next h =>
    rw [Bool.and_eq_true, decide_eq_true_eq, List.contains_iff_mem] at h
    constructor
    · intro heq
      cases heq
      exact ⟨rfl, h⟩
    · rintro ⟨rfl, -⟩
      rfl
  · next h =>
    rw [Bool.and_eq_true, decide_eq_true_eq, List.contains_iff_mem] at h
    constructor
    · intro heq
      cases heq
    · intro h'
      exact absurd h'.2 h

theorem checkCredentials_ok_iff {p : CorsPolicy} : p.checkCredentials = .ok () ↔
    ¬ (p.allowCredentials = some true ∧ wildcard ∈ p.allowedOrigins.getD []) := by
  constructor
  · intro hok hboth
    rw [checkCredentials_error_iff.mpr ⟨rfl, hboth⟩] at hok
    cases hok
  · intro hnot
    cases hcheck : p.checkCredentials with
    | error fault => exact absurd (checkCredentials_error_iff.mp hcheck).2 hnot
    | ok => rfl

/-- What a policy says about credentials, if there is one and it says anything. -/
def credentials? (p : Option CorsPolicy) : Option Bool := p.bind (·.allowCredentials)

def origins (p : Option CorsPolicy) : List String := (p.bind (·.allowedOrigins)).getD []

/-- Both policies speak of credentials, and say opposite things. -/
def Disagree (a b : Option CorsPolicy) : Prop :=
  ∃ x y, credentials? a = some x ∧ credentials? b = some y ∧ x ≠ y

/-- Why two policies, each of which may be missing, do not apply together. -/
def Clash (a b : Option CorsPolicy) : CorsFault → Prop
  | .conflictingCredentials => Disagree a b
  | .wildcardWithCredentials => ¬ Disagree a b ∧
    (credentials? a = some true ∨ credentials? b = some true) ∧
    (wildcard ∈ origins a ∨ wildcard ∈ origins b)
  | _ => False

/-- The combination of two policies that agree on credentials, unchecked. -/
def joined (a b : CorsPolicy) : CorsPolicy where
  allowedOrigins := combineLists a.allowedOrigins b.allowedOrigins
  allowedOriginPatterns := combinePatterns a.allowedOriginPatterns b.allowedOriginPatterns
  allowedMethods := combineLists a.allowedMethods b.allowedMethods
  allowedHeaders := combineLists a.allowedHeaders b.allowedHeaders
  exposedHeaders := combineLists a.exposedHeaders b.exposedHeaders
  allowCredentials := b.allowCredentials.or a.allowCredentials
  maxAge := combineAges a.maxAge b.maxAge

variable {a b p : CorsPolicy} {fault : CorsFault}

private theorem combine_of_disagree (h : Disagree (some a) (some b)) :
    a.combine b = .error .conflictingCredentials := by
  obtain ⟨x, y, ha, hb, hne⟩ := h
  rw [combine, show a.allowCredentials = some x from ha, show b.allowCredentials = some y from hb]
  simp [hne]
  rfl

theorem combine_of_agree (h : ¬ Disagree (some a) (some b)) :
    a.combine b = (joined a b).checkCredentials.map fun _ => joined a b := by
  have hcheck : a.combine b = (do
      let _ ← (joined a b).checkCredentials
      return joined a b) := by
    rw [combine, joined]
    cases ha : a.allowCredentials with
    | none => cases b.allowCredentials <;> rfl
    | some x =>
      cases hb : b.allowCredentials with
      | none => rfl
      | some y =>
        have hsame : x = y := Decidable.byContradiction fun hne => h ⟨x, y, ha, hb, hne⟩
        simp only [if_pos hsame]
        rfl
  rw [hcheck]
  cases (joined a b).checkCredentials <;> rfl

theorem credentials_joined_iff (h : ¬ Disagree (some a) (some b)) {x : Bool} :
    (joined a b).allowCredentials = some x ↔
      credentials? (some a) = some x ∨ credentials? (some b) = some x := by
  change b.allowCredentials.or a.allowCredentials = _ ↔
    a.allowCredentials = _ ∨ b.allowCredentials = _
  cases ha : a.allowCredentials with
  | none => simp
  | some y =>
    cases hb : b.allowCredentials with
    | none => simp
    | some z =>
      have hsame : y = z := Decidable.byContradiction fun hne => h ⟨y, z, ha, hb, hne⟩
      simp [hsame]

theorem combine_error_iff : a.combine b = .error fault ↔ Clash (some a) (some b) fault := by
  by_cases hdisagree : Disagree (some a) (some b)
  · rw [combine_of_disagree hdisagree]
    constructor
    · intro heq
      cases heq
      exact hdisagree
    · intro hclash
      cases fault with
      | conflictingCredentials => rfl
      | wildcardWithCredentials => exact absurd hdisagree hclash.1
      | _ => exact hclash.elim
  · have hfault : (joined a b).checkCredentials = .error fault ↔ Clash (some a) (some b) fault := by
      rw [checkCredentials_error_iff, credentials_joined_iff hdisagree]
      dsimp only [joined]
      rw [wildcard_mem_combineLists]
      cases fault with
      | wildcardWithCredentials => simp [Clash, hdisagree, origins]
      | conflictingCredentials => simpa [Clash] using hdisagree
      | _ => simp [Clash]
    rw [combine_of_agree hdisagree, ← hfault]
    cases (joined a b).checkCredentials with
    | error e => simp [Except.map]
    | ok _ => simp [Except.map]

theorem combine_ok_iff : a.combine b = .ok p ↔ ¬ Disagree (some a) (some b) ∧
    (joined a b).checkCredentials = .ok () ∧ joined a b = p := by
  by_cases hdisagree : Disagree (some a) (some b)
  · rw [combine_of_disagree hdisagree]
    simp [hdisagree]
  · rw [combine_of_agree hdisagree]
    cases hcheck : (joined a b).checkCredentials with
    | error e => simp [Except.map]
    | ok => simp [Except.map, hdisagree]

private theorem combine_checked (h : a.combine b = .ok p) : p.checkCredentials = .ok () := by
  obtain ⟨-, hcheck, rfl⟩ := combine_ok_iff.mp h
  exact hcheck

theorem checked_of_combine (h : a.combine b = .ok p) :
    a.checkCredentials = .ok () ∧ b.checkCredentials = .ok () := by
  obtain ⟨hagree, hcheck, -⟩ := combine_ok_iff.mp h
  rw [checkCredentials_ok_iff, credentials_joined_iff hagree] at hcheck
  dsimp only [joined] at hcheck
  rw [wildcard_mem_combineLists] at hcheck
  rw [checkCredentials_ok_iff, checkCredentials_ok_iff]
  constructor
  · intro ha
    exact hcheck ⟨.inl ha.1, .inl ha.2⟩
  · intro hb
    exact hcheck ⟨.inr hb.1, .inr hb.2⟩

theorem disagree_comm {a b : Option CorsPolicy} : Disagree a b ↔ Disagree b a :=
  ⟨fun ⟨x, y, ha, hb, hne⟩ => ⟨y, x, hb, ha, hne.symm⟩,
    fun ⟨x, y, hb, ha, hne⟩ => ⟨y, x, ha, hb, hne.symm⟩⟩

theorem clash_comm {a b : Option CorsPolicy} : Clash a b fault ↔ Clash b a fault := by
  cases fault with
  | conflictingCredentials => exact disagree_comm
  | wildcardWithCredentials => simp only [Clash, disagree_comm (a := a), or_comm]
  | _ => rfl

private theorem clash_none_iff : Clash (some p) none fault ↔ p.checkCredentials = .error fault := by
  have hagree : ¬ Disagree (some p) none := by
    rintro ⟨x, y, -, hnone, -⟩
    cases hnone
  rw [checkCredentials_error_iff]
  cases fault with
  | wildcardWithCredentials => simp [Clash, hagree, credentials?, origins]
  | conflictingCredentials => simpa [Clash] using hagree
  | _ => simp [Clash]

private theorem not_clash_none : ¬ Clash none none fault := by
  cases fault <;> simp [Clash, Disagree, credentials?]

/-- The policy that two policies, each of which may be missing, come to. -/
inductive Joins : Option CorsPolicy → Option CorsPolicy → Option CorsPolicy → Prop where
  | neither : Joins none none none
  | first (a : CorsPolicy) : Joins (some a) none (some a)
  | second (b : CorsPolicy) : Joins none (some b) (some b)
  | both {a b p : CorsPolicy} (h : a.combine b = .ok p) : Joins (some a) (some b) (some p)

end CorsPolicy

namespace HandlerMapping

open CorsPolicy

variable {path own policy : Option CorsPolicy} {fault : CorsFault}

theorem effectivePolicy_one {p : CorsPolicy}
    (h : path = some p ∧ own = none ∨ path = none ∧ own = some p) :
    effectivePolicy path own = p.checkCredentials.map fun _ => some p := by
  rcases h with ⟨rfl, rfl⟩ | ⟨rfl, rfl⟩
  · change (p.checkCredentials >>= fun _ => pure (some p)) = _
    cases p.checkCredentials <;> rfl
  · change (p.checkCredentials >>= fun _ => pure (some p)) = _
    cases p.checkCredentials <;> rfl

private theorem effectivePolicy_both (g h : CorsPolicy) :
    effectivePolicy (some g) (some h) = (g.combine h).map some := by
  change (g.combine h >>= fun p => p.checkCredentials >>= fun _ => pure (some p)) = _
  cases hcombine : g.combine h with
  | error e => rfl
  | ok p =>
    change (p.checkCredentials >>= fun _ => pure (some p)) = _
    rw [combine_checked hcombine]
    rfl

theorem effectivePolicy_error_iff :
    effectivePolicy path own = .error fault ↔ Clash path own fault := by
  have map_error_iff {α β} {x : Except CorsFault α} {f : α → β} :
      x.map f = .error fault ↔ x = .error fault := by
    cases x <;> simp [Except.map]
  cases path with
  | none =>
    cases own with
    | none =>
      constructor
      · intro h
        cases h
      · intro h
        exact absurd h not_clash_none
    | some h =>
      rw [effectivePolicy_one (.inr ⟨rfl, rfl⟩), map_error_iff, clash_comm, clash_none_iff]
  | some g =>
    cases own with
    | none => rw [effectivePolicy_one (.inl ⟨rfl, rfl⟩), map_error_iff, clash_none_iff]
    | some h => rw [effectivePolicy_both, map_error_iff, combine_error_iff]

theorem joins_of_effectivePolicy (h : effectivePolicy path own = .ok policy) :
    Joins path own policy := by
  have map_ok {α β} {x : Except CorsFault α} {f : α → β} {b : β} (h : x.map f = .ok b) :
      ∃ a, x = .ok a ∧ f a = b := by
    cases x with
    | error e => cases h
    | ok a => exact ⟨a, rfl, Except.ok.inj h⟩
  cases path with
  | none =>
    cases own with
    | none =>
      cases h
      exact .neither
    | some p =>
      rw [effectivePolicy_one (.inr ⟨rfl, rfl⟩)] at h
      obtain ⟨-, -, rfl⟩ := map_ok h
      exact .second p
  | some g =>
    cases own with
    | none =>
      rw [effectivePolicy_one (.inl ⟨rfl, rfl⟩)] at h
      obtain ⟨-, -, rfl⟩ := map_ok h
      exact .first g
    | some p =>
      rw [effectivePolicy_both] at h
      obtain ⟨q, hcombine, rfl⟩ := map_ok h
      exact .both hcombine

/-- Policies that do not clash come to one that applies. -/
theorem effectivePolicy_ok (h : ∀ fault, ¬ Clash path own fault) :
    ∃ policy, effectivePolicy path own = .ok policy ∧ Joins path own policy := by
  cases hpolicy : effectivePolicy path own with
  | error fault => exact absurd (effectivePolicy_error_iff.mp hpolicy) (h fault)
  | ok policy => exact ⟨policy, rfl, joins_of_effectivePolicy hpolicy⟩

end HandlerMapping

end Switchyard
