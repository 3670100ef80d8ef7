import Switchyard.Proofs.Cors.Combining
/-!
# Laws of combining policies

Policies may be combined in any grouping, and in any order if that of the entries does not matter;
the policy that configures nothing changes no other (`CorsPolicy.combine_laws`). Groupings agree
because all of them come to the same policy, and each fails exactly when one of the policies sends
credentials and one is unfit for them (`CorsPolicy.combine_twice_left`,
`CorsPolicy.combine_twice_right`).
-/

namespace Switchyard.CorsPolicy

variable {a b c p q : CorsPolicy}

private theorem joined_assoc (a b c : CorsPolicy) :
    joined (joined a b) c = joined a (joined b c) := by
  simp only [joined, combineLists_assoc, combinePatterns_assoc, combineAges_assoc, Option.or_assoc]

def Sends (p : CorsPolicy) : Prop := p.allowCredentials = some true

def Withholds (p : CorsPolicy) : Prop := p.allowCredentials = some false

/-- The policy is one under which no credentials are sent. -/
def Unfit (p : CorsPolicy) : Prop := p.Withholds ∨ wildcard ∈ p.allowedOrigins.getD []

private theorem disagree_iff : Disagree (some a) (some b) ↔
    (a.Sends ∨ b.Sends) ∧ (a.Withholds ∨ b.Withholds) := by
  have apart {p : CorsPolicy} (hsends : p.Sends) (hwithholds : p.Withholds) : False := by
    cases hsends.symm.trans hwithholds
  constructor
  · intro ⟨x, y, ha, hb, hne⟩
    cases x with
    | true => exact ⟨.inl ha, .inr (hb.trans (by simpa using hne))⟩
    | false => exact ⟨.inr (hb.trans (by simpa using hne)), .inl ha⟩
  · intro ⟨hsends, hwithholds⟩
    rcases hsends with ha | hb
    · exact ⟨true, false, ha, hwithholds.resolve_left (apart ha), by decide⟩
    · exact ⟨false, true, hwithholds.resolve_right (apart hb), hb, by decide⟩

private theorem combine_ok_iff_unfit : a.combine b = .ok p ↔
    ¬ ((a.Sends ∨ b.Sends) ∧ (a.Unfit ∨ b.Unfit)) ∧ joined a b = p := by
  have hcheck (hagree : ¬ Disagree (some a) (some b)) : (joined a b).checkCredentials = .ok () ↔
      ¬ ((a.Sends ∨ b.Sends) ∧
        (wildcard ∈ a.allowedOrigins.getD [] ∨ wildcard ∈ b.allowedOrigins.getD [])) := by
    rw [checkCredentials_ok_iff, credentials_joined_iff hagree, ← wildcard_mem_combineLists]
    rfl
  have hunfit : a.Unfit ∨ b.Unfit ↔ (a.Withholds ∨ b.Withholds) ∨
      (wildcard ∈ a.allowedOrigins.getD [] ∨ wildcard ∈ b.allowedOrigins.getD []) := or_or_or_comm
  rw [combine_ok_iff, ← and_assoc, and_congr_right hcheck, disagree_iff, hunfit, ← not_or,
    ← and_or_left]

private theorem sends_of_combine (h : a.combine b = .ok p) : p.Sends ↔ a.Sends ∨ b.Sends := by
  obtain ⟨hagree, -, rfl⟩ := combine_ok_iff.mp h
  exact credentials_joined_iff hagree

private theorem unfit_of_combine (h : a.combine b = .ok p) : p.Unfit ↔ a.Unfit ∨ b.Unfit := by
  obtain ⟨hagree, -, rfl⟩ := combine_ok_iff.mp h
  rw [Unfit, Withholds, credentials_joined_iff hagree]
  dsimp only [joined]
  rw [wildcard_mem_combineLists, Unfit, Unfit]
  exact or_or_or_comm

theorem combine_twice_left : (∃ q, a.combine b = .ok q ∧ q.combine c = .ok p) ↔
    ¬ ((a.Sends ∨ b.Sends ∨ c.Sends) ∧ (a.Unfit ∨ b.Unfit ∨ c.Unfit)) ∧
      joined a (joined b c) = p := by
  constructor
  · intro ⟨q, hfirst, hsecond⟩
    have hsends := sends_of_combine hfirst
    have hunfit := unfit_of_combine hfirst
    obtain ⟨hfit, rfl⟩ := combine_ok_iff_unfit.mp hsecond
    obtain ⟨-, rfl⟩ := combine_ok_iff_unfit.mp hfirst
    rw [hsends, hunfit, or_assoc, or_assoc] at hfit
    exact ⟨hfit, (joined_assoc a b c).symm⟩
  · intro ⟨hfit, hjoined⟩
    have hfirst : a.combine b = .ok (joined a b) := by
      refine combine_ok_iff_unfit.mpr ⟨fun hbad => hfit ?_, rfl⟩
      exact ⟨hbad.1.imp_right .inl, hbad.2.imp_right .inl⟩
    refine ⟨_, hfirst, combine_ok_iff_unfit.mpr ⟨?_, (joined_assoc a b c).trans hjoined⟩⟩
    rw [sends_of_combine hfirst, unfit_of_combine hfirst, or_assoc, or_assoc]
    exact hfit

theorem combine_twice_right : (∃ q, b.combine c = .ok q ∧ a.combine q = .ok p) ↔
    ¬ ((a.Sends ∨ b.Sends ∨ c.Sends) ∧ (a.Unfit ∨ b.Unfit ∨ c.Unfit)) ∧
      joined a (joined b c) = p := by
  constructor
  · intro ⟨q, hfirst, hsecond⟩
    have hsends := sends_of_combine hfirst
    have hunfit := unfit_of_combine hfirst
    obtain ⟨hfit, rfl⟩ := combine_ok_iff_unfit.mp hsecond
    obtain ⟨-, rfl⟩ := combine_ok_iff_unfit.mp hfirst
    rw [hsends, hunfit] at hfit
    exact ⟨hfit, rfl⟩
  · intro ⟨hfit, hjoined⟩
    have hfirst : b.combine c = .ok (joined b c) := by
      refine combine_ok_iff_unfit.mpr ⟨fun hbad => hfit ?_, rfl⟩
      exact ⟨.inr hbad.1, .inr hbad.2⟩
    refine ⟨_, hfirst, combine_ok_iff_unfit.mpr ⟨?_, hjoined⟩⟩
    rw [sends_of_combine hfirst, unfit_of_combine hfirst]
    exact hfit

private theorem toOption_bind_eq_some {ε α β : Type} {x : Except ε α} {f : α → Except ε β} {y : β} :
    (x >>= f).toOption = some y ↔ ∃ z, x = .ok z ∧ f z = .ok y := by
  cases x with
  | error e => simp [bind, Except.bind, Except.toOption]
  | ok z => cases h : f z <;> simp [bind, Except.bind, Except.toOption, h]

private theorem combine_assoc (a b c : CorsPolicy) :
    (a.combine b >>= (·.combine c)).toOption = (b.combine c >>= a.combine).toOption := by
  apply Option.ext
  intro p
  rw [toOption_bind_eq_some, toOption_bind_eq_some, combine_twice_left, combine_twice_right]

def SameKeys {α β : Type} (key : α → β) (l l' : List α) : Prop :=
  ∀ k, k ∈ l.map key ↔ k ∈ l'.map key

/-- The policies differ at most in the order of their entries and in letter case. -/
structure Resembles (p q : CorsPolicy) : Prop where
  allowedOrigins : Option.Rel (SameKeys Text.lower) p.allowedOrigins q.allowedOrigins
  allowedOriginPatterns :
    Option.Rel (SameKeys OriginPattern.raw) p.allowedOriginPatterns q.allowedOriginPatterns
  allowedMethods : Option.Rel (SameKeys Text.lower) p.allowedMethods q.allowedMethods
  allowedHeaders : Option.Rel (SameKeys Text.lower) p.allowedHeaders q.allowedHeaders
  exposedHeaders : Option.Rel (SameKeys Text.lower) p.exposedHeaders q.exposedHeaders
  allowCredentials : p.allowCredentials = q.allowCredentials
  maxAge : p.maxAge = q.maxAge

/-- Both fail for the same reason, or both come to policies that resemble each other. -/
inductive Likewise : Except CorsFault CorsPolicy → Except CorsFault CorsPolicy → Prop where
  | failed (fault : CorsFault) : Likewise (.error fault) (.error fault)
  | done {p q : CorsPolicy} (h : Resembles p q) : Likewise (.ok p) (.ok q)

private theorem sameKeys_refl {α β : Type} {key : α → β} (l : Option (List α)) :
    Option.Rel (SameKeys key) l l := by
  cases l with
  | none => exact .none
  | some l => exact .some fun k => Iff.rfl

private theorem combineLists_comm (l m : Option (List String)) :
    Option.Rel (SameKeys Text.lower) (combineLists l m) (combineLists m l) := by
  cases l with
  | none => simpa using sameKeys_refl m
  | some x =>
    cases m with
    | none => simpa using sameKeys_refl (some x)
    | some y =>
      rw [combineLists_some, combineLists_some]
      refine .some fun k => ?_
      have hswap : wildcard ∈ x ++ y ↔ wildcard ∈ y ++ x := by simp [or_comm]
      by_cases hwild : wildcard ∈ x ++ y
      · rw [absorbed, if_pos hwild, absorbed, if_pos (hswap.mp hwild)]
      · have hlower (x y : String) (h : Text.sameFold x y) : Text.lower x = Text.lower y :=
          lower_of_sameFold h
        rw [absorbed, if_neg hwild, absorbed, if_neg fun h => hwild (hswap.mpr h), dedupFold_eq,
          dedupFold_eq, mem_map_keepNew hlower, mem_map_keepNew hlower]
        simp [or_comm]

private theorem combinePatterns_comm (l m : Option (List OriginPattern)) :
    Option.Rel (SameKeys OriginPattern.raw) (combinePatterns l m) (combinePatterns m l) := by
  cases l with
  | none => simpa using sameKeys_refl m
  | some x =>
    cases m with
    | none => simpa using sameKeys_refl (some x)
    | some y =>
      rw [combinePatterns_some, combinePatterns_some]
      refine .some fun k => ?_
      have hraw (x y : OriginPattern) (h : sameRaw x y) : x.raw = y.raw := eq_of_beq h
      rw [mem_map_keepNew hraw, mem_map_keepNew hraw, or_comm]

private theorem joined_resembles (hagree : ¬ Disagree (some a) (some b)) :
    Resembles (joined a b) (joined b a) where
  allowedOrigins := combineLists_comm a.allowedOrigins b.allowedOrigins
  allowedOriginPatterns := combinePatterns_comm a.allowedOriginPatterns b.allowedOriginPatterns
  allowedMethods := combineLists_comm a.allowedMethods b.allowedMethods
  allowedHeaders := combineLists_comm a.allowedHeaders b.allowedHeaders
  exposedHeaders := combineLists_comm a.exposedHeaders b.exposedHeaders
  allowCredentials := by
    apply Option.ext
    intro x
    rw [credentials_joined_iff hagree, credentials_joined_iff fun h => hagree (disagree_comm.mp h),
      or_comm]
  maxAge := combineAges_comm a.maxAge b.maxAge

private theorem combine_comm (a b : CorsPolicy) : Likewise (a.combine b) (b.combine a) := by
  have swap {fault : CorsFault} {a b : CorsPolicy} (h : a.combine b = .error fault) :
      b.combine a = .error fault := combine_error_iff.mpr (clash_comm.mp (combine_error_iff.mp h))
  cases hab : a.combine b with
  | error fault =>
    rw [swap hab]
    exact .failed fault
  | ok p =>
    cases hba : b.combine a with
    | error fault =>
      rw [swap hba] at hab
      cases hab
    | ok q =>
      obtain ⟨hagree, -, rfl⟩ := combine_ok_iff.mp hab
      obtain ⟨-, -, rfl⟩ := combine_ok_iff.mp hba
      exact .done (joined_resembles hagree)

private theorem combine_empty_left (p : CorsPolicy) :
    empty.combine p = p.checkCredentials.map fun _ => p := by
  have hagree : ¬ Disagree (some empty) (some p) := fun ⟨_, _, hnone, _⟩ => nomatch hnone
  have hjoined : joined empty p = p := by simp [joined, empty]
  rw [combine_of_agree hagree, hjoined]

private theorem combine_empty_right (p : CorsPolicy) :
    p.combine empty = p.checkCredentials.map fun _ => p := by
  have hagree : ¬ Disagree (some p) (some empty) := fun ⟨_, _, _, hnone, _⟩ => nomatch hnone
  have hjoined : joined p empty = p := by simp [joined, empty]
  rw [combine_of_agree hagree, hjoined]

private theorem combine_empty (p : CorsPolicy) :
    empty.combine p = .ok p ∧ p.combine empty = .ok p ↔ p.checkCredentials = .ok () := by
  rw [combine_empty_left, combine_empty_right, and_self]
  cases p.checkCredentials with
  | error fault => simp [Except.map]
  | ok => simp [Except.map]

/-- Groupings fail together and agree where they do not, orders as well up to that of the entries,
and nothing is added to a policy in order by the one that configures nothing. -/
theorem combine_laws (a b c : CorsPolicy) :
    (a.combine b >>= (·.combine c)).toOption = (b.combine c >>= a.combine).toOption ∧
      Likewise (a.combine b) (b.combine a) ∧
      (empty.combine a = .ok a ∧ a.combine empty = .ok a ↔ a.checkCredentials = .ok ()) :=
  ⟨combine_assoc a b c, combine_comm a b, combine_empty a⟩

end Switchyard.CorsPolicy
