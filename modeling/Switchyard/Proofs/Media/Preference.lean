import Switchyard.Media.MediaType
/-!
# The order of preference

Specificity, where it is strict, is transitive (`specificityCmp_trans`); two types that it does not
tell apart may still differ from a third. With quality put behind it the order is asymmetric
(`precedes_asymm`) and may run in a circle: `text/html;q=0.1` precedes `text/*;q=0.5`, that precedes
`image/png;q=0.2`, and that `text/html;q=0.1`.
-/

namespace Switchyard.MediaType

variable {a b c : MediaType}

theorem isWildcardType_congr (h : a.mainType = b.mainType) :
    a.isWildcardType = b.isWildcardType := by
  rw [isWildcardType, isWildcardType, h]

theorem isWildcardSubtype_congr (h : a.subtype = b.subtype) :
    a.isWildcardSubtype = b.isWildcardSubtype := by
  rw [isWildcardSubtype, isWildcardSubtype, h]

theorem sameEssence_iff : a.sameEssence b ↔ a.mainType = b.mainType ∧ a.subtype = b.subtype := by
  rw [sameEssence, Bool.and_eq_true, beq_iff_eq, beq_iff_eq]

theorem sameEssence_symm (h : a.sameEssence b) : b.sameEssence a := by
  rw [sameEssence_iff] at h ⊢
  exact ⟨h.1.symm, h.2.symm⟩

private theorem qualityCmp_swap (a b : MediaType) : (a.qualityCmp b).swap = b.qualityCmp a :=
  Int.compare_swap _ _

private theorem specificityCmp_swap (a b : MediaType) :
    (a.specificityCmp b).swap = b.specificityCmp a := by
  have hlast : ((a.qualityCmp b).then (compare b.parameterCount a.parameterCount)).swap =
      (b.qualityCmp a).then (compare a.parameterCount b.parameterCount) := by
    rw [Ordering.swap_then, qualityCmp_swap, Nat.compare_swap]
  rw [specificityCmp, specificityCmp]
  by_cases htype : a.mainType = b.mainType
  · by_cases hsubtype : a.subtype = b.subtype
    · rw [isWildcardType_congr htype, isWildcardSubtype_congr hsubtype, htype, hsubtype]
      cases b.isWildcardType <;> cases b.isWildcardSubtype <;> simp [hlast]
    · cases a.isWildcardType <;> cases b.isWildcardType <;> cases a.isWildcardSubtype <;>
        cases b.isWildcardSubtype <;> simp [htype, hsubtype, Ne.symm hsubtype]
  · cases a.isWildcardType <;> cases b.isWildcardType <;> simp [htype, Ne.symm htype]

theorem specificityCmp_eq_iff : a.specificityCmp b = .eq ↔
    a.specificityCmp b ≠ .lt ∧ b.specificityCmp a ≠ .lt := by
  rw [← specificityCmp_swap a b]
  cases a.specificityCmp b <;> decide

/-- Between equal types and subtypes, that the first has the better quality or, with the same
quality, more parameters. -/
def Outranks (a b : MediaType) : Prop :=
  b.quality.rank < a.quality.rank ∨
    b.quality.rank = a.quality.rank ∧ b.parameterCount < a.parameterCount

private theorem outranks_iff : Outranks a b ↔
    (a.qualityCmp b).then (compare b.parameterCount a.parameterCount) = .lt := by
  rw [Ordering.then_eq_lt, qualityCmp, Quality.totalCmp, Int.compare_eq_lt, Int.compare_eq_eq,
    Nat.compare_eq_lt]
  rfl

theorem specificityCmp_lt_iff : a.specificityCmp b = .lt ↔
    ¬ a.isWildcardType ∧ b.isWildcardType ∨ a.mainType = b.mainType ∧
      (¬ a.isWildcardSubtype ∧ b.isWildcardSubtype ∨ a.subtype = b.subtype ∧ Outranks a b) := by
  have hwild := @isWildcardType_congr a b
  have hrange := @isWildcardSubtype_congr a b
  rw [outranks_iff, specificityCmp]
  grind

/-- Of three types, each more specific than the next, the first is more specific than the last. -/
theorem specificityCmp_trans (hab : a.specificityCmp b = .lt) (hbc : b.specificityCmp c = .lt) :
    a.specificityCmp c = .lt := by
  rw [specificityCmp_lt_iff] at hab hbc ⊢
  rcases hab with ⟨ha, hb⟩ | ⟨htype, hab⟩
  · -- what the range of everything is more specific than has its type
    rcases hbc with ⟨hb', -⟩ | ⟨htype', -⟩
    · exact absurd hb hb'
    · exact .inl ⟨ha, (isWildcardType_congr htype') ▸ hb⟩
  rcases hbc with ⟨hb, hc⟩ | ⟨htype', hbc⟩
  · exact .inl ⟨(isWildcardType_congr htype) ▸ hb, hc⟩
  refine .inr ⟨htype.trans htype', ?_⟩
  have hrange := @isWildcardSubtype_congr a b
  have hrange' := @isWildcardSubtype_congr b c
  unfold Outranks at hab hbc ⊢
  grind

theorem precedes_iff : a.precedes b ↔
    a.specificityCmp b = .lt ∨ a.specificityCmp b = .eq ∧ a.qualityCmp b = .lt := by
  rw [precedes, beq_iff_eq, Ordering.then_eq_lt]

theorem precedes_asymm (h : a.precedes b) : ¬ b.precedes a := by
  have hspecificity := specificityCmp_swap a b
  have hquality := qualityCmp_swap a b
  rw [precedes_iff] at h ⊢
  rcases h with hlt | ⟨heq, hlt⟩
  · rw [hlt] at hspecificity
    simp [← hspecificity]
  · rw [heq] at hspecificity
    rw [hlt] at hquality
    simp [← hspecificity, ← hquality]

end Switchyard.MediaType
