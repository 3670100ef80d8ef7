import Switchyard.Proofs.Media.Preference
/-!
# Compatibility of ranges

Which media types meet, on type and subtype alone, and what the order by specificity says of types
that do. Compatibility is not transitive; it is behind a range, unless that has a suffix and the type
in the middle is a range of all subtypes (`isCompatibleWith_of_range`).
-/

namespace Switchyard.MediaType

/-- A range of the subtypes with a suffix, as in `*+xml`. -/
def isSuffixRange (m : MediaType) : Bool := Text.startsWith ['*', '+'] m.subtype.toList

/-- Equal subtypes meet, `*` meets any other, and a range of subtypes with a suffix meets those with
that suffix. -/
def SubtypesMeet (a b : MediaType) : Prop :=
  a.subtype = b.subtype ∨ a.subtype = wildcard ∨ b.subtype = wildcard ∨
    (a.isSuffixRange ∨ b.isSuffixRange) ∧ a.suffix? = b.suffix?

variable {a b c : MediaType}

theorem isWildcardSubtype_iff :
    a.isWildcardSubtype ↔ a.subtype = wildcard ∨ a.isSuffixRange := by
  simp [isWildcardSubtype, isSuffixRange]

theorem isSome_suffix? (h : a.isSuffixRange) : a.suffix?.isSome := by
  obtain ⟨rest, hsubtype⟩ := Text.startsWith_iff.mp h
  have hplus : '+' ∈ a.subtype.toList.reverse := by simp [← hsubtype]
  rw [suffix?, Text.cutLast, Option.isSome_map, Option.isSome_map, Text.isSome_cutFirst]
  exact hplus

theorem isCompatibleWith_iff : a.isCompatibleWith b ↔
    a.isWildcardType ∨ b.isWildcardType ∨ a.mainType = b.mainType ∧ a.SubtypesMeet b := by
  have hsuffix := @isSome_suffix? a
  have hsuffix' := @isSome_suffix? b
  have hrange := @isWildcardSubtype_iff a
  have hrange' := @isWildcardSubtype_iff b
  rw [isCompatibleWith, SubtypesMeet]
  grind

private theorem isCompatibleWith_of_wildcardType (h : a.isWildcardType) (b : MediaType) :
    a.isCompatibleWith b :=
  isCompatibleWith_iff.mpr (.inl h)

theorem SubtypesMeet.symm (h : a.SubtypesMeet b) : b.SubtypesMeet a := by
  rcases h with heq | hall | hall | ⟨hrange, hsuffix⟩
  · exact .inl heq.symm
  · exact .inr (.inr (.inl hall))
  · exact .inr (.inl hall)
  · exact .inr (.inr (.inr ⟨hrange.symm, hsuffix.symm⟩))

theorem isCompatibleWith_symm (h : a.isCompatibleWith b) : b.isCompatibleWith a := by
  rw [isCompatibleWith_iff] at h ⊢
  rcases h with ha | hb | ⟨htype, hmeet⟩
  · exact .inr (.inl ha)
  · exact .inl hb
  · exact .inr (.inr ⟨htype.symm, hmeet.symm⟩)

theorem isCompatibleWith_of_essence (htype : a.mainType = b.mainType)
    (hsubtype : a.subtype = b.subtype) (c : MediaType) :
    a.isCompatibleWith c ↔ b.isCompatibleWith c := by
  obtain ⟨mainType, subtype, _⟩ := a
  cases htype
  cases hsubtype
  rfl

private theorem SubtypesMeet.of_suffixRange (hrange : a.isSuffixRange)
    (hproper : b.subtype ≠ wildcard)
    (hab : a.SubtypesMeet b) (hbc : b.SubtypesMeet c) : a.SubtypesMeet c := by
  have hsuffix : a.suffix? = b.suffix? := by
    rcases hab with heq | hall | hall | ⟨-, hsuffix⟩
    · rw [suffix?, suffix?, heq]
    · rw [isSuffixRange, hall] at hrange
      exact absurd hrange (by decide)
    · exact absurd hall hproper
    · exact hsuffix
  rcases hbc with heq | hall | hall | ⟨-, hsuffix'⟩
  · exact .inr (.inr (.inr ⟨.inl hrange, by rw [hsuffix, suffix?, suffix?, heq]⟩))
  · exact absurd hall hproper
  · exact .inr (.inr (.inl hall))
  · exact .inr (.inr (.inr ⟨.inl hrange, hsuffix.trans hsuffix'⟩))

theorem isCompatibleWith_of_range (hrange : a.isWildcardSubtype)
    (hproper : a.isSuffixRange → b.subtype ≠ wildcard) (hb : ¬ b.isWildcardType)
    (hab : a.isCompatibleWith b) (hbc : b.isCompatibleWith c) : a.isCompatibleWith c := by
  rw [isCompatibleWith_iff] at hab hbc ⊢
  rcases hab with ha | hb' | ⟨htype, hab⟩
  · exact .inl ha
  · exact absurd hb' hb
  rcases hbc with hb' | hc | ⟨htype', hbc⟩
  · exact absurd hb' hb
  · exact .inr (.inl hc)
  refine .inr (.inr ⟨htype.trans htype', ?_⟩)
  rcases isWildcardSubtype_iff.mp hrange with hall | hsuffix
  · exact .inr (.inl hall)
  · exact .of_suffixRange hsuffix (hproper hsuffix) hab hbc

private theorem of_specificityCmp_lt (h : a.specificityCmp b = .lt) : b.isWildcardType ∨
    a.mainType = b.mainType ∧
      (b.isWildcardSubtype ∧ ¬ a.isWildcardSubtype ∨ a.subtype = b.subtype) := by
  rw [specificityCmp_lt_iff] at h
  grind

private theorem of_specificityCmp_ne_lt (h : a.specificityCmp b ≠ .lt) : a.isWildcardType ∨
    ¬ b.isWildcardType ∧
      (a.mainType = b.mainType → b.isWildcardSubtype → a.isWildcardSubtype) := by
  rw [ne_eq, specificityCmp_lt_iff] at h
  grind

theorem isCompatibleWith_of_lt (hlt : a.specificityCmp b = .lt) (hab : a.isCompatibleWith b)
    (hac : a.isCompatibleWith c) : b.isCompatibleWith c := by
  by_cases hall : b.isWildcardType
  · exact isCompatibleWith_of_wildcardType hall c
  rcases of_specificityCmp_lt hlt with hall' | ⟨htype, ⟨hrange, hconcrete⟩ | hsame⟩
  · exact absurd hall' hall
  · refine isCompatibleWith_of_range hrange ?_ ?_ (isCompatibleWith_symm hab) hac
    · intro _ heq
      exact hconcrete (isWildcardSubtype_iff.mpr (.inl heq))
    · rwa [isWildcardType, htype]
  · exact (isCompatibleWith_of_essence htype hsame c).mp hac

/-- The first type is a range of subtypes with a suffix, the second one of all subtypes: neither
counts as the more specific one. -/
def LosesSuffix (a b : MediaType) : Prop :=
  a.isSuffixRange ∧ b.subtype = wildcard ∧ ¬ a.isWildcardType ∧ ¬ b.isWildcardType

/-- What meets a type meets another that is not more specific, unless a suffix is lost. -/
theorem isCompatibleWith_of_ne_lt (hlt : a.specificityCmp b ≠ .lt) (hab : a.isCompatibleWith b)
    (hbc : b.isCompatibleWith c) : a.isCompatibleWith c ∨ LosesSuffix a b := by
  by_cases ha : a.isWildcardType
  · exact .inl (isCompatibleWith_of_wildcardType ha c)
  obtain ⟨hb, hwider⟩ := (of_specificityCmp_ne_lt hlt).resolve_left ha
  obtain ⟨htype, hmeet⟩ : a.mainType = b.mainType ∧ a.SubtypesMeet b := by
    simpa [isCompatibleWith_iff, ha, hb] using hab
  by_cases hrange : a.isWildcardSubtype
  · by_cases hloses : a.isSuffixRange ∧ b.subtype = wildcard
    · exact .inr ⟨hloses.1, hloses.2, ha, hb⟩
    · have hproper : a.isSuffixRange → b.subtype ≠ wildcard := fun h h' => hloses ⟨h, h'⟩
      exact .inl (isCompatibleWith_of_range hrange hproper hb hab hbc)
  · -- neither is a range of subtypes, so that they have the same one
    have hconcrete : ¬ b.isWildcardSubtype := fun h => hrange (hwider htype h)
    rw [isWildcardSubtype_iff] at hrange hconcrete
    have hsame : b.subtype = a.subtype := by
      rcases hmeet with heq | hall | hall | ⟨hsuffix | hsuffix, -⟩
      · exact heq.symm
      · exact absurd (.inl hall) hrange
      · exact absurd (.inl hall) hconcrete
      · exact absurd (.inr hsuffix) hrange
      · exact absurd (.inr hsuffix) hconcrete
    exact .inl ((isCompatibleWith_of_essence htype.symm hsame c).mp hbc)

end Switchyard.MediaType
