import Switchyard.Proofs.Media.Compatibility
/-!
# Inclusion and compatibility

Types that meet are such that one contains the other, with one exception: of a range like `*+a+b`
inclusion takes all behind the star as the suffix, compatibility what is behind the last plus, and
no type has a suffix with a plus (`isCompatibleWith_iff_includes`).
-/

namespace Switchyard.MediaType

variable {a b : MediaType} {s : String}

/-- All that a range with a suffix has behind `*+`. -/
def wholeSuffix (m : MediaType) : String := String.ofList (m.subtype.toList.drop 2)

private theorem toList_subtype (h : a.isSuffixRange) :
    a.subtype.toList = '*' :: '+' :: a.wholeSuffix.toList := by
  obtain ⟨rest, hsubtype⟩ := Text.startsWith_iff.mp h
  rw [wholeSuffix, String.toList_ofList, ← hsubtype]
  rfl

private theorem suffix?_eq_some_iff : a.suffix? = some s ↔
    ∃ before, a.subtype.toList = before ++ '+' :: s.toList ∧ '+' ∉ s.toList := by
  rw [suffix?, Option.map_eq_some_iff]
  constructor
  · intro h
    obtain ⟨⟨before, after⟩, hcut, hs⟩ := h
    have hafter : after = s.toList := by simp [← hs]
    rw [hafter] at hcut
    exact ⟨before, Text.cutLast_eq_some_iff.mp hcut⟩
  · intro h
    obtain ⟨before, hsubtype⟩ := h
    exact ⟨(before, s.toList), Text.cutLast_eq_some_iff.mpr hsubtype, String.ofList_toList⟩

private theorem suffix?_of_range (h : a.isSuffixRange) :
    a.suffix? = some a.wholeSuffix ↔ '+' ∉ a.wholeSuffix.toList := by
  rw [suffix?_eq_some_iff]
  constructor
  · intro ⟨_, _, hplus⟩
    exact hplus
  · intro hplus
    exact ⟨['*'], toList_subtype h, hplus⟩

/-- A range names the suffix of a type when the two have one suffix and the range has it whole. -/
private theorem suffix?_eq_wholeSuffix_iff (h : a.isSuffixRange) :
    b.suffix? = some a.wholeSuffix ↔ a.suffix? = b.suffix? ∧ '+' ∉ a.wholeSuffix.toList := by
  constructor
  · intro hb
    obtain ⟨_, _, hplus⟩ := suffix?_eq_some_iff.mp hb
    exact ⟨((suffix?_of_range h).mpr hplus).trans hb.symm, hplus⟩
  · intro ⟨hsuffix, hplus⟩
    exact hsuffix.symm.trans ((suffix?_of_range h).mpr hplus)

private theorem includes_iff : a.includes b ↔ a.isWildcardType ∨ a.mainType = b.mainType ∧
    (a.subtype = b.subtype ∨ a.subtype = wildcard ∨
      a.isSuffixRange ∧ a.suffix? = b.suffix? ∧ '+' ∉ a.wholeSuffix.toList) := by
  have hrange := @isWildcardSubtype_iff a
  by_cases hsuffix : a.isSuffixRange
  · have hproper : a.subtype ≠ wildcard := by
      intro heq
      rw [isSuffixRange, heq] at hsuffix
      exact absurd hsuffix (by decide)
    have hcut : Text.cutFirst '+' a.subtype.toList = some (['*'], a.wholeSuffix.toList) := by
      rw [toList_subtype hsuffix]
      rfl
    have hnamed := @suffix?_eq_wholeSuffix_iff a b hsuffix
    rw [includes, hcut, ← hnamed]
    simp only [String.ofList_toList]
    grind
  · have hcut (heq : a.subtype = wildcard) : Text.cutFirst '+' a.subtype.toList = none := by
      rw [heq]
      rfl
    rw [includes]
    grind

/-- Two types that differ and have only the text behind their last plus in common, by which a range
among them meets the other one; each range among them has another plus in front. -/
structure MeetByLastPlus (a b : MediaType) : Prop where
  proper : ¬ a.isWildcardType ∧ ¬ b.isWildcardType
  mainType : a.mainType = b.mainType
  subtype : a.subtype ≠ b.subtype
  suffix : a.suffix? = b.suffix?
  range : a.isSuffixRange ∨ b.isSuffixRange
  compound : (a.isSuffixRange → '+' ∈ a.wholeSuffix.toList) ∧
    (b.isSuffixRange → '+' ∈ b.wholeSuffix.toList)

private theorem suffix?_of_wildcard (h : a.subtype = wildcard) : a.suffix? = none := by
  rw [suffix?, h]
  rfl

private theorem isCompatibleWith_of_includes (h : a.includes b) : a.isCompatibleWith b := by
  rw [includes_iff] at h
  rw [isCompatibleWith_iff]
  rcases h with hall | ⟨htype, hsame | hall | ⟨hrange, hsuffix, -⟩⟩
  · exact .inl hall
  · exact .inr (.inr ⟨htype, .inl hsame⟩)
  · exact .inr (.inr ⟨htype, .inr (.inl hall)⟩)
  · exact .inr (.inr ⟨htype, .inr (.inr (.inr ⟨.inl hrange, hsuffix⟩))⟩)

private theorem includes_of_isCompatibleWith (h : a.isCompatibleWith b) :
    a.includes b ∨ b.includes a ∨ MeetByLastPlus a b := by
  by_cases ha : a.isWildcardType
  · exact .inl (includes_iff.mpr (.inl ha))
  by_cases hb : b.isWildcardType
  · exact .inr (.inl (includes_iff.mpr (.inl hb)))
  obtain ⟨htype, hmeet⟩ : a.mainType = b.mainType ∧ a.SubtypesMeet b := by
    simpa [isCompatibleWith_iff, ha, hb] using h
  rcases hmeet with hsame | hall | hall | ⟨hrange, hsuffix⟩
  · exact .inl (includes_iff.mpr (.inr ⟨htype, .inl hsame⟩))
  · exact .inl (includes_iff.mpr (.inr ⟨htype, .inr (.inl hall)⟩))
  · exact .inr (.inl (includes_iff.mpr (.inr ⟨htype.symm, .inr (.inl hall)⟩)))
  · by_cases hsame : a.subtype = b.subtype
    · exact .inl (includes_iff.mpr (.inr ⟨htype, .inl hsame⟩))
    by_cases hwhole : a.isSuffixRange ∧ '+' ∉ a.wholeSuffix.toList
    · exact .inl (includes_iff.mpr
        (.inr ⟨htype, .inr (.inr ⟨hwhole.1, hsuffix, hwhole.2⟩)⟩))
    by_cases hwhole' : b.isSuffixRange ∧ '+' ∉ b.wholeSuffix.toList
    · exact .inr (.inl (includes_iff.mpr
        (.inr ⟨htype.symm, .inr (.inr ⟨hwhole'.1, hsuffix.symm, hwhole'.2⟩)⟩)))
    simp only [not_and, Decidable.not_not] at hwhole hwhole'
    exact .inr (.inr ⟨⟨ha, hb⟩, htype, hsame, hsuffix, hrange, hwhole, hwhole'⟩)

theorem MeetByLastPlus.isCompatibleWith (h : MeetByLastPlus a b) : a.isCompatibleWith b :=
  isCompatibleWith_iff.mpr (.inr (.inr ⟨h.mainType, .inr (.inr (.inr ⟨h.range, h.suffix⟩))⟩))

theorem MeetByLastPlus.symm (h : MeetByLastPlus a b) : MeetByLastPlus b a where
  proper := h.proper.symm
  mainType := h.mainType.symm
  subtype := h.subtype.symm
  suffix := h.suffix.symm
  range := h.range.symm
  compound := h.compound.symm

private theorem MeetByLastPlus.not_includes (h : MeetByLastPlus a b) : ¬ a.includes b := by
  -- one of the two is a range with a suffix, so that both have one
  have hsome : a.suffix?.isSome := by
    rcases h.range with hrange | hrange
    · exact isSome_suffix? hrange
    · rw [h.suffix]
      exact isSome_suffix? hrange
  rw [includes_iff]
  intro hincludes
  rcases hincludes with hall | ⟨-, hsame | hall | ⟨hrange, -, hplus⟩⟩
  · exact h.proper.1 hall
  · exact h.subtype hsame
  · rw [suffix?_of_wildcard hall] at hsome
    cases hsome
  · exact hplus (h.compound.1 hrange)

/-- Compatibility is symmetric, and it is inclusion one way or the other exactly when the two types
do not meet by their last plus alone. -/
theorem isCompatibleWith_iff_includes (a b : MediaType) :
    a.isCompatibleWith b = b.isCompatibleWith a ∧
      ((a.isCompatibleWith b ↔ a.includes b ∨ b.includes a) ↔ ¬ MeetByLastPlus a b) := by
  refine ⟨Bool.eq_iff_iff.mpr ⟨isCompatibleWith_symm, isCompatibleWith_symm⟩, ?_⟩
  constructor
  · intro hiff hmeet
    rcases hiff.mp hmeet.isCompatibleWith with hincludes | hincludes
    · exact hmeet.not_includes hincludes
    · exact hmeet.symm.not_includes hincludes
  · intro hmeet
    constructor
    · intro hcompatible
      have hcases := includes_of_isCompatibleWith hcompatible
      simpa only [hmeet, or_false] using hcases
    · intro hincludes
      rcases hincludes with hincludes | hincludes
      · exact isCompatibleWith_of_includes hincludes
      · exact isCompatibleWith_symm (isCompatibleWith_of_includes hincludes)

/-- A range with two plusses contains nothing but itself, and meets all that end as it does. -/
theorem compound_suffix_left_out :
    parse "application/*+a+b" = .ok ⟨"application", "*+a+b", []⟩ ∧
      parse "application/x+a+b" = .ok ⟨"application", "x+a+b", []⟩ ∧
      isCompatibleWith ⟨"application", "*+a+b", []⟩ ⟨"application", "x+a+b", []⟩ ∧
      ¬ includes ⟨"application", "*+a+b", []⟩ ⟨"application", "x+a+b", []⟩ ∧
      ¬ includes ⟨"application", "x+a+b", []⟩ ⟨"application", "*+a+b", []⟩ := by
  refine ⟨?_, ?_, ?_, ?_, ?_⟩
  · rfl
  · rfl
  all_goals decide

end Switchyard.MediaType
