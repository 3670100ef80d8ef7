import Switchyard.Proofs.Media.Sorting
/-!
# Less specific types in front

Sorting does not always bring the more specific of two types to the front. An entry moves only past
neighbours that it precedes, and one of another type or subtype and of no lower quality stops it
(`sort_specific_first`): `text/*, application/json, text/html` is sorted as it is
(`range_stays_in_front`).
-/

namespace Switchyard.MediaType

variable {x y z : MediaType} {ms front between back : List MediaType}

/-- That `z` keeps `x` from getting in front of `y`, than which it is more specific: `z` is not, it
has another type or subtype than `x`, neither of these two is the more specific one, and `z` has no
lower quality. -/
structure Blocks (z x y : MediaType) : Prop where
  specific : x.specificityCmp y = .lt
  unspecific : z.specificityCmp y ≠ .lt
  unrelated : x.specificityCmp z = .eq
  essence : ¬ x.sameEssence z
  quality : x.qualityCmp z ≠ .lt

private theorem specificityCmp_lt_congr (hessence : x.sameEssence z)
    (heq : x.specificityCmp z = .eq)
    (hlt : x.specificityCmp y = .lt) : z.specificityCmp y = .lt := by
  rw [sameEssence_iff] at hessence
  obtain ⟨htype, hsubtype⟩ := hessence
  have hequal : z.quality.rank = x.quality.rank ∧ z.parameterCount = x.parameterCount := by
    rw [specificityCmp_eq_iff, ne_eq, ne_eq, specificityCmp_lt_iff, specificityCmp_lt_iff] at heq
    unfold Outranks at heq
    grind
  have hwild := isWildcardType_congr htype
  have hrange := isWildcardSubtype_congr hsubtype
  rw [specificityCmp_lt_iff, Outranks] at hlt ⊢
  rwa [← hwild, ← hrange, ← htype, ← hsubtype, hequal.1, hequal.2]

private theorem blocks_of_not_precedes (hlt : x.specificityCmp y = .lt)
    (hz : z.specificityCmp y ≠ .lt) (hstays : ¬ x.precedes z) : Blocks z x y := by
  rw [precedes_iff, not_or] at hstays
  have hunrelated : x.specificityCmp z = .eq := by
    rw [specificityCmp_eq_iff]
    exact ⟨hstays.1, fun hback => hz (specificityCmp_trans hback hlt)⟩
  exact
    { specific := hlt
      unspecific := hz
      unrelated := hunrelated
      essence := fun hessence => hz (specificityCmp_lt_congr hessence hunrelated hlt)
      quality := fun hquality => hstays.2 ⟨hunrelated, hquality⟩ }

/-- Between an entry without and one with a property there are neighbours of that kind. -/
private theorem exists_neighbours {α : Type} {p : α → Prop} {x y : α} {between : List α}
    (hx : ¬ p x) (hy : p y) : ∃ before u v after, x :: between ++ [y] = before ++ u :: v :: after ∧
      u ∈ x :: between ∧ v ∈ between ++ [y] ∧ ¬ p u ∧ p v := by
  induction between generalizing x with
  | nil => exact ⟨[], x, y, [], rfl, by simp, by simp, hx, hy⟩
  | cons w between ih =>
    by_cases hw : p w
    · exact ⟨[], x, w, between ++ [y], rfl, by simp, by simp, hx, hw⟩
    · obtain ⟨before, u, v, after, hsplit, hu, hv, hpu, hpv⟩ := ih hw
      refine ⟨x :: before, u, v, after, ?_, List.mem_cons_of_mem x hu, ?_, hpu, hpv⟩
      · rw [List.cons_append, hsplit]
        rfl
      · exact List.mem_cons_of_mem w hv

/-- Neighbours on the way from one entry of a sorted list to another, of which the second does not
precede the first. -/
theorem exists_neighbours_of_sort (h : sort ms = front ++ y :: (between ++ x :: back))
    {p : MediaType → Prop} (hy : ¬ p y) (hx : p x) :
    ∃ u v, u ∈ y :: between ∧ v ∈ between ++ [x] ∧ ¬ p u ∧ p v ∧ ¬ v.precedes u := by
  obtain ⟨before, u, v, after, hsplit, hu, hv, hpu, hpv⟩ := exists_neighbours hy hx
  refine ⟨u, v, hu, hv, hpu, hpv, ?_⟩
  have hsorted : sort ms = (front ++ before) ++ u :: v :: (after ++ back) := by
    calc sort ms = front ++ ((y :: between ++ [x]) ++ back) := by simp [h]
      _ = (front ++ before) ++ u :: v :: (after ++ back) := by simp [hsplit]
  exact not_precedes_of_sort hsorted

private theorem exists_blocks (h : sort ms = front ++ y :: (between ++ x :: back))
    (hlt : x.specificityCmp y = .lt) :
    ∃ z x', z ∈ between ∧ x' ∈ between ++ [x] ∧ Blocks z x' y := by
  have hself : y.specificityCmp y ≠ .lt := by
    intro hself
    exact precedes_asymm (precedes_iff.mpr (.inl hself)) (precedes_iff.mpr (.inl hself))
  obtain ⟨z, x', hz, hx', hzy, hx'y, hstays⟩ :=
    exists_neighbours_of_sort (p := fun m => m.specificityCmp y = .lt) h hself hlt
  have hblocks := blocks_of_not_precedes hx'y hzy hstays
  refine ⟨z, x', (List.mem_cons.mp hz).resolve_left ?_, hx', hblocks⟩
  rintro rfl
  exact hstays (precedes_iff.mpr (.inl hx'y))

private theorem exists_places (h : sort ms = front ++ y :: (between ++ x :: back))
    (hlt : x.specificityCmp y = .lt) : ∃ i j : Nat, i < j ∧ ms[i]? = some y ∧ ms[j]? = some x := by
  obtain ⟨numbered, hperm, hmap, hlead⟩ := exists_numbered ms
  rw [h] at hmap
  obtain ⟨front', rest, rfl, -, hrest⟩ := List.map_eq_append_iff.mp hmap
  obtain ⟨d, rest', rfl, rfl, hrest'⟩ := List.map_eq_cons_iff.mp hrest
  obtain ⟨between', rest'', rfl, -, hrest''⟩ := List.map_eq_append_iff.mp hrest'
  obtain ⟨e, back', rfl, rfl, -⟩ := List.map_eq_cons_iff.mp hrest''
  have hplace {c : MediaType × Nat} (hc : c ∈ front' ++ d :: (between' ++ e :: back')) :
      ms[c.2]? = some c.1 := List.mem_zipIdx_iff_getElem?.mp (hperm.mem_iff.mp hc)
  have hde : d.2 < e.2 ∨ d.1.precedes e.1 := by
    rw [List.pairwise_append, List.pairwise_cons] at hlead
    exact hlead.2.1.1 e (by simp)
  have hbefore : d.2 < e.2 :=
    hde.resolve_right (precedes_asymm (precedes_iff.mpr (.inl hlt)))
  exact ⟨d.2, e.2, hbefore, hplace (by simp), hplace (by simp)⟩

private theorem exists_other_type (h : sort ms = front ++ y :: (between ++ x :: back))
    (htype : x.mainType = y.mainType) (hrange : y.isWildcardSubtype)
    (hconcrete : ¬ x.isWildcardSubtype) : ∃ z ∈ between, z.mainType ≠ y.mainType := by
  have hy : ¬ (y.mainType = y.mainType ∧ ¬ y.isWildcardSubtype) := fun hy => hy.2 hrange
  obtain ⟨z, x', hz, -, hzy, ⟨htype', hconcrete'⟩, hstays⟩ :=
    exists_neighbours_of_sort (p := fun m => m.mainType = y.mainType ∧ ¬ m.isWildcardSubtype) h hy
      ⟨htype, hconcrete⟩
  have hother : z.mainType ≠ y.mainType := by
    intro heq
    have hwider : z.isWildcardSubtype := Decidable.not_not.mp fun hz' => hzy ⟨heq, hz'⟩
    have hlt : x'.specificityCmp z = .lt :=
      specificityCmp_lt_iff.mpr (.inr ⟨htype'.trans heq.symm, .inl ⟨hconcrete', hwider⟩⟩)
    exact hstays (precedes_iff.mpr (.inl hlt))
  refine ⟨z, (List.mem_cons.mp hz).resolve_left ?_, hother⟩
  rintro rfl
  exact hother rfl

private theorem pairwise_of_splits {α : Type} {r : α → α → Prop} {l : List α}
    (h : ∀ front y between x back, l = front ++ y :: (between ++ x :: back) → r y x) :
    l.Pairwise r := by
  rw [List.pairwise_iff_forall_sublist]
  intro y x hsub
  obtain ⟨left, right, rfl, hy, hx⟩ := List.cons_sublist_iff.mp hsub
  obtain ⟨front, between, rfl⟩ := List.append_of_mem hy
  obtain ⟨between', back, rfl⟩ := List.append_of_mem (List.singleton_sublist.mp hx)
  exact h front y (between ++ between') x back (by simp)

/-- A type behind a less specific one in a sorted list was so before, and neighbours on the way
between the two block it; a range in front of a type of its main type has another main type on that
way. Where only types of one essence can be equally specific, the more specific is in front. -/
theorem sort_specific_first (ms : List MediaType) :
    (∀ front y between x back, sort ms = front ++ y :: (between ++ x :: back) →
      x.specificityCmp y = .lt →
      (∃ i j : Nat, i < j ∧ ms[i]? = some y ∧ ms[j]? = some x) ∧
      ∃ z x', z ∈ between ∧ x' ∈ between ++ [x] ∧ Blocks z x' y) ∧
    (∀ front y between x back, sort ms = front ++ y :: (between ++ x :: back) →
      x.mainType = y.mainType → y.isWildcardSubtype → ¬ x.isWildcardSubtype →
      ∃ z ∈ between, z.mainType ≠ y.mainType) ∧
    ((∀ a ∈ ms, ∀ b ∈ ms, a.specificityCmp b = .eq → a.sameEssence b) →
      (sort ms).Pairwise fun y x => x.specificityCmp y ≠ .lt) := by
  refine ⟨?_, fun _ _ _ _ _ => exists_other_type, ?_⟩
  · intro front y between x back h hlt
    exact ⟨exists_places h hlt, exists_blocks h hlt⟩
  · intro hcomparable
    apply pairwise_of_splits
    intro front y between x back h hlt
    obtain ⟨z, x', hz, hx', hblocks⟩ := exists_blocks h hlt
    have hmem {m : MediaType} (hm : m ∈ between ++ [x]) : m ∈ ms := by
      rw [← (sort_perm ms).mem_iff, h]
      rcases List.mem_append.mp hm with hm | hm
      · simp [hm]
      · simp [List.mem_singleton.mp hm]
    exact hblocks.essence (hcomparable x' (hmem hx') z (hmem (List.mem_append_left _ hz))
      hblocks.unrelated)

def textRange : MediaType := ⟨"text", "*", []⟩

/-- The range of all texts, something else, and a text. -/
def blockedTypes : List MediaType := [textRange, applicationJson, textHtml]

/-- Ranges in each other, the narrower the later and the less welcome. -/
def nestedTypes : List MediaType := [all, textRange, ⟨"text", "html", [("q", "0.5")]⟩]

theorem sort_specific_first_texts :
    sort blockedTypes = [] ++ textRange :: ([applicationJson] ++ textHtml :: []) ∧
      textHtml.specificityCmp textRange = .lt ∧
      (∃ z x', z ∈ [applicationJson] ∧ x' ∈ [applicationJson] ++ [textHtml] ∧
        Blocks z x' textRange) ∧
      (∃ z ∈ [applicationJson], z.mainType ≠ textRange.mainType) ∧
      (∀ a ∈ nestedTypes, ∀ b ∈ nestedTypes, a.specificityCmp b = .eq → a.sameEssence b) ∧
      (sort nestedTypes).Pairwise fun y x => x.specificityCmp y ≠ .lt := by
  have hsort : sort blockedTypes = [] ++ textRange :: ([applicationJson] ++ textHtml :: []) := by
    rfl
  have hlt : textHtml.specificityCmp textRange = .lt := by decide
  have hcomparable : ∀ a ∈ nestedTypes, ∀ b ∈ nestedTypes,
      a.specificityCmp b = .eq → a.sameEssence b := by
    decide
  obtain ⟨hblocked, hrange, -⟩ := sort_specific_first blockedTypes
  obtain ⟨-, -, hnested⟩ := sort_specific_first nestedTypes
  exact ⟨hsort, hlt, (hblocked _ _ _ _ _ hsort hlt).2,
    hrange _ _ _ _ _ hsort rfl (by decide) (by decide), hcomparable, hnested hcomparable⟩

/-- What is read of `text/*, application/json, text/html` stays so, the range in front of the type
that is in it. -/
theorem range_stays_in_front :
    parseList "text/*, application/json, text/html" = .ok blockedTypes ∧
      sort blockedTypes = [textRange, applicationJson, textHtml] ∧
      textHtml.specificityCmp textRange = .lt := by
  refine ⟨?_, ?_, ?_⟩
  · rfl
  · rfl
  · decide

end Switchyard.MediaType
