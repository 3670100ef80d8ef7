import Mathlib.Data.List.Chain
import Mathlib.Data.List.Induction
import Mathlib.Data.List.TakeWhile
import Switchyard.Proofs.Media.Preference
/-!
# Sorting by preference

The order of preference is not transitive, so that a sorted list need not be in order: no entry
precedes its left neighbour, and an entry has got in front of another one only by preceding it
(`sort_stable`). Where no subtype is a range and no two entries have the same type and subtype the
order is one, and the sort is the stable one by quality, with the type `*` behind all others
(`sort_eq_mergeSort`).
-/

namespace Switchyard.MediaType

variable {a b c : MediaType} {ms : List MediaType}

private theorem insertLast_eq (m : MediaType) (row : List MediaType) :
    insertLast m row = row.takeWhile m.precedes ++ m :: row.dropWhile m.precedes := by
  induction row with
  | nil => rfl
  | cons last before ih =>
    rw [insertLast]
    split
    · next h => simp [h, ih]
    · next h => simp [h]

/-- The last entry moves in front of others that it precedes, up to one that it does not precede. -/
private theorem exists_sort_concat (ms : List MediaType) (m : MediaType) : ∃ front passed,
    sort ms = front ++ passed ∧ sort (ms ++ [m]) = front ++ m :: passed ∧
      (∀ p ∈ passed, m.precedes p) ∧ ∀ p ∈ front.getLast?, ¬ m.precedes p := by
  have hconcat : sort (ms ++ [m]) = (insertLast m (sort ms).reverse).reverse := by simp [sort]
  rw [insertLast_eq] at hconcat
  generalize hrow : (sort ms).reverse = row at hconcat
  have hsort : sort ms = row.reverse := by simp [← hrow]
  refine ⟨(row.dropWhile m.precedes).reverse, (row.takeWhile m.precedes).reverse, ?_, ?_, ?_, ?_⟩
  · rw [← List.reverse_append, List.takeWhile_append_dropWhile, hsort]
  · simp [hconcat]
  · intro p hp
    exact List.mem_takeWhile_imp (List.mem_reverse.mp hp)
  · intro p hp
    rw [List.getLast?_reverse] at hp
    have hhead := List.head?_dropWhile_not m.precedes row
    rw [hp] at hhead
    simpa using hhead

private theorem sort_isChain (ms : List MediaType) :
    (sort ms).IsChain fun x y => ¬ y.precedes x := by
  induction ms using List.reverseRecOn with
  | nil => exact .nil
  | append_singleton ms m ih =>
    obtain ⟨front, passed, hsort, hconcat, hpassed, hfront⟩ := exists_sort_concat ms m
    rw [hsort, List.isChain_append] at ih
    have hbehind : ∀ p ∈ passed.head?, ¬ p.precedes m := by
      intro p hp
      exact precedes_asymm (hpassed p (List.mem_of_mem_head? hp))
    rw [hconcat]
    refine ih.1.append (ih.2.1.cons hbehind) ?_
    intro x hx y hy
    cases hy
    exact hfront x hx

theorem not_precedes_of_sort {front back : List MediaType} (h : sort ms = front ++ a :: b :: back) :
    ¬ b.precedes a :=
  List.isChain_iff_forall_rel_of_append_cons_cons.mp (sort_isChain ms) h

/-- A sorted list, each entry with the place that it had. What is in front of another entry was so
before or precedes it. -/
theorem exists_numbered (ms : List MediaType) : ∃ numbered : List (MediaType × Nat),
    numbered.Perm ms.zipIdx ∧ numbered.map (·.1) = sort ms ∧
      numbered.Pairwise fun d e => d.2 < e.2 ∨ d.1.precedes e.1 := by
  induction ms using List.reverseRecOn with
  | nil => exact ⟨[], .rfl, rfl, .nil⟩
  | append_singleton ms m ih =>
    obtain ⟨numbered, hperm, hmap, hlead⟩ := ih
    obtain ⟨front, passed, hsort, hconcat, hpassed, -⟩ := exists_sort_concat ms m
    rw [hsort] at hmap
    obtain ⟨front', passed', rfl, rfl, rfl⟩ := List.map_eq_append_iff.mp hmap
    have hbefore : ∀ d ∈ front', d.2 < ms.length := by
      intro d hd
      have hmem := hperm.mem_iff.mp (List.mem_append_left _ hd)
      simpa using List.snd_lt_add_of_mem_zipIdx hmem
    rw [List.pairwise_append] at hlead
    refine ⟨front' ++ (m, ms.length) :: passed', ?_, by simp [hconcat], ?_⟩
    · have hlast : (ms ++ [m]).zipIdx = ms.zipIdx ++ [(m, ms.length)] := by simp [List.zipIdx_append]
      rw [hlast]
      exact List.perm_middle.trans ((hperm.cons _).trans (List.perm_append_singleton _ _).symm)
    · rw [List.pairwise_append, List.pairwise_cons]
      refine ⟨hlead.1, ⟨?_, hlead.2.1⟩, ?_⟩
      · intro e he
        exact .inr (hpassed e.1 (List.mem_map_of_mem he))
      · intro d hd e he
        rcases List.mem_cons.mp he with rfl | he
        · exact .inl (hbefore d hd)
        · exact hlead.2.2 d hd e he

section Places

variable {α : Type} {l : List α} {numbered other : List (α × Nat)}

private theorem eq_of_places {d e : α × Nat} (hd : d ∈ l.zipIdx) (he : e ∈ l.zipIdx)
    (h : d.2 = e.2) : d = e := by
  rw [List.mem_zipIdx_iff_getElem?] at hd he
  rw [← h, hd] at he
  exact Prod.ext (Option.some.inj he) h

private theorem eq_of_perm_of_places (hplaces : ∀ d ∈ numbered, d ∈ l.zipIdx)
    (hperm : other.Perm numbered)
    {r : α × Nat → α × Nat → Prop} (hr : ∀ d e, r d e → r e d → d.2 = e.2)
    (hnumbered : numbered.Pairwise r) (hother : other.Pairwise r) : numbered = other := by
  apply List.Perm.eq_of_pairwise _ hnumbered hother hperm.symm
  intro d e hd he hde hed
  exact eq_of_places (hplaces d hd) (hplaces e (hperm.mem_iff.mp he)) (hr d e hde hed)

private theorem pairwise_zipIdx (l : List α) : l.zipIdx.Pairwise fun d e => d.2 < e.2 := by
  have hplaces : (l.zipIdx.map (·.2)).Pairwise (· < ·) := by
    rw [List.zipIdx_map_snd]
    exact List.pairwise_lt_range'
  exact List.pairwise_map.mp hplaces

/-- What is in order, with equal entries in the order of their places, is the stable sort. -/
private theorem map_fst_eq_mergeSort {le : α → α → Bool}
    (htrans : ∀ a b c, le a b → le b c → le a c)
    (htotal : ∀ a b, le a b || le b a) (hperm : numbered.Perm l.zipIdx)
    (hle : numbered.Pairwise fun d e => le d.1 e.1 ∧ (le e.1 d.1 → d.2 < e.2)) :
    numbered.map (·.1) = l.mergeSort le := by
  have hsorted : numbered.Pairwise fun d e => List.zipIdxLE le d e := by
    apply hle.imp
    intro d e h
    rw [List.zipIdxLE, if_pos h.1]
    split
    · next hback => exact decide_eq_true (Nat.le_of_lt (h.2 hback))
    · rfl
  have hmerge := List.pairwise_mergeSort (List.zipIdxLE_trans htrans) (List.zipIdxLE_total htotal)
    l.zipIdx
  have hanti (d e : α × Nat) (hde : List.zipIdxLE le d e) (hed : List.zipIdxLE le e d) :
      d.2 = e.2 := by
    unfold List.zipIdxLE at hde hed
    grind
  have hsame := eq_of_perm_of_places (fun d hd => hperm.mem_iff.mp hd)
    ((List.mergeSort_perm _ _).trans hperm.symm) hanti hsorted hmerge
  rw [hsame, List.mergeSort_zipIdx]

end Places

/-- Entries of which none precedes another stay as they are. -/
private theorem filter_sort {p : MediaType → Bool}
    (h : (ms.filter p).Pairwise fun a b => ¬ a.precedes b ∧ ¬ b.precedes a) :
    (sort ms).filter p = ms.filter p := by
  obtain ⟨numbered, hperm, hmap, hlead⟩ := exists_numbered ms
  have hsort : (numbered.filter fun d => p d.1).map (·.1) = (sort ms).filter p := by
    rw [← hmap, List.filter_map]
    rfl
  have hgiven : (ms.zipIdx.filter fun d => p d.1).map (·.1) = ms.filter p := by
    conv_rhs => rw [← List.zipIdx_map_fst 0 ms, List.filter_map]
    rfl
  have hunrelated : (numbered.filter fun d => p d.1).Pairwise fun d e => ¬ d.1.precedes e.1 := by
    have hsorted := (((sort_perm ms).filter p).pairwise_iff fun hab => hab.symm).mpr h
    rw [← hsort, List.pairwise_map] at hsorted
    exact hsorted.imp fun hab => hab.1
  have hplaces : (numbered.filter fun d => p d.1).Pairwise fun d e => d.2 < e.2 := by
    apply ((hlead.filter _).and hunrelated).imp
    intro d e hde
    exact hde.1.resolve_right hde.2
  have hmem : ∀ d ∈ numbered.filter fun d => p d.1, d ∈ ms.zipIdx := by
    intro d hd
    exact hperm.mem_iff.mp (List.mem_of_mem_filter hd)
  have hsame := eq_of_perm_of_places hmem (hperm.symm.filter fun d => p d.1) (by omega) hplaces
    ((pairwise_zipIdx ms).filter _)
  rw [← hsort, hsame, hgiven]

/-- The type `*` behind all others, and otherwise the better quality in front. -/
def rankedLE (a b : MediaType) : Bool :=
  if a.isWildcardType = b.isWildcardType then (a.qualityCmp b).isLE else b.isWildcardType

private theorem rankedLE_iff : rankedLE a b ↔ (a.isWildcardType → b.isWildcardType) ∧
    (a.isWildcardType = b.isWildcardType → b.quality.rank ≤ a.quality.rank) := by
  have hquality : (a.qualityCmp b).isLE ↔ b.quality.rank ≤ a.quality.rank := Int.isLE_compare
  rw [rankedLE]
  grind

private theorem rankedLE_trans (a b c : MediaType) (hab : rankedLE a b) (hbc : rankedLE b c) :
    rankedLE a c := by
  rw [rankedLE_iff] at hab hbc ⊢
  refine ⟨fun ha => hbc.1 (hab.1 ha), ?_⟩
  intro hac
  have hmiddle : a.isWildcardType = b.isWildcardType :=
    Bool.eq_iff_iff.mpr ⟨hab.1, fun hb => hac ▸ hbc.1 hb⟩
  exact Int.le_trans (hbc.2 (hmiddle.symm.trans hac)) (hab.2 hmiddle)

private theorem rankedLE_total (a b : MediaType) : rankedLE a b || rankedLE b a := by
  rw [Bool.or_eq_true, rankedLE_iff, rankedLE_iff]
  grind

/-- Two types of which neither is a range of subtypes, and which differ in type or subtype. -/
structure Apart (a b : MediaType) : Prop where
  left : ¬ a.isWildcardSubtype
  right : ¬ b.isWildcardSubtype
  essence : ¬ a.sameEssence b

theorem Apart.symm (h : Apart a b) : Apart b a where
  left := h.right
  right := h.left
  essence hba := h.essence (sameEssence_symm hba)

theorem Apart.specificityCmp_lt_iff (h : Apart a b) :
    a.specificityCmp b = .lt ↔ ¬ a.isWildcardType ∧ b.isWildcardType := by
  have hessence := h.essence
  rw [sameEssence_iff] at hessence
  have hright := h.right
  rw [MediaType.specificityCmp_lt_iff]
  grind

private theorem Apart.rankedLE_iff (h : Apart a b) : rankedLE a b ↔ ¬ b.precedes a := by
  have hquality : b.qualityCmp a = .lt ↔ a.quality.rank < b.quality.rank := Int.compare_eq_lt
  rw [MediaType.rankedLE_iff, precedes_iff, specificityCmp_eq_iff, hquality]
  simp only [ne_eq, h.specificityCmp_lt_iff, h.symm.specificityCmp_lt_iff]
  grind

/-- Without ranges of subtypes and without two entries of one type and subtype. -/
theorem sort_eq_mergeSort (hsubtypes : ∀ m ∈ ms, ¬ m.isWildcardSubtype)
    (hessence : ms.Pairwise fun a b => ¬ a.sameEssence b) : sort ms = ms.mergeSort rankedLE := by
  have hgiven : ms.Pairwise Apart := by
    apply hessence.imp_of_mem
    intro a b ha hb hab
    exact ⟨hsubtypes a ha, hsubtypes b hb, hab⟩
  have hapart : (sort ms).Pairwise Apart := ((sort_perm ms).pairwise_iff Apart.symm).mpr hgiven
  have hranked : (sort ms).Pairwise fun a b => rankedLE a b := by
    have htrans : Trans (fun a b => rankedLE a b) (fun a b => rankedLE a b)
        (fun a b => rankedLE a b) := ⟨fun {a b c} => rankedLE_trans a b c⟩
    rw [← List.isChain_iff_pairwise, List.isChain_iff_forall_rel_of_append_cons_cons]
    intro a b front back heq
    have hab : Apart a b := by
      rw [heq, List.pairwise_append, List.pairwise_cons] at hapart
      exact hapart.2.1.1 b List.mem_cons_self
    exact hab.rankedLE_iff.mpr (not_precedes_of_sort heq)
  obtain ⟨numbered, hperm, hmap, hlead⟩ := exists_numbered ms
  rw [← hmap, List.pairwise_map] at hapart hranked
  rw [← hmap]
  apply map_fst_eq_mergeSort rankedLE_trans rankedLE_total hperm
  apply (hranked.and (hapart.and hlead)).imp
  intro d e ⟨hde, hapart, hlead⟩
  refine ⟨hde, fun hback => hlead.resolve_right ?_⟩
  exact hapart.symm.rankedLE_iff.mp hback

private theorem sort_wildcards_last (ms : List MediaType) :
    (sort ms).Pairwise fun a b => a.isWildcardType → b.isWildcardType := by
  have htrans : Trans (fun a b : MediaType => a.isWildcardType → b.isWildcardType)
      (fun a b : MediaType => a.isWildcardType → b.isWildcardType)
      (fun a b : MediaType => a.isWildcardType → b.isWildcardType) := ⟨fun hab hbc => hbc ∘ hab⟩
  rw [← List.isChain_iff_pairwise]
  apply (sort_isChain ms).imp
  intro a b hab ha
  by_contra hb
  exact hab (precedes_iff.mpr (.inl (specificityCmp_lt_iff.mpr (.inl ⟨hb, ha⟩))))

/-- The stable sort by quality alone, when the type `*` does not stand beside others. -/
private theorem mergeSort_rankedLE (h : ∀ a ∈ ms, ∀ b ∈ ms, a.isWildcardType = b.isWildcardType) :
    ms.mergeSort rankedLE = ms.mergeSort fun a b => (a.qualityCmp b).isLE := by
  have hsame : ∀ a ∈ ms, ∀ b ∈ ms, rankedLE a b = (a.qualityCmp b).isLE := by
    intro a ha b hb
    rw [rankedLE, if_pos (h a ha b hb)]
  have hmap : (ms.mergeSort rankedLE).map id =
      (ms.map id).mergeSort fun a b => (a.qualityCmp b).isLE := List.map_mergeSort hsame
  rwa [List.map_id, List.map_id] at hmap

/-- What sorting does with any list. Nothing is lost or added; no entry precedes its left neighbour;
one entry is in front of another only if it was or if it precedes it, so that entries of which none
precedes another keep their order; the type `*` is behind all others; and without ranges of subtypes
and without two entries of one type and subtype it is the stable sort by quality, those of the type
`*` behind the others. -/
theorem sort_stable (ms : List MediaType) :
    (sort ms).Perm ms ∧
    (∀ front x y back, sort ms = front ++ x :: y :: back → ¬ y.precedes x) ∧
    (∃ numbered : List (MediaType × Nat), numbered.Perm ms.zipIdx ∧
      numbered.map (·.1) = sort ms ∧
      numbered.Pairwise fun d e => d.2 < e.2 ∨ d.1.precedes e.1) ∧
    (∀ p : MediaType → Bool,
      ((ms.filter p).Pairwise fun a b => ¬ a.precedes b ∧ ¬ b.precedes a) →
      (sort ms).filter p = ms.filter p) ∧
    ((sort ms).Pairwise fun a b => a.isWildcardType → b.isWildcardType) ∧
    ((∀ m ∈ ms, ¬ m.isWildcardSubtype) → (ms.Pairwise fun a b => ¬ a.sameEssence b) →
      sort ms = ms.mergeSort rankedLE ∧
      ((∀ a ∈ ms, ∀ b ∈ ms, a.isWildcardType = b.isWildcardType) →
        sort ms = ms.mergeSort fun a b => (a.qualityCmp b).isLE)) := by
  refine ⟨sort_perm ms, fun _ _ _ _ => not_precedes_of_sort, exists_numbered ms,
    fun _ => filter_sort, sort_wildcards_last ms, ?_⟩
  intro hsubtypes hessence
  have hsorted := sort_eq_mergeSort hsubtypes hessence
  exact ⟨hsorted, fun hkinds => hsorted.trans (mergeSort_rankedLE hkinds)⟩

/-- Three types of which the last has the better quality than the first, and the second than both. -/
def threeTypes : List MediaType :=
  [⟨"text", "plain", [("q", "0.2")]⟩, ⟨"image", "png", []⟩, ⟨"text", "html", [("q", "0.5")]⟩]

theorem sort_stable_three :
    (∀ m ∈ threeTypes, ¬ m.isWildcardSubtype) ∧
      (threeTypes.Pairwise fun a b => ¬ a.sameEssence b) ∧
      (∀ a ∈ threeTypes, ∀ b ∈ threeTypes, a.isWildcardType = b.isWildcardType) ∧
      sort threeTypes = threeTypes.mergeSort (fun a b => (a.qualityCmp b).isLE) ∧
      ((threeTypes.filter fun m => m.mainType != "text").Pairwise
        fun a b => ¬ a.precedes b ∧ ¬ b.precedes a) ∧
      (sort threeTypes).filter (fun m => m.mainType != "text") =
        threeTypes.filter fun m => m.mainType != "text" := by
  obtain ⟨-, -, -, hunrelated, -, hquality⟩ := sort_stable threeTypes
  have hsubtypes : ∀ m ∈ threeTypes, ¬ m.isWildcardSubtype := by decide
  have hessence : threeTypes.Pairwise fun a b => ¬ a.sameEssence b := by decide
  have hkinds : ∀ a ∈ threeTypes, ∀ b ∈ threeTypes, a.isWildcardType = b.isWildcardType := by
    decide
  have hfew : (threeTypes.filter fun m => m.mainType != "text").Pairwise
      fun a b => ¬ a.precedes b ∧ ¬ b.precedes a := List.pairwise_singleton _ _
  exact ⟨hsubtypes, hessence, hkinds, (hquality hsubtypes hessence).2 hkinds, hfew,
    hunrelated _ hfew⟩

/-- A type `*` whose subtype is no range goes behind others of a lower quality. -/
theorem star_goes_behind :
    let ms := [new "*" "html", (new "text" "plain").withParameter "q" "0.5"]
    (∀ m ∈ ms, ¬ m.isWildcardSubtype) ∧ (ms.Pairwise fun a b => ¬ a.sameEssence b) ∧
      sort ms = ms.reverse ∧ ms.mergeSort (fun a b => (a.qualityCmp b).isLE) = ms ∧
      sort ms ≠ ms.mergeSort fun a b => (a.qualityCmp b).isLE := by
  intro ms
  have hsort : sort ms = ms.reverse := by rfl
  have hquality : ms.mergeSort (fun a b => (a.qualityCmp b).isLE) = ms := by
    apply List.mergeSort_of_pairwise
    rw [List.pairwise_pair]
    rfl
  refine ⟨by decide, by decide, hsort, hquality, ?_⟩
  rw [hsort, hquality]
  decide

end Switchyard.MediaType
