import Mathlib.Data.List.Nodup
import Mathlib.Data.List.Perm.Subperm
import Switchyard.Proofs.Media.Preference
import Switchyard.Proofs.Media.QualityValue
import Switchyard.Proofs.Media.RoundTrip
/-!
# Equality of media types

Every media type, however it was obtained, has its names in lower case and each once
(`Obtained.isFolded`). On such media types equality, which looks from one side only, is an
equivalence that the order of the parameters does not matter to (`equality_of_obtained`).
-/

namespace Switchyard.MediaType

variable {a b c m source : MediaType} {name value : String}

/-- Type, subtype and names of parameters in lower case, each name once. -/
structure IsFolded (m : MediaType) : Prop where
  mainType : Text.lower m.mainType = m.mainType
  subtype : Text.lower m.subtype = m.subtype
  names : ∀ p ∈ m.parameters, Text.lower p.1 = p.1
  distinct : (m.parameters.map (·.1)).Nodup

/-- Media types that are read or put together, and those that come from them. -/
inductive Obtained : MediaType → Prop where
  | parsed {text : String} {m : MediaType} (h : parse text = .ok m) : Obtained m
  | new (mainType subtype : String) : Obtained (new mainType subtype)
  | withParameter {m : MediaType} (hm : Obtained m) (name value : String) :
      Obtained (m.withParameter name value)
  | copyQuality {m source : MediaType} (hm : Obtained m) (hsource : Obtained source) :
      Obtained (m.copyQuality source)
  | removeQuality {m : MediaType} (hm : Obtained m) : Obtained m.removeQuality

/-- A media type with a given text as its quality, or without one, whatever its own. -/
def withQuality (m : MediaType) (quality? : Option String) : MediaType :=
  { m with parameters := m.parameters.filter (·.1 != "q") ++ (quality?.map ("q", ·)).toList }

private theorem removeQuality_eq_withQuality (m : MediaType) :
    m.removeQuality = m.withQuality none := by
  simp [removeQuality, withQuality]

theorem copyQuality_eq_withQuality (m source : MediaType) :
    m.copyQuality source = m.withQuality (source.parameter? "q") := by
  rw [copyQuality]
  cases source.parameter? "q" with
  | none => exact removeQuality_eq_withQuality m
  | some quality => rfl

private theorem mem_parameters_withQuality {p : String × String} {quality? : Option String} :
    p ∈ (m.withQuality quality?).parameters ↔
      p ∈ m.parameters ∧ p.1 ≠ "q" ∨ p.1 = "q" ∧ quality? = some p.2 := by
  have hrest : p ∈ m.parameters.filter (·.1 != "q") ↔ p ∈ m.parameters ∧ p.1 ≠ "q" := by simp
  have hquality : p ∈ (quality?.map ("q", ·)).toList ↔ p.1 = "q" ∧ quality? = some p.2 := by
    obtain ⟨name, value⟩ := p
    cases quality? <;> simp [eq_comm]
  rw [withQuality, List.mem_append, hrest, hquality]

theorem IsRead.isFolded (hm : m.IsRead) : m.IsFolded where
  mainType := hm.mainType.lower
  subtype := hm.subtype.lower
  names p hp := (hm.parameters p hp).name.lower
  distinct := hm.distinct

private theorem isFolded_new (mainType subtype : String) : (new mainType subtype).IsFolded where
  mainType := Text.lower_lower mainType
  subtype := Text.lower_lower subtype
  names _ hp := nomatch hp
  distinct := List.nodup_nil

theorem IsFolded.withParameter (hm : m.IsFolded) (name value : String) :
    (m.withParameter name value).IsFolded where
  mainType := hm.mainType
  subtype := hm.subtype
  names := by
    intro p hp
    rcases mem_withParameter.mp hp with ⟨hp, -⟩ | rfl
    · exact hm.names p hp
    · exact Text.lower_lower name
  distinct := nodup_withParameter hm.distinct name value

theorem IsFolded.withQuality (hm : m.IsFolded) (quality? : Option String) :
    (m.withQuality quality?).IsFolded where
  mainType := hm.mainType
  subtype := hm.subtype
  names := by
    intro p hp
    rcases mem_parameters_withQuality.mp hp with ⟨hp, -⟩ | ⟨hq, -⟩
    · exact hm.names p hp
    · rw [hq]
      rfl
  distinct := by
    rw [MediaType.withQuality, List.map_append, List.nodup_append]
    refine ⟨hm.distinct.sublist (List.filter_sublist.map _), by cases quality? <;> simp, ?_⟩
    intro n hn n' hn' heq
    obtain ⟨p, hp, rfl⟩ := List.mem_map.mp hn
    obtain ⟨p', hp', rfl⟩ := List.mem_map.mp hn'
    obtain ⟨quality, -, rfl⟩ := Option.map_eq_some_iff.mp (Option.mem_toList.mp hp')
    have hother : p.1 ≠ "q" := by simpa using (List.mem_filter.mp hp).2
    exact hother heq

theorem Obtained.isFolded (hm : Obtained m) : m.IsFolded := by
  induction hm with
  | parsed h => exact (isRead_of_parse h).1.isFolded
  | new mainType subtype => exact isFolded_new mainType subtype
  | withParameter _ name value ih => exact ih.withParameter name value
  | copyQuality _ _ ih _ =>
    rw [copyQuality_eq_withQuality]
    exact ih.withQuality _
  | removeQuality _ ih =>
    rw [removeQuality_eq_withQuality]
    exact ih.withQuality none

private theorem parameter?_eq_some_iff (hm : m.IsFolded) :
    m.parameter? name = some value ↔ (Text.lower name, value) ∈ m.parameters := by
  rw [parameter?, Option.map_eq_some_iff]
  constructor
  · intro ⟨p, hfound, hvalue⟩
    have hmem := List.mem_of_find?_eq_some hfound
    have hname := List.find?_some hfound
    rw [Text.sameFold, beq_iff_eq, hm.names p hmem] at hname
    rwa [← hname, ← hvalue]
  · intro hmem
    have hsame : Text.sameFold (Text.lower name) name := by
      rw [Text.sameFold, Text.lower_lower, beq_self_eq_true]
    cases hfound : m.parameters.find? fun p => Text.sameFold p.1 name with
    | none =>
      have hnone := List.find?_eq_none.mp hfound (Text.lower name, value) hmem
      exact absurd hsame hnone
    | some p =>
      have hp := List.mem_of_find?_eq_some hfound
      have hname := List.find?_some hfound
      rw [Text.sameFold, beq_iff_eq, hm.names p hp] at hname
      have heq := List.inj_on_of_nodup_map hm.distinct hp hmem hname
      exact ⟨p, rfl, congrArg Prod.snd heq⟩

theorem parameter?_withQuality (hm : m.IsFolded) (quality? : Option String) :
    (m.withQuality quality?).parameter? "q" = quality? := by
  ext value
  have hlower : Text.lower "q" = "q" := rfl
  rw [parameter?_eq_some_iff (hm.withQuality quality?), mem_parameters_withQuality, hlower]
  simp

private theorem equivalent_iff (ha : a.IsFolded) (hb : b.IsFolded) : a.equivalent b ↔
    a.sameEssence b ∧ a.parameters.length = b.parameters.length ∧
      ∀ p ∈ a.parameters, ∃ v, (p.1, v) ∈ b.parameters ∧ Text.sameFold v p.2 := by
  rw [equivalent, Bool.and_eq_true, Bool.and_eq_true, beq_iff_eq, List.all_eq_true, and_assoc]
  refine and_congr_right fun _ => and_congr_right fun _ => ?_
  refine forall_congr' fun p => forall_congr' fun hp => ?_
  rw [Option.any_eq_true]
  simp only [parameter?_eq_some_iff hb, ha.names p hp]

theorem equivalent_refl (hm : m.IsFolded) : m.equivalent m := by
  rw [equivalent_iff hm hm]
  refine ⟨sameEssence_iff.mpr ⟨rfl, rfl⟩, rfl, ?_⟩
  intro p hp
  exact ⟨p.2, hp, by simp [Text.sameFold]⟩

/-- Equal media types have the same names, since each name of the one is a name of the other and
there are equally many. -/
private theorem names_perm (ha : a.IsFolded) (hb : b.IsFolded) (h : a.equivalent b) :
    (a.parameters.map (·.1)).Perm (b.parameters.map (·.1)) := by
  obtain ⟨-, hlength, hfound⟩ := (equivalent_iff ha hb).mp h
  have hsubset : a.parameters.map (·.1) ⊆ b.parameters.map (·.1) := by
    intro n hn
    obtain ⟨p, hp, rfl⟩ := List.mem_map.mp hn
    obtain ⟨v, hv, -⟩ := hfound p hp
    exact List.mem_map.mpr ⟨(p.1, v), hv, rfl⟩
  have hsubperm := List.subperm_of_subset ha.distinct hsubset
  exact hsubperm.perm_of_length_le (by simp [hlength])

theorem equivalent_symm (ha : a.IsFolded) (hb : b.IsFolded) (h : a.equivalent b) :
    b.equivalent a := by
  have hnames := names_perm ha hb h
  rw [equivalent_iff ha hb] at h
  rw [equivalent_iff hb ha]
  obtain ⟨hessence, hlength, hfound⟩ := h
  refine ⟨sameEssence_symm hessence, hlength.symm, ?_⟩
  intro q hq
  -- a parameter of the first that has the name, and so the value, of this one
  obtain ⟨p, hp, hname⟩ := List.mem_map.mp (hnames.mem_iff.mpr (List.mem_map_of_mem hq))
  obtain ⟨v, hv, hsame⟩ := hfound p hp
  have heq : (p.1, v) = q := List.inj_on_of_nodup_map hb.distinct hv hq hname
  refine ⟨p.2, hname ▸ hp, ?_⟩
  rw [← heq]
  rw [Text.sameFold, beq_iff_eq] at hsame ⊢
  exact hsame.symm

private theorem equivalent_trans (ha : a.IsFolded) (hb : b.IsFolded) (hc : c.IsFolded)
    (hab : a.equivalent b) (hbc : b.equivalent c) : a.equivalent c := by
  rw [equivalent_iff ha hb, sameEssence_iff] at hab
  rw [equivalent_iff hb hc, sameEssence_iff] at hbc
  rw [equivalent_iff ha hc, sameEssence_iff]
  obtain ⟨⟨hmain, hsubtype⟩, hlength, hfound⟩ := hab
  obtain ⟨⟨hmain', hsubtype'⟩, hlength', hfound'⟩ := hbc
  refine ⟨⟨hmain.trans hmain', hsubtype.trans hsubtype'⟩, hlength.trans hlength', ?_⟩
  intro p hp
  obtain ⟨v, hv, hsame⟩ := hfound p hp
  obtain ⟨v', hv', hsame'⟩ := hfound' (p.1, v) hv
  refine ⟨v', hv', ?_⟩
  rw [Text.sameFold, beq_iff_eq] at hsame hsame' ⊢
  exact hsame'.trans hsame

/-- The same media type with its parameters in another order. -/
structure Reordered (a b : MediaType) : Prop where
  mainType : a.mainType = b.mainType
  subtype : a.subtype = b.subtype
  parameters : a.parameters.Perm b.parameters

theorem Reordered.isFolded (h : Reordered a b) (ha : a.IsFolded) : b.IsFolded where
  mainType := h.mainType ▸ ha.mainType
  subtype := h.subtype ▸ ha.subtype
  names p hp := ha.names p (h.parameters.mem_iff.mpr hp)
  distinct := (h.parameters.map _).nodup_iff.mp ha.distinct

theorem Reordered.equivalent (h : Reordered a b) (ha : a.IsFolded) : a.equivalent b := by
  rw [equivalent_iff ha (h.isFolded ha)]
  refine ⟨sameEssence_iff.mpr ⟨h.mainType, h.subtype⟩, h.parameters.length_eq, ?_⟩
  intro p hp
  exact ⟨p.2, h.parameters.mem_iff.mp hp, beq_self_eq_true _⟩

private theorem equivalence_equivalent :
    Equivalence fun a b : {m : MediaType // m.IsFolded} => (a.1.equivalent b.1 : Prop) where
  refl a := equivalent_refl a.2
  symm {a b} := equivalent_symm a.2 b.2
  trans {a b c} := equivalent_trans a.2 b.2 c.2

/-- Equality does not tell a media type from itself with its parameters in another order. -/
private theorem equivalent_congr_of_reordered {a' b' : MediaType} (ha : a.IsFolded)
    (hb : b.IsFolded)
    (haa' : Reordered a a') (hbb' : Reordered b b') : a'.equivalent b' = a.equivalent b := by
  have ha' := haa'.isFolded ha
  have hb' := hbb'.isFolded hb
  have hleft := haa'.equivalent ha
  have hright := hbb'.equivalent hb
  rw [Bool.eq_iff_iff]
  constructor
  · intro h
    have hab' := equivalent_trans ha ha' hb' hleft h
    exact equivalent_trans ha hb' hb hab' (equivalent_symm hb hb' hright)
  · intro h
    have hab' := equivalent_trans ha hb hb' h hright
    exact equivalent_trans ha' ha hb' (equivalent_symm ha ha' hleft) hab'

private theorem IsRead.quality_value (hm : m.IsRead) (hq : ("q", value) ∈ m.parameters) :
    ∃ q, Quality.parse? value.toList = some q ∧ q.IsFinite ∧ 0 ≤ q.value ∧ q.value ≤ 1 := by
  have hunit := (hm.parameters ("q", value) hq).quality rfl
  rw [Option.any_eq_true] at hunit
  obtain ⟨q, hparse, hq⟩ := hunit
  exact ⟨q, hparse, Quality.isUnit_iff.mp hq⟩

/-- However a media type was obtained, its type, its subtype and the names of its parameters are in
lower case and each name is there once. On all such media types equality is an equivalence, and the
order of the parameters makes no difference to it. What was read consists of tokens besides, has the
type `*` only with the subtype `*`, and its quality, if it has one, is a number from zero to one. -/
theorem equality_of_obtained :
    (∀ m, Obtained m → m.IsFolded) ∧
    (Equivalence fun a b : {m : MediaType // m.IsFolded} => (a.1.equivalent b.1 : Prop)) ∧
    (∀ a b a' b' : MediaType, a.IsFolded → b.IsFolded → Reordered a a' → Reordered b b' →
      a'.equivalent b' = a.equivalent b) ∧
    ∀ text m, parse text = .ok m → m.IsRead ∧ ∀ value, ("q", value) ∈ m.parameters →
      ∃ q, Quality.parse? value.toList = some q ∧ q.IsFinite ∧ 0 ≤ q.value ∧ q.value ≤ 1 := by
  refine ⟨?_, equivalence_equivalent, ?_, ?_⟩
  · exact fun m hm => hm.isFolded
  · exact fun a b a' b' ha hb => equivalent_congr_of_reordered ha hb
  · intro text m h
    have hread := (isRead_of_parse h).1
    exact ⟨hread, fun value => hread.quality_value⟩

/-- One media type that was read, and one that was put together with its parameters in another order
and a value in another letter case. -/
theorem equality_of_obtained_html :
    let a : MediaType := ⟨"text", "html", [("q", "0.5"), ("a", "x")]⟩
    let b := ((new "Text" "HTML").withParameter "A" "X").copyQuality a
    parse "text/html;Q=0.5;a=x" = .ok a ∧ b = ⟨"text", "html", [("a", "X"), ("q", "0.5")]⟩ ∧
      (a.IsFolded ∧ b.IsFolded) ∧ (a.equivalent b ∧ b.equivalent a) ∧
      (Reordered b ⟨"text", "html", [("q", "0.5"), ("a", "X")]⟩ ∧
        a.equivalent ⟨"text", "html", [("q", "0.5"), ("a", "X")]⟩ = a.equivalent b) ∧
      ∃ q, Quality.parse? "0.5".toList = some q ∧ q.IsFinite ∧ 0 ≤ q.value ∧ q.value ≤ 1 := by
  intro a b
  obtain ⟨hfolded, hequal, hreordered, hread⟩ := equality_of_obtained
  have hparse : parse "text/html;Q=0.5;a=x" = .ok a := rfl
  have hb : b = ⟨"text", "html", [("a", "X"), ("q", "0.5")]⟩ := rfl
  have ha : Obtained a := .parsed hparse
  have hfa := hfolded a ha
  have hfb := hfolded b (.copyQuality (.withParameter (.new _ _) _ _) ha)
  have hab : a.equivalent b := by decide
  have hswap : Reordered b ⟨"text", "html", [("q", "0.5"), ("a", "X")]⟩ := by
    rw [hb]
    exact ⟨rfl, rfl, .swap _ _ _⟩
  have hba : b.equivalent a := hequal.symm (x := ⟨a, hfa⟩) (y := ⟨b, hfb⟩) hab
  exact ⟨hparse, hb, ⟨hfa, hfb⟩, ⟨hab, hba⟩,
    ⟨hswap, hreordered a b a _ hfa hfb ⟨rfl, rfl, .refl _⟩ hswap⟩,
    (hread _ a hparse).2 "0.5" (by simp [a])⟩

end Switchyard.MediaType
