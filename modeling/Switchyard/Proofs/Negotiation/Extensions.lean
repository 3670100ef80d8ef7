import Mathlib.Data.List.Dedup
import Mathlib.Data.List.DropRight
import Mathlib.Data.List.Find
import Mathlib.Data.List.Induction
import Switchyard.Negotiation.ExtensionTable
/-!
# The extension table as a map

Whatever is registered, in any number and in any spelling, an extension has the media type of its
last registration and stands at the place of that one; and the extensions of a media type are those
that are looked up to it (`ExtensionTable.last_write_wins`).
-/

namespace Switchyard.ExtensionTable

variable {t : ExtensionTable} {adds : List (String × MediaType)} {a : String × MediaType}
  {e e' : String} {m : MediaType}

/-- An extension as the table holds it. Spellings of one extension have the same key. -/
def key (extension : String) : String := Text.lower (withoutDots extension)

/-- The key of an extension is what stands behind its leading dots, in lower case. -/
private theorem key_spec (e : String) : ∃ dots rest, e.toList = List.replicate dots '.' ++ rest ∧
    rest.head? ≠ some '.' ∧ (key e).toList = rest.map Char.toLower := by
  refine ⟨(e.toList.takeWhile (· = '.')).length, e.toList.dropWhile (· = '.'), ?_, ?_, ?_⟩
  · have hdots : e.toList.takeWhile (· = '.') =
        List.replicate (e.toList.takeWhile (· = '.')).length '.' := by
      rw [List.eq_replicate_iff]
      exact ⟨rfl, fun c hc => by simpa using List.mem_takeWhile_imp hc⟩
    rw [← hdots, List.takeWhile_append_dropWhile]
  · intro hdot
    have hbehind := List.head?_dropWhile_not (· = '.') e.toList
    rw [hdot] at hbehind
    simp at hbehind
  · rw [key, withoutDots, Text.lower, String.toList_ofList, String.toList_ofList]

private theorem lower_key (e : String) : Text.lower (key e) = key e := Text.lower_lower _

private theorem withoutDots_key (e : String) : withoutDots (key e) = key e := by
  have hdots : (key e).toList = (e.toList.dropWhile (· = '.')).map Char.toLower := by
    rw [key, withoutDots, Text.lower, String.toList_ofList, String.toList_ofList]
  -- letter case makes no dot of another character
  have hnone : (key e).toList.dropWhile (· = '.') = (key e).toList := by
    rw [hdots, List.dropWhile_map]
    have hsame : ((fun c : Char => decide (c = '.')) ∘ Char.toLower) = fun c => decide (c = '.') := by
      funext c
      exact decide_eq_decide.mpr (Text.toLower_eq_iff (by decide))
    rw [hsame, List.dropWhile_idempotent]
  rw [withoutDots, hnone, String.ofList_toList]

@[simp] theorem key_key (e : String) : key (key e) = key e := by
  rw [key, withoutDots_key, lower_key]

/-- The table holds its extensions without leading dots and in lower case. -/
def IsKeyed (t : ExtensionTable) : Prop := ∀ e ∈ t.extensions, key e = e

private theorem add_entries (t : ExtensionTable) (e : String) (m : MediaType) :
    (t.add e m).entries = t.entries.filter (·.1 != key e) ++ [(key e, m)] := rfl

private theorem add_extensions (t : ExtensionTable) (e : String) (m : MediaType) :
    (t.add e m).extensions = t.extensions.filter (· != key e) ++ [key e] := by
  simp only [extensions, add_entries, List.map_append, List.map_singleton, List.filter_map,
    Function.comp_def]

theorem IsKeyed.add (ht : t.IsKeyed) (e : String) (m : MediaType) : (t.add e m).IsKeyed := by
  intro e' he'
  rw [add_extensions, List.mem_append, List.mem_singleton] at he'
  rcases he' with hold | rfl
  · exact ht e' (List.mem_filter.mp hold).1
  · exact key_key e

private theorem IsKeyed.lookup?_eq (ht : t.IsKeyed) (e : String) :
    t.lookup? e = (t.entries.find? (·.1 == key e)).map (·.2) := by
  have hfind : t.entries.find? (fun p => Text.sameFold p.1 (withoutDots e)) =
      t.entries.find? (·.1 == key e) := by
    apply List.find?_congr
    intro p hp
    have hmem : p.1 ∈ t.extensions := List.mem_map_of_mem hp
    have hlower : Text.lower p.1 = p.1 := by
      rw [← ht p.1 hmem, lower_key]
    rw [Text.sameFold, hlower, key]
  rw [lookup?, hfind]

private theorem IsKeyed.lookup?_add (ht : t.IsKeyed) (e : String) (m : MediaType) (e' : String) :
    (t.add e m).lookup? e' = if key e = key e' then some m else t.lookup? e' := by
  rw [(ht.add e m).lookup?_eq, ht.lookup?_eq, add_entries, List.find?_append, List.find?_filter,
    List.find?_singleton]
  by_cases hsame : key e = key e'
  · have hnone : t.entries.find? (fun p => decide (p.1 != key e ∧ p.1 == key e')) = none := by
      rw [List.find?_eq_none]
      intro p _
      simp [hsame]
    rw [hnone, if_pos hsame, if_pos (beq_iff_eq.mpr hsame), Option.none_or, Option.map_some]
  · have hrest : t.entries.find? (fun p => decide (p.1 != key e ∧ p.1 == key e')) =
        t.entries.find? (·.1 == key e') := by
      apply List.find?_congr
      intro p _
      by_cases hp : p.1 = key e'
      · simp [hp, Ne.symm hsame]
      · simp [hp]
    rw [hrest, if_neg hsame, if_neg (by simpa using hsame), Option.or_none]

/-- The media type is that of a registration of the extension behind which there is none. -/
def IsLast (adds : List (String × MediaType)) (extension : String) (m : MediaType) : Prop :=
  ∃ before spelling after, adds = before ++ (spelling, m) :: after ∧
    key spelling = key extension ∧ ∀ a ∈ after, key a.1 ≠ key extension

private theorem ofList_concat (adds : List (String × MediaType)) (a : String × MediaType) :
    ofList (adds ++ [a]) = (ofList adds).add a.1 a.2 := List.foldl_concat ..

private theorem isKeyed_ofList (adds : List (String × MediaType)) : (ofList adds).IsKeyed := by
  induction adds using List.reverseRecOn with
  | nil => exact fun e he => nomatch he
  | append_singleton adds a ih =>
    rw [ofList_concat]
    exact ih.add a.1 a.2

private theorem isLast_concat_of_same (h : key a.1 = key e) :
    IsLast (adds ++ [a]) e m ↔ a.2 = m := by
  constructor
  · rintro ⟨before, spelling, after, hadds, -, hafter⟩
    rcases List.eq_nil_or_concat after with rfl | ⟨after, b, rfl⟩
    · have hlast := (List.append_inj' hadds rfl).2
      exact congrArg Prod.snd (List.singleton_inj.mp hlast)
    · rw [List.concat_eq_append, ← List.cons_append, ← List.append_assoc] at hadds
      have hlast := (List.append_inj' hadds rfl).2
      rw [List.singleton_inj.mp hlast] at h
      exact absurd h (hafter b (by simp))
  · rintro rfl
    exact ⟨adds, a.1, [], rfl, h, by simp⟩

private theorem isLast_concat_of_other (h : key a.1 ≠ key e) :
    IsLast (adds ++ [a]) e m ↔ IsLast adds e m := by
  constructor
  · rintro ⟨before, spelling, after, hadds, hsame, hafter⟩
    rcases List.eq_nil_or_concat after with rfl | ⟨after, b, rfl⟩
    · have hlast := (List.append_inj' hadds rfl).2
      rw [List.singleton_inj.mp hlast] at h
      exact absurd hsame h
    · rw [List.concat_eq_append, ← List.cons_append, ← List.append_assoc] at hadds
      obtain ⟨rfl, -⟩ := List.append_inj' hadds rfl
      exact ⟨before, spelling, after, rfl, hsame, fun c hc => hafter c (by simp [hc])⟩
  · rintro ⟨before, spelling, after, rfl, hsame, hafter⟩
    refine ⟨before, spelling, after ++ [a], by simp, hsame, ?_⟩
    rw [List.forall_mem_append, List.forall_mem_singleton]
    exact ⟨hafter, h⟩

private theorem lookup?_ofList_eq_some_iff :
    (ofList adds).lookup? e = some m ↔ IsLast adds e m := by
  induction adds using List.reverseRecOn with
  | nil =>
    constructor
    · intro h
      cases h
    · rintro ⟨before, spelling, after, hadds, -⟩
      simp at hadds
  | append_singleton adds a ih =>
    rw [ofList_concat, (isKeyed_ofList adds).lookup?_add]
    by_cases hsame : key a.1 = key e
    · rw [if_pos hsame, isLast_concat_of_same hsame, Option.some_inj]
    · rw [if_neg hsame, isLast_concat_of_other hsame, ih]

private theorem lookup?_ofList_eq_none_iff :
    (ofList adds).lookup? e = none ↔ ∀ a ∈ adds, key a.1 ≠ key e := by
  induction adds using List.reverseRecOn with
  | nil => exact iff_of_true rfl (by simp)
  | append_singleton adds a ih =>
    rw [ofList_concat, (isKeyed_ofList adds).lookup?_add, List.forall_mem_append,
      List.forall_mem_singleton]
    split
    · next hsame => simp [hsame]
    · next hother => simp [ih, hother]

private theorem dedup_concat {α : Type} [DecidableEq α] (l : List α) (x : α) :
    (l ++ [x]).dedup = l.dedup.filter (· != x) ++ [x] := by
  induction l with
  | nil => rfl
  | cons y l ih =>
    rw [List.cons_append]
    by_cases hy : y ∈ l
    · rw [List.dedup_cons_of_mem (List.mem_append_left _ hy), List.dedup_cons_of_mem hy, ih]
    · rw [List.dedup_cons_of_notMem hy]
      by_cases hx : y = x
      · rw [List.dedup_cons_of_mem (by simp [hx]), List.filter_cons_of_neg (by simp [hx]), ih]
      · rw [List.dedup_cons_of_notMem (by simp [hy, hx]), List.filter_cons_of_pos (by simp [hx]),
          ih, List.cons_append]

private theorem extensions_ofList (adds : List (String × MediaType)) :
    (ofList adds).extensions = (adds.map (key ·.1)).dedup := by
  induction adds using List.reverseRecOn with
  | nil => rfl
  | append_singleton adds a ih =>
    rw [ofList_concat, add_extensions, ih, List.map_append, List.map_singleton, dedup_concat]

private theorem IsKeyed.lookup?_of_mem (ht : t.IsKeyed) (hdistinct : t.extensions.Nodup)
    (ha : a ∈ t.entries) : t.lookup? a.1 = some a.2 := by
  have hmem : a.1 ∈ t.extensions := List.mem_map_of_mem ha
  rw [ht.lookup?_eq, ht a.1 hmem, Option.map_eq_some_iff]
  cases hfound : t.entries.find? (·.1 == a.1) with
  | none => exact absurd (beq_self_eq_true a.1) (List.find?_eq_none.mp hfound a ha)
  | some p =>
    have hname : p.1 = a.1 := by simpa using List.find?_some hfound
    have hp := List.mem_of_find?_eq_some hfound
    exact ⟨p, rfl, congrArg Prod.snd (List.inj_on_of_nodup_map hdistinct hp ha hname)⟩

private theorem IsKeyed.extensionsOf_eq (ht : t.IsKeyed) (hdistinct : t.extensions.Nodup)
    (m : MediaType) : t.extensionsOf m =
      t.extensions.filter fun e => (t.lookup? e).any (·.sameEssence m) := by
  rw [extensionsOf, extensions, List.filter_map]
  congr 1
  apply List.filter_congr
  intro a ha
  rw [Function.comp_apply, ht.lookup?_of_mem hdistinct ha]
  rfl

/-- Registrations make a map in which the last one wins. Spellings that differ in leading dots and in
letter case have one key. Each key is there once, in the order of the last registrations; any spelling
of it is looked up to the media type of the last one, and to none without any; and the extensions of a
media type are those that are looked up to its type and subtype, in their order. Parameters make no
difference. -/
theorem last_write_wins (adds : List (String × MediaType)) :
    let t := ofList adds
    (∀ e : String, ∃ dots rest, e.toList = List.replicate dots '.' ++ rest ∧
      rest.head? ≠ some '.' ∧ (key e).toList = rest.map Char.toLower) ∧
    (t.extensions = (adds.map (key ·.1)).dedup ∧ t.extensions.Nodup) ∧
    (∀ e m, t.lookup? e = some m ↔ IsLast adds e m) ∧
    (∀ e, t.lookup? e = none ↔ ∀ a ∈ adds, key a.1 ≠ key e) ∧
    ∀ m, t.extensionsOf m = t.extensions.filter fun e => (t.lookup? e).any fun stored =>
      stored.mainType == m.mainType && stored.subtype == m.subtype := by
  intro t
  have hextensions : t.extensions = (adds.map (key ·.1)).dedup := extensions_ofList adds
  have hdistinct : t.extensions.Nodup := by
    rw [hextensions]
    exact List.nodup_dedup _
  refine ⟨key_spec, ⟨hextensions, hdistinct⟩, ?_, ?_, ?_⟩
  · exact fun e m => lookup?_ofList_eq_some_iff
  · exact fun e => lookup?_ofList_eq_none_iff
  · exact (isKeyed_ofList adds).extensionsOf_eq hdistinct

example :
    let t := ofList [("json", .applicationJson), ("xml", .applicationXml), ("..JSON", .textHtml)]
    t.extensions = ["xml", "json"] ∧ t.lookup? ".Json" = some .textHtml := ⟨rfl, rfl⟩

end Switchyard.ExtensionTable
