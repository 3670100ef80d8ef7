import Switchyard.Http.Headers
import Switchyard.Proofs.Distinct
import Switchyard.Proofs.Text.Items
/-!
# Writing headers

A header that is written comes last and in place of all of its name; the headers of other names stay
as they are and in their order (`Headers.filter_set`). Values that are added to a list follow those
that it has (`Headers.listed_addValues`).
-/

namespace Switchyard.Headers

variable {h : Headers} {name other value : String} {values : List String}

/-- No two headers have names that are equal up to letter case. -/
def Distinct (h : Headers) : Prop := h.Pairwise fun p q => ¬ Text.sameFold p.1 q.1

instance : Decidable h.Distinct := inferInstanceAs (Decidable (List.Pairwise _ _))

theorem Distinct.set (hh : h.Distinct) (name value : String) : (h.set name value).Distinct := by
  rw [Headers.set, Distinct, List.pairwise_append]
  refine ⟨List.Pairwise.sublist List.filter_sublist hh, List.pairwise_singleton _ _, ?_⟩
  intro p hp q hq
  rw [List.mem_singleton.mp hq]
  simpa using (List.mem_filter.mp hp).2

theorem Distinct.getAll (hh : h.Distinct) (name : String) :
    h.getAll name = (h.get? name).toList := by
  induction h with
  | nil => rfl
  | cons p h ih =>
    rw [Distinct, List.pairwise_cons] at hh
    by_cases hname : Text.sameFold p.1 name
    · have hrest : h.filter (fun q => Text.sameFold q.1 name) = [] := by
        rw [List.filter_eq_nil_iff]
        intro q hq hq'
        apply hh.1 q hq
        rw [Text.sameFold, beq_iff_eq] at hname hq' ⊢
        exact hname.trans hq'.symm
      simp [Headers.getAll, get?, hname, hrest]
    · have hrest := ih hh.2
      rw [Headers.getAll, get?] at hrest
      simp [Headers.getAll, get?, hname, hrest]

theorem filter_set (keep : String → Bool)
    (hkeep : ∀ other, Text.sameFold other name → ¬ keep other) :
    (h.set name value).filter (fun p => keep p.1) = h.filter fun p => keep p.1 := by
  rw [set, List.filter_append, List.filter_filter]
  have hnew : [(name, value)].filter (fun p => keep p.1) = [] := by
    simpa using hkeep name (beq_self_eq_true _)
  rw [hnew, List.append_nil]
  apply List.filter_congr
  intro p _
  by_cases hname : Text.sameFold p.1 name
  · simp [hname, hkeep p.1 hname]
  · simp [hname]

private theorem set_set : (h.set name other).set name value = h.set name value := by
  have hself : Text.sameFold name name := beq_self_eq_true _
  simp [set, List.filter_filter, hself]

private theorem getAll_set : (h.set name value).getAll name = [value] := by
  have hold : (h.filter fun p => !Text.sameFold p.1 name).filter
      (fun p => Text.sameFold p.1 name) = [] := by
    simp [List.filter_filter]
  have hself : Text.sameFold name name := beq_self_eq_true _
  simp [getAll, set, hold, hself]

theorem getAll_set_of_ne (hname : Text.sameFold name other = false) :
    (h.set name value).getAll other = h.getAll other := by
  rw [getAll, filter_set fun n => Text.sameFold n other, getAll]
  intro n hn hother
  rw [Text.sameFold, beq_iff_eq] at hn hother
  rw [Text.sameFold, ← hn, hother, beq_self_eq_true] at hname
  cases hname

/-- The items that the headers of a name list. -/
def listed (h : Headers) (name : String) : List String :=
  (h.getAll name).flatMap (Text.listItems ',')

private theorem mergeValues_eq (present values : List String) :
    mergeValues present values = keepNew Text.sameFold present values := rfl

/-- The items that the first header of a name lists. -/
def items (h : Headers) (name : String) : List String :=
  ((h.get? name).map (Text.listItems ',')).getD []

theorem Distinct.items (hh : h.Distinct) (name : String) : h.items name = h.listed name := by
  rw [listed, hh.getAll, Headers.items]
  cases h.get? name <;> simp

private theorem isItem_of_mem_items {item : String} (hitem : item ∈ h.items name) :
    Text.IsItem ',' item.toList := by
  rw [items] at hitem
  cases hget : h.get? name with
  | none =>
    rw [hget] at hitem
    cases hitem
  | some value =>
    rw [hget] at hitem
    exact Text.isItem_of_mem_listItems hitem

private theorem listItems_merged (hvalues : ∀ value ∈ values, Text.IsItem ',' value.toList) :
    Text.listItems ',' (Text.joinWith ", " (mergeValues (h.items name) values)) =
      mergeValues (h.items name) values := by
  apply Text.listItems_joinWith
  intro item hitem
  rw [mergeValues_eq] at hitem
  rcases mem_of_mem_keepNew hitem with hold | hnew
  · exact isItem_of_mem_items hold
  · exact hvalues item hnew

theorem items_addValues (hvalues : ∀ value ∈ values, Text.IsItem ',' value.toList)
    (hother : Text.sameFold name other) :
    (h.addValues name values).items other = mergeValues (h.items name) values := by
  rw [items, addValues, get?_set, if_pos hother, Option.map_some, Option.getD_some]
  exact listItems_merged hvalues

theorem addValues_addValues (hvalues : ∀ value ∈ values, Text.IsItem ',' value.toList) :
    (h.addValues name values).addValues name values = h.addValues name values := by
  have hagain : mergeValues (mergeValues (h.items name) values) values =
      mergeValues (h.items name) values := keepNew_again fun _ => beq_self_eq_true _
  have hset (h : Headers) : h.addValues name values =
      h.set name (Text.joinWith ", " (mergeValues (h.items name) values)) := rfl
  rw [hset (h.addValues name values), items_addValues hvalues (beq_self_eq_true _), hagain, hset h,
    set_set]

theorem listed_addValues (hh : h.Distinct)
    (hvalues : ∀ value ∈ values, Text.IsItem ',' value.toList) :
    (h.addValues name values).listed name = mergeValues (h.listed name) values := by
  have hset : h.addValues name values =
      h.set name (Text.joinWith ", " (mergeValues (h.items name) values)) := rfl
  rw [← hh.items, listed, hset, getAll_set, List.flatMap_singleton, listItems_merged hvalues]

end Switchyard.Headers
