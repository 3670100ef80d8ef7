import Switchyard.Cors.Policy
import Switchyard.Proofs.Distinct
/-!
# Merging the lists of policies

The lists of two policies are merged by their entries without regard to letter case, or by the texts
of their patterns; of the same entries the first is kept. The merging is associative, entries in their
order (`CorsPolicy.combineLists_assoc`, `CorsPolicy.combinePatterns_assoc`), and what it leaves out
allows nothing more (`CorsPolicy.covers_combineLists`, `CorsPolicy.any_combinePatterns`).
-/

namespace Switchyard

namespace CorsPolicy

variable {a b c : Option (List String)} {q : String → Bool}

@[simp] theorem combineLists_none_left : combineLists none b = b := by cases b <;> rfl

@[simp] theorem combineLists_none_right : combineLists a none = a := by cases a <;> rfl

theorem dedupFold_eq (entries : List String) :
    dedupFold entries = keepNew Text.sameFold [] entries := rfl

theorem lower_of_sameFold {x y : String} (h : Text.sameFold x y) : Text.lower x = Text.lower y :=
  eq_of_beq h

theorem sameFold_congr (x y z : String) (h : Text.sameFold x y) :
    Text.sameFold x z = Text.sameFold y z := by
  rw [Text.sameFold, Text.sameFold, lower_of_sameFold h]

private theorem wildcard_mem_dedupFold {entries : List String} (h : wildcard ∈ dedupFold entries) :
    wildcard ∈ entries := (mem_of_mem_keepNew h).resolve_left List.not_mem_nil

private theorem dedupFold_append_left (x y : List String) :
    dedupFold (dedupFold x ++ y) = dedupFold (x ++ y) := by
  rw [dedupFold_eq, keepNew_append, dedupFold_eq, keepNew_keepNew sameFold_congr, dedupFold_eq,
    keepNew_append]
  rfl

private theorem dedupFold_append_right (x y : List String) :
    dedupFold (x ++ dedupFold y) = dedupFold (x ++ y) := by
  rw [dedupFold_eq, keepNew_append, dedupFold_eq, keepNew_keepNew sameFold_congr, dedupFold_eq,
    keepNew_append]
  rfl

/-- The entries without repetitions, or the wildcard alone if it is one of them. -/
def absorbed (entries : List String) : List String :=
  if wildcard ∈ entries then [wildcard] else dedupFold entries

theorem combineLists_some (x y : List String) :
    combineLists (some x) (some y) = some (absorbed (x ++ y)) := by
  rw [combineLists, absorbed]
  by_cases h : wildcard ∈ x ++ y
  · rw [if_pos h, if_pos (List.contains_iff_mem.mpr h)]
  · rw [if_neg h, if_neg (by rwa [List.contains_iff_mem])]

private theorem wildcard_mem_absorbed {entries : List String} :
    wildcard ∈ absorbed entries ↔ wildcard ∈ entries := by
  rw [absorbed]
  split
  · next h => simp [h]
  · next h => exact ⟨wildcard_mem_dedupFold, fun hmem => absurd hmem h⟩

/-- Absorbing goes through a function of lists that keeps the wildcard and the first entries. -/
private theorem absorbed_congr {x y : List String} (hwild : wildcard ∈ x ↔ wildcard ∈ y)
    (hdedup : wildcard ∉ y → dedupFold x = dedupFold y) : absorbed x = absorbed y := by
  rw [absorbed, absorbed]
  by_cases h : wildcard ∈ y
  · rw [if_pos h, if_pos (hwild.mpr h)]
  · rw [if_neg h, if_neg fun hx => h (hwild.mp hx), hdedup h]

private theorem absorbed_append_left (x y : List String) :
    absorbed (absorbed x ++ y) = absorbed (x ++ y) := by
  apply absorbed_congr
  · simp [wildcard_mem_absorbed]
  · intro h
    rw [List.mem_append, not_or] at h
    rw [absorbed, if_neg h.1, dedupFold_append_left]

private theorem absorbed_append_right (x y : List String) :
    absorbed (x ++ absorbed y) = absorbed (x ++ y) := by
  apply absorbed_congr
  · simp [wildcard_mem_absorbed]
  · intro h
    rw [List.mem_append, not_or] at h
    rw [absorbed, if_neg h.2, dedupFold_append_right]

theorem combineLists_assoc (a b c : Option (List String)) :
    combineLists (combineLists a b) c = combineLists a (combineLists b c) := by
  cases a with
  | none => simp
  | some x =>
    cases b with
    | none => simp
    | some y =>
      cases c with
      | none => simp
      | some z =>
        simp only [combineLists_some, absorbed_append_left, absorbed_append_right,
          List.append_assoc]

theorem wildcard_mem_combineLists :
    wildcard ∈ (combineLists a b).getD [] ↔ wildcard ∈ a.getD [] ∨ wildcard ∈ b.getD [] := by
  cases a with
  | none => simp
  | some x =>
    cases b with
    | none => simp
    | some y => simp [combineLists_some, wildcard_mem_absorbed]

/-- The wildcard is among the entries, or one that has a property. -/
def Covers (entries : List String) (q : String → Bool) : Prop :=
  wildcard ∈ entries ∨ entries.any q

theorem ne_nil_iff_covers {entries : List String} :
    entries ≠ [] ↔ Covers entries fun _ => true := by
  cases entries <;> simp [Covers]

private theorem covers_absorbed (hq : ∀ x y, Text.sameFold x y → q x = q y)
    {entries : List String} : Covers (absorbed entries) q ↔ Covers entries q := by
  by_cases hwild : wildcard ∈ entries
  · exact iff_of_true (.inl (wildcard_mem_absorbed.mpr hwild)) (.inl hwild)
  · have hany : (dedupFold entries).any q = entries.any q := by
      rw [dedupFold_eq, any_keepNew hq]
      rfl
    rw [Covers, Covers, wildcard_mem_absorbed, absorbed, if_neg hwild, hany]

/-- The union of two lists covers what one of them covers, in any letter case. -/
theorem covers_combineLists (hq : ∀ x y, Text.sameFold x y → q x = q y) :
    Covers ((combineLists a b).getD []) q ↔ Covers (a.getD []) q ∨ Covers (b.getD []) q := by
  cases a with
  | none => simp [Covers]
  | some x =>
    cases b with
    | none => simp [Covers]
    | some y =>
      rw [combineLists_some, Option.getD_some, covers_absorbed hq]
      simp only [Covers, List.mem_append, List.any_append, Bool.or_eq_true, Option.getD_some]
      exact or_or_or_comm

variable {s t u : Option (List OriginPattern)} {p : OriginPattern → Bool}

@[simp] theorem combinePatterns_none_left : combinePatterns none t = t := by cases t <;> rfl

@[simp] theorem combinePatterns_none_right : combinePatterns s none = s := by cases s <;> rfl

def sameRaw (x y : OriginPattern) : Bool := x.raw == y.raw

private theorem eq_of_sameRaw {x y : OriginPattern} (h : sameRaw x y) : x = y :=
  OriginPattern.eq_of_raw (eq_of_beq h)

theorem combinePatterns_some (x y : List OriginPattern) :
    combinePatterns (some x) (some y) = some (keepNew sameRaw x y) := rfl

theorem combinePatterns_assoc (s t u : Option (List OriginPattern)) :
    combinePatterns (combinePatterns s t) u = combinePatterns s (combinePatterns t u) := by
  cases s with
  | none => simp
  | some x =>
    cases t with
    | none => simp
    | some y =>
      cases u with
      | none => simp
      | some z =>
        have hcongr (x y z : OriginPattern) (h : sameRaw x y) : sameRaw x z = sameRaw y z := by
          rw [eq_of_sameRaw h]
        simp only [combinePatterns_some, keepNew_keepNew hcongr]

theorem any_combinePatterns : ((combinePatterns s t).getD []).any p =
    ((s.getD []).any p || (t.getD []).any p) := by
  cases s with
  | none => simp
  | some x =>
    cases t with
    | none => simp
    | some y => exact any_keepNew fun x y h => by rw [eq_of_sameRaw h]

@[simp] theorem combineAges_none_left {n : Option Nat} : combineAges none n = n := by
  cases n <;> rfl

@[simp] theorem combineAges_none_right {n : Option Nat} : combineAges n none = n := by
  cases n <;> rfl

theorem combineAges_eq (m n : Option Nat) : combineAges m n = (m.toList ++ n.toList).min? := by
  cases m <;> cases n <;> rfl

theorem combineAges_assoc (l m n : Option Nat) :
    combineAges (combineAges l m) n = combineAges l (combineAges m n) := by
  cases l with
  | none => simp
  | some x =>
    cases m with
    | none => simp
    | some y => cases n <;> simp [combineAges, Nat.min_assoc]

theorem combineAges_comm (m n : Option Nat) : combineAges m n = combineAges n m := by
  cases m with
  | none => simp
  | some x => cases n <;> simp [combineAges, Nat.min_comm]

end CorsPolicy

end Switchyard
