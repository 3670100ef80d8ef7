import Switchyard.Regex.Spans
/-!
# Expressions and the texts between places

Which texts stand between the places of a text that an expression leads from and to. In a row that
goes on to the end of the text, each expression takes up a part of what is left
(`Regex.spans_seqs_cons_iff`), and one that begins with the mark of the start takes up all of it
(`Regex.isMatch_anchored_iff`).
-/

namespace Switchyard.Regex

variable {s : List Char} {i j : Nat}

/-- Between a place of a text and another one behind it stands a text. -/
def Between (s : List Char) (i j : Nat) (a : List Char) : Prop := a <+: s.drop i ∧ j = i + a.length

theorem between_nil : Between s i j [] ↔ j = i := by
  simp [Between]

theorem Between.le {a : List Char} (h : Between s i j a) (hi : i ≤ s.length) : j ≤ s.length := by
  have hlength := h.1.length_le
  rw [List.length_drop] at hlength
  have hj := h.2
  omega

theorem between_append {a b : List Char} :
    Between s i j (a ++ b) ↔ ∃ k, Between s i k a ∧ Between s k j b := by
  constructor
  · intro h
    obtain ⟨hread, hj⟩ := h
    obtain ⟨rest, hrest⟩ := hread
    refine ⟨i + a.length, ⟨⟨b ++ rest, by rw [← List.append_assoc, hrest]⟩, rfl⟩, ⟨rest, ?_⟩, ?_⟩
    · rw [← List.drop_drop, ← hrest, List.append_assoc, List.drop_left]
    · rw [hj, List.length_append, Nat.add_assoc]
  · intro h
    obtain ⟨k, ⟨⟨rest, hrest⟩, rfl⟩, ⟨⟨rest', hrest'⟩, rfl⟩⟩ := h
    have hdrop : rest = s.drop (i + a.length) := by
      rw [← List.drop_drop, ← hrest, List.drop_left]
    refine ⟨⟨rest', ?_⟩, ?_⟩
    · rw [List.append_assoc, hrest', ← hdrop, hrest]
    · rw [List.length_append, Nat.add_assoc]

theorem between_singleton {c : Char} : Between s i j [c] ↔ s[i]? = some c ∧ j = i + 1 := by
  rw [Between, List.length_singleton, ← List.head?_drop]
  cases s.drop i with
  | nil => simp
  | cons d rest => simp [eq_comm]

theorem spans_set_iff {chars : CharSet} :
    Spans (.ofText s) (set chars) i j ↔ ∃ c, chars.contains c ∧ Between s i j [c] := by
  rw [Spans, Subject.next?, Subject.ofText, List.getElem?_toArray]
  cases hc : s[i]? with
  | none => simp [between_singleton, hc]
  | some c =>
    simp only [between_singleton, hc, Option.any_some, Option.some.injEq]
    constructor
    · intro h
      exact ⟨c, h.1, rfl, h.2⟩
    · intro h
      obtain ⟨d, hd, rfl, hj⟩ := h
      exact ⟨hd, hj⟩

theorem many_set_iff {chars : CharSet} :
    Many (Spans (.ofText s) (set chars)) i j ↔
      ∃ a : List Char, (∀ c ∈ a, chars.contains c) ∧ Between s i j a := by
  constructor
  · intro h
    induction h with
    | none => exact ⟨[], by simp, between_nil.mpr rfl⟩
    | @step i k j first rest ih =>
      obtain ⟨a, ha, hkj⟩ := ih
      obtain ⟨c, hc, hik⟩ := spans_set_iff.mp first
      refine ⟨c :: a, ?_, between_append.mpr ⟨k, hik, hkj⟩⟩
      intro d hd
      cases List.mem_cons.mp hd with
      | inl h => exact h ▸ hc
      | inr h => exact ha d h
  · intro h
    obtain ⟨a, ha, hij⟩ := h
    induction a generalizing i with
    | nil =>
      rw [between_nil.mp hij]
      exact .none
    | cons c a ih =>
      obtain ⟨k, hik, hkj⟩ := (between_append (a := [c])).mp hij
      have hc : chars.contains c := ha c List.mem_cons_self
      exact .step (spans_set_iff.mpr ⟨c, hc, hik⟩)
        (ih (fun d hd => ha d (List.mem_cons_of_mem _ hd)) hkj)

theorem spans_seqs_cons {t : Subject} {r : Regex} {rs : List Regex} :
    Spans t (seqs (r :: rs)) i j ↔ ∃ k, Spans t r i k ∧ Spans t (seqs rs) k j := by
  cases rs with
  | nil => simp [seqs, Spans]
  | cons r' rs => rfl

/-- An expression in front of others that take up all that is left of a text. -/
theorem spans_seqs_cons_iff {r : Regex} {rs : List Regex} {Takes TakesRest : List Char → Prop}
    (hi : i ≤ s.length)
    (hfirst : ∀ k, Spans (.ofText s) r i k ↔ ∃ a, Takes a ∧ Between s i k a)
    (hrest : ∀ k ≤ s.length, Spans (.ofText s) (seqs rs) k j ↔
      TakesRest (s.drop k) ∧ j = s.length) :
    Spans (.ofText s) (seqs (r :: rs)) i j ↔
      (∃ a b, s.drop i = a ++ b ∧ Takes a ∧ TakesRest b) ∧ j = s.length := by
  have hdrop {a b : List Char} (h : s.drop i = a ++ b) : s.drop (i + a.length) = b := by
    rw [← List.drop_drop, h, List.drop_left]
  rw [spans_seqs_cons]
  constructor
  · intro h
    obtain ⟨k, hik, hkj⟩ := h
    obtain ⟨a, ha, hbetween⟩ := (hfirst k).mp hik
    obtain ⟨hb, hj⟩ := (hrest k (hbetween.le hi)).mp hkj
    obtain ⟨⟨b, hab⟩, rfl⟩ := hbetween
    rw [hdrop hab.symm] at hb
    exact ⟨⟨a, b, hab.symm, ha, hb⟩, hj⟩
  · intro h
    obtain ⟨⟨a, b, hab, ha, hb⟩, hj⟩ := h
    have hbetween : Between s i (i + a.length) a := ⟨⟨b, hab.symm⟩, rfl⟩
    rw [← hdrop hab] at hb
    exact ⟨_, (hfirst _).mpr ⟨a, ha, hbetween⟩, (hrest _ (hbetween.le hi)).mpr ⟨hb, hj⟩⟩

theorem spans_textEnd_iff (hi : i ≤ s.length) :
    Spans (.ofText s) (.assert .textEnd) i j ↔ s.drop i = [] ∧ j = s.length := by
  change ((s.toArray[i]?).isNone = true ∧ j = i) ↔ _
  rw [List.getElem?_toArray, Option.isNone_iff_eq_none, List.getElem?_eq_none_iff,
    List.drop_eq_nil_iff]
  omega

theorem eq_zero_of_spans_textStart (h : Spans (.ofText s) (.assert .textStart) i j)
    (hi : i ≤ s.length) : i = 0 ∧ j = 0 := by
  obtain ⟨hstart, rfl⟩ := h
  cases j with
  | zero => exact ⟨rfl, rfl⟩
  | succ j =>
    have hnone : (s.toArray[j]?).isNone = true := hstart
    rw [List.getElem?_toArray, Option.isNone_iff_eq_none, List.getElem?_eq_none_iff] at hnone
    omega

/-- Behind the mark of the start, a row that goes on to the end takes up all of the text. -/
theorem isMatch_anchored_iff {rs : List Regex} {Takes : List Char → Prop}
    (h : ∀ i j, i ≤ s.length → (Spans (.ofText s) (seqs rs) i j ↔
      Takes (s.drop i) ∧ j = s.length)) :
    (seqs (.assert .textStart :: rs)).isMatch s ↔ Takes s := by
  rw [isMatch_iff]
  constructor
  · intro hmatch
    obtain ⟨i, j, hi, hspans⟩ := hmatch
    obtain ⟨k, hstart, hrest⟩ := spans_seqs_cons.mp hspans
    obtain ⟨-, rfl⟩ := eq_zero_of_spans_textStart hstart hi
    exact ((h 0 j (Nat.zero_le _)).mp hrest).1
  · intro htakes
    have hrest := (h 0 s.length (Nat.zero_le _)).mpr ⟨htakes, rfl⟩
    exact ⟨0, s.length, Nat.zero_le _, spans_seqs_cons.mpr ⟨0, ⟨rfl, rfl⟩, hrest⟩⟩

end Switchyard.Regex
