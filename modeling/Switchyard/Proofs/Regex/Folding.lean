import Mathlib.Tactic.SplitIfs
import Switchyard.Regex.Basic
/-!
# Letter case in sets of characters

A set that is closed under letter case has, of the ASCII characters, those that are equal to one of
its own up to case (`CharSet.foldClosure_singleton_contains`). Two characters elsewhere fold to ASCII
letters, so the closure of such a letter may go beyond ASCII.
-/

namespace Switchyard

namespace Text

def IsAscii (s : List Char) : Prop := ∀ c ∈ s, c.toNat < 0x80

instance (s : List Char) : Decidable (IsAscii s) :=
  decidable_of_iff (s.all fun c => c.toNat < 0x80) (by simp [IsAscii])

theorem IsAscii.sublist {s t : List Char} (ht : IsAscii t) (h : s.Sublist t) : IsAscii s :=
  fun c hc => ht c (h.subset hc)

private theorem toNat_toLower (c : Char) :
    c.toLower.toNat = if 0x41 ≤ c.toNat ∧ c.toNat ≤ 0x5A then c.toNat + 0x20 else c.toNat := by
  by_cases hupper : c.val ≥ 'A'.val ∧ c.val ≤ 'Z'.val
  · have hlower : c.toLower.val = c.val + ('a'.val - 'A'.val) := congrArg Char.val (dif_pos hupper)
    have hrange : 0x41 ≤ c.toNat ∧ c.toNat ≤ 0x5A := hupper
    have hsum : c.toLower.toNat = (c.toNat + 0x20) % 2 ^ 32 := by
      rw [Char.toNat, hlower, UInt32.toNat_add]
      rfl
    rw [hsum, if_pos hrange]
    omega
  · have hrange : ¬ (0x41 ≤ c.toNat ∧ c.toNat ≤ 0x5A) := hupper
    rw [if_neg hrange, toLower_eq_self hupper]

/-- Characters are equal up to case when one is the lower case of the other. -/
private theorem toLower_eq_toLower_iff {c d : Char} : d.toLower = c.toLower ↔ d.toNat = c.toNat ∨
    (0x41 ≤ c.toNat ∧ c.toNat ≤ 0x5A ∧ d.toNat = c.toNat + 0x20) ∨
    (0x41 ≤ d.toNat ∧ d.toNat ≤ 0x5A ∧ c.toNat = d.toNat + 0x20) := by
  rw [← Char.toNat_inj, toNat_toLower, toNat_toLower]
  split_ifs <;> omega

/-- The folds of ASCII characters and to ASCII characters. -/
def asciiFoldPairs : List (Nat × Nat) :=
  (List.range 26).map (fun i => (0x41 + i, 0x61 + i)) ++ [(0x17F, 0x73), (0x212A, 0x6B)]

private theorem filter_foldPairs :
    foldPairs.filter (fun p => decide (p.1 < 0x80) || decide (p.2 < 0x80)) = asciiFoldPairs := by
  decide +kernel

private theorem filter_foldPairs_eq {p : Nat × Nat → Bool}
    (hp : ∀ q, p q → q.1 < 0x80 ∨ q.2 < 0x80) : foldPairs.filter p = asciiFoldPairs.filter p := by
  rw [← filter_foldPairs, List.filter_filter]
  apply List.filter_congr
  intro q _
  cases h : p q with
  | false => simp
  | true => simpa using hp q h

private theorem mem_foldPairs_iff {n f : Nat} (h : n < 0x80 ∨ f < 0x80) :
    (n, f) ∈ foldPairs ↔ (0x41 ≤ n ∧ n ≤ 0x5A ∧ f = n + 0x20) ∨ (n = 0x17F ∧ f = 0x73) ∨
      (n = 0x212A ∧ f = 0x6B) := by
  have hfilter : (n, f) ∈ foldPairs ↔ (n, f) ∈ asciiFoldPairs := by
    rw [← filter_foldPairs, List.mem_filter]
    simp [h]
  rw [hfilter, asciiFoldPairs, List.mem_append, List.mem_map]
  simp only [List.mem_range, List.mem_cons, List.not_mem_nil, or_false, Prod.mk.injEq]
  constructor
  · intro h
    obtain ⟨i, hi, rfl, rfl⟩ | h := h
    · omega
    · exact .inr h
  · intro h
    obtain h | h := h
    · exact .inl ⟨n - 0x41, by omega⟩
    · exact .inr h

end Text

namespace CharSet

open Text

private theorem hasCode_append {a b : List (Nat × Nat)} {m : Nat} :
    hasCode ⟨a ++ b⟩ m ↔ hasCode ⟨a⟩ m ∨ hasCode ⟨b⟩ m := by
  simp only [hasCode, List.any_append, Bool.or_eq_true]

private theorem hasCode_points {l : List Nat} {m : Nat} :
    hasCode ⟨l.map fun n => (n, n)⟩ m ↔ m ∈ l := by
  have hone (n : Nat) : n ≤ m ∧ m ≤ n ↔ n = m := by omega
  simp [hasCode, hone]

private theorem hasCode_singleton {c : Char} {m : Nat} : (singleton c).hasCode m ↔ m = c.toNat :=
  (hasCode_points (l := [c.toNat])).trans List.mem_singleton

/-- The fold of a member is in the closure, and all that folds to it. -/
private theorem hasCode_foldClosure {s : CharSet} {m : Nat} :
    s.foldClosure.hasCode m ↔ s.hasCode m ∨
    ∃ n f, (n, f) ∈ foldPairs ∧ (s.hasCode n ∨ s.hasCode f) ∧ (m = f ∨ (m, f) ∈ foldPairs) := by
  have hfolds (f : Nat) : f ∈ ((foldPairs.filter fun p => s.hasCode p.1 || s.hasCode p.2).map
      (·.2)) ↔ ∃ n, (n, f) ∈ foldPairs ∧ (s.hasCode n ∨ s.hasCode f) := by
    simp
  have hothers (l : List (Nat × Nat)) :
      hasCode ⟨l.map fun p => (p.1, p.1)⟩ m ↔ ∃ f, (m, f) ∈ l := by
    have hpoints : l.map (fun p => (p.1, p.1)) = (l.map Prod.fst).map fun n => (n, n) := by simp
    rw [hpoints, hasCode_points]
    simp
  rw [foldClosure, hasCode_append, hasCode_append, hasCode_points, hothers, or_assoc, hfolds]
  simp only [List.mem_filter, List.contains_iff_mem, hfolds]
  constructor
  · intro h
    obtain h | ⟨n, hn, hs⟩ | ⟨f, hf, n, hn, hs⟩ := h
    · exact .inl h
    · exact .inr ⟨n, m, hn, hs, .inl rfl⟩
    · exact .inr ⟨n, f, hn, hs, .inr hf⟩
  · intro h
    obtain h | ⟨n, f, hn, hs, rfl | hf⟩ := h
    · exact .inl h
    · exact .inr (.inl ⟨n, hn, hs⟩)
    · exact .inr (.inr ⟨f, hf, n, hn, hs⟩)

/-- Among ASCII characters, the closure of one has those equal to it up to case. -/
theorem foldClosure_singleton_contains {c d : Char} (hc : c.toNat < 0x80) (hd : d.toNat < 0x80) :
    (singleton c).foldClosure.contains d ↔ d.toLower = c.toLower := by
  rw [contains, hasCode_foldClosure, toLower_eq_toLower_iff]
  simp only [hasCode_singleton]
  constructor
  · intro h
    obtain h | ⟨n, f, hn, hs, h⟩ := h
    · exact .inl h
    · rw [mem_foldPairs_iff (by omega)] at hn
      obtain rfl | h := h
      · omega
      · rw [mem_foldPairs_iff (.inl hd)] at h
        omega
  · intro h
    obtain h | h | h := h
    · exact .inl h
    · exact .inr ⟨c.toNat, d.toNat, (mem_foldPairs_iff (.inl hc)).mpr (.inl h), .inl rfl, .inl rfl⟩
    · have hpair : (d.toNat, c.toNat) ∈ foldPairs := (mem_foldPairs_iff (.inl hd)).mpr (.inl h)
      exact .inr ⟨d.toNat, c.toNat, hpair, .inr rfl, .inr hpair⟩

/-- What a code point and those that fold to it fold to, for ASCII. -/
private def foldsOf (n : Nat) : List Nat :=
  (asciiFoldPairs.filter fun p => hasCode ⟨[(n, n)]⟩ p.1 || hasCode ⟨[(n, n)]⟩ p.2).map (·.2)

theorem length_foldClosure_singleton {c : Char} (hc : c.toNat < 0x80) :
    (singleton c).foldClosure.ranges.length ≤ 5 := by
  have hbound : ∀ n < 0x80, (∀ f ∈ foldsOf n, f < 0x80) ∧
      1 + (foldsOf n).length +
        (asciiFoldPairs.filter fun p => (foldsOf n).contains p.2).length ≤ 5 := by
    decide +kernel
  obtain ⟨hascii, hlength⟩ := hbound c.toNat hc
  have hfolds : (foldPairs.filter fun p => (singleton c).hasCode p.1 ||
      (singleton c).hasCode p.2).map (·.2) = foldsOf c.toNat := by
    rw [filter_foldPairs_eq]
    · rfl
    · intro q hq
      simp only [Bool.or_eq_true, hasCode_singleton] at hq
      omega
  have hothers : (foldPairs.filter fun p => (foldsOf c.toNat).contains p.2) =
      asciiFoldPairs.filter fun p => (foldsOf c.toNat).contains p.2 :=
    filter_foldPairs_eq fun q hq => .inr (hascii q.2 (List.contains_iff_mem.mp hq))
  rw [foldClosure, List.length_append, List.length_append, hfolds, hothers]
  simpa only [List.length_map, singleton, List.length_singleton] using hlength

end CharSet

end Switchyard
