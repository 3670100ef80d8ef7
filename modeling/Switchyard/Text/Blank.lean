/-!
# Blanks

The white space of Unicode, and texts trimmed of it at either end.
-/

namespace Switchyard.Text

/-- White space in the sense of the Unicode property of that name: 25 characters. -/
def isBlank (c : Char) : Bool :=
  (9 ≤ c.val && c.val ≤ 13) || c.val == 0x20 || c.val == 0x85 || c.val == 0xA0 ||
  c.val == 0x1680 || (0x2000 ≤ c.val && c.val ≤ 0x200A) || c.val == 0x2028 ||
  c.val == 0x2029 || c.val == 0x202F || c.val == 0x205F || c.val == 0x3000

theorem isBlank_of_graphic {c : Char} (hfirst : 0x20 < c.val) (hlast : c.val < 0x7F) :
    isBlank c = false := by
  rw [← Bool.not_eq_true]
  simp only [isBlank, Bool.or_eq_true, Bool.and_eq_true, decide_eq_true_eq, beq_iff_eq,
    ← UInt32.toNat_inj, UInt32.le_iff_toNat_le, UInt32.lt_iff_toNat_lt] at hfirst hlast ⊢
  simp only [UInt32.reduceToNat] at hfirst hlast ⊢
  omega

def dropEndWhile (p : Char → Bool) (s : List Char) : List Char :=
  (s.reverse.dropWhile p).reverse

def trimWhile (p : Char → Bool) (s : List Char) : List Char :=
  dropEndWhile p (s.dropWhile p)

def trim (s : List Char) : List Char := trimWhile isBlank s

theorem trim_eq_self_of_ends {s : List Char} (hfirst : ∀ c, s.head? = some c → isBlank c = false)
    (hlast : ∀ c, s.getLast? = some c → isBlank c = false) : trim s = s := by
  have hdrop {l : List Char} (hl : ∀ c, l.head? = some c → isBlank c = false) :
      l.dropWhile isBlank = l := by
    cases l with
    | nil => rfl
    | cons c l => rw [List.dropWhile_cons_of_neg (by simp [hl c rfl])]
  have hrev : s.reverse.dropWhile isBlank = s.reverse := by
    apply hdrop
    rw [List.head?_reverse]
    exact hlast
  rw [trim, trimWhile, dropEndWhile, hdrop hfirst, hrev, List.reverse_reverse]

theorem trim_eq_self {s : List Char} (hs : ∀ c ∈ s, isBlank c = false) : trim s = s :=
  trim_eq_self_of_ends (fun c hc => hs c (List.mem_of_head? hc))
    fun c hc => hs c (List.mem_of_getLast? hc)

theorem dropEndWhile_cons_of_neg {p : Char → Bool} {c : Char} (hc : p c = false) (s : List Char) :
    dropEndWhile p (c :: s) = c :: dropEndWhile p s := by
  rw [dropEndWhile, dropEndWhile, List.reverse_cons, List.dropWhile_append]
  split
  · next hnil =>
    rw [List.dropWhile_cons_of_neg (by simp [hc]), List.isEmpty_iff.mp hnil]
    rfl
  · rw [List.reverse_append]
    rfl

private theorem dropEndWhile_append {p : Char → Bool} {a : List Char} (ha : ∀ c ∈ a, p c = false)
    (s : List Char) : dropEndWhile p (a ++ s) = a ++ dropEndWhile p s := by
  induction a with
  | nil => rfl
  | cons c a ih =>
    rw [List.forall_mem_cons] at ha
    rw [List.cons_append, dropEndWhile_cons_of_neg ha.1, ih ha.2]
    rfl

theorem trim_append {a : List Char} (hne : a ≠ []) (ha : ∀ c ∈ a, isBlank c = false)
    (s : List Char) : trim (a ++ s) = a ++ dropEndWhile isBlank s := by
  cases a with
  | nil => exact absurd rfl hne
  | cons c a =>
    rw [trim, trimWhile, List.cons_append,
      List.dropWhile_cons_of_neg (by simp [ha c List.mem_cons_self])]
    exact dropEndWhile_append ha s

theorem dropEndWhile_sublist (p : Char → Bool) (s : List Char) : (dropEndWhile p s).Sublist s := by
  rw [← List.reverse_sublist, dropEndWhile, List.reverse_reverse]
  exact List.dropWhile_sublist p

theorem trim_sublist (s : List Char) : (trim s).Sublist s :=
  (dropEndWhile_sublist isBlank _).trans (List.dropWhile_sublist isBlank)

theorem count_trim {c : Char} (hc : isBlank c = false) (s : List Char) :
    (trim s).count c = s.count c := by
  have hdrop (l : List Char) : (l.dropWhile isBlank).count c = l.count c := by
    have hnone : (l.takeWhile isBlank).count c = 0 := by
      rw [List.count_eq_zero]
      intro h
      rw [List.all_eq_true.mp List.all_takeWhile c h] at hc
      cases hc
    rw [← List.takeWhile_append_dropWhile (p := isBlank) (l := l), List.count_append, hnone]
    simp
  rw [trim, trimWhile, dropEndWhile, List.count_reverse, hdrop, List.count_reverse, hdrop]

theorem mem_trim_or_isBlank {s : List Char} {c : Char} (hc : c ∈ s) :
    c ∈ trim s ∨ isBlank c := by
  have mem_dropWhile {l : List Char} (h : c ∈ l) :
      c ∈ l.dropWhile isBlank ∨ isBlank c := by
    rw [← List.takeWhile_append_dropWhile (p := isBlank) (l := l)] at h
    rcases List.mem_append.mp h with h | h
    · exact .inr (List.all_eq_true.mp List.all_takeWhile c h)
    · exact .inl h
  rcases mem_dropWhile hc with h | h
  · rcases mem_dropWhile (List.mem_reverse.mpr h) with h | h
    · exact .inl (List.mem_reverse.mpr h)
    · exact .inr h
  · exact .inr h

def trimmed (s : String) : String := String.ofList (trim s.toList)

def isBlankText (s : List Char) : Bool := s.all isBlank

end Switchyard.Text
