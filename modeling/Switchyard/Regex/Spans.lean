import Switchyard.Regex.Basic
/-!
# What expressions match

The relation that an expression sets up between the places of a text, and that both ways to match
compute it: reachable places (`mem_ends`) and the search for the preferred match (`isSome_run`). So
there is a preferred match exactly when the expression matches (`isSome_search`).
-/

namespace Switchyard

private theorem Subject.lt_of_next? {t : Subject} {i : Nat} {p : Char → Bool}
    (h : (t.next? i).any p) : i < t.size := by
  simp only [Subject.next?, Option.any_eq_true] at h
  obtain ⟨c, hc, -⟩ := h
  exact (Array.getElem?_eq_some_iff.1 hc).1

namespace Regex

/-- Any number of steps of a relation. -/
inductive Many (R : Nat → Nat → Prop) : Nat → Nat → Prop where
  | none {i : Nat} : Many R i i
  | step {i j k : Nat} : R i j → Many R j k → Many R i k

def Spans (t : Subject) : Regex → Nat → Nat → Prop
  | empty, i, j => j = i
  | set chars, i, j => (t.next? i).any chars.contains ∧ j = i + 1
  | assert condition, i, j => condition.holds (t.last? i) (t.next? i) ∧ j = i
  | seq r s, i, k => ∃ j, Spans t r i j ∧ Spans t s j k
  | alt r s, i, j => Spans t r i j ∨ Spans t s i j
  | star _ r, i, j => Many (Spans t r) i j
  | group _ r, i, j => Spans t r i j

private theorem Many.forward {R : Nat → Nat → Prop} {n i j : Nat}
    (hR : ∀ {i j}, R i j → i ≤ n → i ≤ j ∧ j ≤ n) (h : Many R i j) (hi : i ≤ n) :
    i ≤ j ∧ j ≤ n := by
  induction h with
  | none => omega
  | step h _ ih =>
    have := hR h hi
    have := ih this.2
    omega

private theorem Spans.forward {t : Subject} {r : Regex} {i j : Nat} (h : Spans t r i j)
    (hi : i ≤ t.size) : i ≤ j ∧ j ≤ t.size := by
  induction r generalizing i j with
  | empty => simp only [Spans] at h; omega
  | set chars =>
    obtain ⟨h, rfl⟩ := h
    have := Subject.lt_of_next? h
    omega
  | assert condition => obtain ⟨-, rfl⟩ := h; omega
  | seq r s ihr ihs =>
    obtain ⟨k, hr, hs⟩ := h
    have := ihr hr hi
    have := ihs hs this.2
    omega
  | alt r s ihr ihs => exact h.elim (ihr · hi) (ihs · hi)
  | star greedy r ih => exact Many.forward (fun h => ih h) h hi
  | group name r ih => exact ih h hi

private theorem size_unmarked (marks : Array Bool) (l : List Nat) :
    (unmarked marks l).2.size = marks.size := by
  induction l generalizing marks with
  | nil => rfl
  | cons i l ih =>
    unfold unmarked
    split
    · simp [ih]
    · exact ih marks

private theorem mem_unmarked {marks : Array Bool} {l : List Nat} {j : Nat} :
    j ∈ (unmarked marks l).1 ↔ j ∈ l ∧ marks[j]? = some false := by
  induction l generalizing marks with
  | nil => simp [unmarked]
  | cons i l ih =>
    unfold unmarked
    split
    · next h =>
      simp only [List.mem_cons, ih, Array.getElem?_setIfInBounds]
      by_cases hj : i = j
      · subst hj; simp [h]
      · have : ¬ j = i := fun h => hj h.symm
        simp [hj, this]
    · next h =>
      simp only [List.mem_cons, ih]
      constructor
      · rintro ⟨h1, h2⟩; exact ⟨.inr h1, h2⟩
      · rintro ⟨rfl | h1, h2⟩
        · exact absurd h2 h
        · exact ⟨h1, h2⟩

private theorem marks_unmarked {marks : Array Bool} {l : List Nat} {j : Nat} :
    (unmarked marks l).2[j]? = some false ↔ j ∉ l ∧ marks[j]? = some false := by
  induction l generalizing marks with
  | nil => simp [unmarked]
  | cons i l ih =>
    unfold unmarked
    split
    · next h =>
      simp only [List.mem_cons, ih, Array.getElem?_setIfInBounds]
      by_cases hj : i = j
      · subst hj; simp
      · have : ¬ j = i := fun h => hj h.symm
        simp [hj, this]
    · next h =>
      simp only [List.mem_cons, ih]
      constructor
      · rintro ⟨h1, h2⟩
        refine ⟨?_, h2⟩
        rintro (rfl | h3)
        · exact h h2
        · exact h1 h3
      · rintro ⟨h1, h2⟩; exact ⟨fun h3 => h1 (.inr h3), h2⟩

private theorem getElem?_eq_true_iff {marks : Array Bool} {i : Nat} (hi : i < marks.size) :
    marks[i]? = some true ↔ ¬ marks[i]? = some false := by
  rw [Array.getElem?_eq_getElem hi, Option.some.injEq, Option.some.injEq, Bool.not_eq_false]

private theorem marked_unmarked {marks : Array Bool} {l : List Nat} {i : Nat}
    (hi : i < marks.size) :
    (unmarked marks l).2[i]? = some true ↔ marks[i]? = some true ∨ i ∈ (unmarked marks l).1 := by
  rw [getElem?_eq_true_iff (by rw [size_unmarked]; exact hi), marks_unmarked, mem_unmarked,
    getElem?_eq_true_iff hi]
  by_cases h : marks[i]? = some false
  · by_cases h' : i ∈ l
    · exact ⟨fun _ => .inr ⟨h', h⟩, fun _ h'' => h''.1 h'⟩
    · refine ⟨fun h'' => absurd ⟨h', h⟩ h'', ?_⟩
      rintro (h'' | h'')
      · exact absurd h h''
      · exact absurd h''.1 h'
  · exact ⟨fun _ => .inl h, fun _ h'' => h h''.2⟩

def room (marks : Array Bool) : Nat := marks.toList.count false

private theorem room_pos {marks : Array Bool} {i : Nat} (h : marks[i]? = some false) :
    0 < room marks := by
  obtain ⟨hi, h⟩ := Array.getElem?_eq_some_iff.1 h
  exact List.count_pos_iff.2 (h ▸ Array.getElem_mem_toList hi)

private theorem room_unmarked (marks : Array Bool) (l : List Nat) :
    room (unmarked marks l).2 + (unmarked marks l).1.length = room marks := by
  induction l generalizing marks with
  | nil => simp [unmarked]
  | cons i l ih =>
    unfold unmarked
    split
    · next h =>
      have hrest := ih (marks.setIfInBounds i true)
      have hpos := room_pos h
      obtain ⟨hi, h⟩ := Array.getElem?_eq_some_iff.1 h
      have hset : room (marks.setIfInBounds i true) = room marks - 1 := by
        simp only [room, Array.toList_setIfInBounds]
        rw [List.count_set (by simpa using hi)]
        simp [h]
      simp only [List.length_cons]
      omega
    · exact ih marks

/-- Steps that leave a set of places leave it in one of them, and only from where that is possible. -/
private theorem Many.exists_unmarked {R : Nat → Nat → Prop} {P F : Nat → Prop} {i j : Nat}
    (hP : ∀ i j, P i → ¬ F i → R i j → P j) (h : Many R i j) (hi : P i) (hj : ¬ P j) :
    ∃ a b, F a ∧ R a b ∧ ¬ P b ∧ Many R b j := by
  induction h with
  | none => exact absurd hi hj
  | @step i b j h rest ih =>
    by_cases hb : P b
    · exact ih hb hj
    · by_cases hF : F i
      · exact ⟨i, b, hF, h, hb, rest⟩
      · exact absurd (hP i b hi hF h) hb

theorem Many.trans {R : Nat → Nat → Prop} {i j k : Nat} (h : Many R i j) (h' : Many R j k) :
    Many R i k := by
  induction h with
  | none => exact h'
  | step h _ ih => exact .step h (ih h')

/-- A step leads from places of a text to where a relation leads, and not back. -/
private structure Follows (step : List Nat → List Nat) (R : Nat → Nat → Prop) (n : Nat) : Prop where
  forward : ∀ {i j}, R i j → i ≤ n → i ≤ j ∧ j ≤ n
  mem_iff : ∀ l : List Nat, (∀ i ∈ l, i ≤ n) → ∀ j, j ∈ step l ↔ ∃ i ∈ l, R i j

/-- The marks while a relation is spread: the places found last have theirs, and so has all that a step
leads to from another place with a mark. -/
private structure Spreading (R : Nat → Nat → Prop) (n : Nat) (marks : Array Bool)
    (found : List Nat) : Prop where
  size : marks.size = n + 1
  le : ∀ i ∈ found, i ≤ n
  marked : ∀ i ∈ found, marks[i]? = some true
  closed : ∀ i j, i ≤ n → marks[i]? = some true → i ∉ found → R i j → marks[j]? = some true

section Spread

variable {step : List Nat → List Nat} {R : Nat → Nat → Prop} {n i j : Nat} {marks : Array Bool}
  {found : List Nat}

private theorem Spreading.marked_or_free (h : Spreading R n marks found) (hj : j ≤ n) :
    marks[j]? = some true ∨ marks[j]? = some false := by
  have hsize := h.size
  rw [getElem?_eq_true_iff (by omega)]
  exact (Decidable.em _).symm

private theorem Spreading.mem_new (h : Spreading R n marks found) (hstep : Follows step R n) :
    j ∈ (unmarked marks (step found)).1 ↔ (∃ i ∈ found, R i j) ∧ marks[j]? = some false := by
  rw [mem_unmarked, hstep.mem_iff found h.le]

private theorem Spreading.new_le (h : Spreading R n marks found) (hstep : Follows step R n) :
    ∀ i ∈ (unmarked marks (step found)).1, i ≤ n := by
  intro i hi
  obtain ⟨⟨a, ha, hai⟩, -⟩ := (h.mem_new hstep).1 hi
  exact (hstep.forward hai (h.le a ha)).2

private theorem Spreading.marked_new (h : Spreading R n marks found) (hi : i ≤ n) :
    (unmarked marks (step found)).2[i]? = some true ↔
      marks[i]? = some true ∨ i ∈ (unmarked marks (step found)).1 := by
  have hsize := h.size
  exact marked_unmarked (by omega)

private theorem Spreading.next (h : Spreading R n marks found) (hstep : Follows step R n) :
    Spreading R n (unmarked marks (step found)).2 (unmarked marks (step found)).1 where
  size := by rw [size_unmarked, h.size]
  le := h.new_le hstep
  marked i hi := (h.marked_new (h.new_le hstep i hi)).2 (.inr hi)
  closed i j hi hmarked hnot hij := by
    have hj := (hstep.forward hij hi).2
    rw [h.marked_new hj]
    have hold := ((h.marked_new hi).1 hmarked).resolve_right hnot
    by_cases hfound : i ∈ found
    · exact (h.marked_or_free hj).imp_right fun hfree =>
        (h.mem_new hstep).2 ⟨⟨i, hfound, hij⟩, hfree⟩
    · exact .inl (h.closed i j hi hold hfound hij)

/-- On the way from a place found last to one without a mark is one that is found next. -/
private theorem Spreading.exists_new (h : Spreading R n marks found) (hstep : Follows step R n)
    (hi : i ∈ found) (hrun : Many R i j) (hfree : marks[j]? = some false) :
    ∃ b ∈ (unmarked marks (step found)).1, Many R b j := by
  have hclosed : ∀ a b, (a ≤ n ∧ marks[a]? = some true) → a ∉ found → R a b →
      b ≤ n ∧ marks[b]? = some true := fun a b ha hnot hab =>
    ⟨(hstep.forward hab ha.1).2, h.closed a b ha.1 ha.2 hnot hab⟩
  have hj : ¬ (j ≤ n ∧ marks[j]? = some true) := by simp [hfree]
  obtain ⟨a, b, ha, hab, hb, hbj⟩ :=
    Many.exists_unmarked hclosed hrun ⟨h.le i hi, h.marked i hi⟩ hj
  have hbn := (hstep.forward hab (h.le a ha)).2
  have hbfree := (h.marked_or_free hbn).resolve_left fun hmarked => hb ⟨hbn, hmarked⟩
  exact ⟨b, (h.mem_new hstep).2 ⟨⟨a, ha, hab⟩, hbfree⟩, hbj⟩

/-- Spreading from places finds all that any number of steps reach from them and that was not marked
before. -/
private theorem mem_spread (hstep : Follows step R n) {fuel : Nat} (h : Spreading R n marks found)
    (hfuel : room marks ≤ fuel) :
    j ∈ spread step fuel marks found ↔
      j ∈ found ∨ (marks[j]? = some false ∧ ∃ i ∈ found, Many R i j) := by
  induction fuel generalizing marks found j with
  | zero =>
    have hnone : marks[j]? ≠ some false := fun hfree => by
      have := room_pos hfree
      omega
    simp [spread, hnone]
  | succ fuel ih =>
    unfold spread
    simp only
    split
    · next hempty =>
      refine ⟨.inl, fun hreach => hreach.resolve_right fun ⟨hfree, i, hi, hrun⟩ => ?_⟩
      obtain ⟨b, hb, -⟩ := h.exists_new hstep hi hrun hfree
      rw [List.isEmpty_iff.1 hempty] at hb
      cases hb
    · next hnonempty =>
      have hroom := room_unmarked marks (step found)
      have hlength : 0 < (unmarked marks (step found)).1.length := by
        simpa [List.length_pos_iff] using hnonempty
      rw [List.mem_append, ih (h.next hstep) (by omega)]
      refine or_congr_right ⟨?_, ?_⟩
      · intro hreach
        rcases hreach with hj | ⟨hfree, b, hb, hrun⟩
        · obtain ⟨⟨a, ha, haj⟩, hfree⟩ := (h.mem_new hstep).1 hj
          exact ⟨hfree, a, ha, .step haj .none⟩
        · obtain ⟨⟨a, ha, hab⟩, -⟩ := (h.mem_new hstep).1 hb
          exact ⟨(marks_unmarked.1 hfree).2, a, ha, .step hab hrun⟩
      · intro hreach
        obtain ⟨hfree, i, hi, hrun⟩ := hreach
        obtain ⟨b, hb, hbj⟩ := h.exists_new hstep hi hrun hfree
        by_cases hj : j ∈ (unmarked marks (step found)).1
        · exact .inl hj
        · have hnot : j ∉ step found := fun hmem => hj (mem_unmarked.2 ⟨hmem, hfree⟩)
          exact .inr ⟨marks_unmarked.2 ⟨hnot, hfree⟩, b, hb, hbj⟩

end Spread

section Start

variable {t : Subject} {l : List Nat} {i j : Nat}

private theorem noMarks_free (hi : i ≤ t.size) : (noMarks t)[i]? = some false := by
  simp [noMarks, Nat.lt_succ_of_le hi]

private theorem mem_unmarked_noMarks (hl : ∀ i ∈ l, i ≤ t.size) :
    i ∈ (unmarked (noMarks t) l).1 ↔ i ∈ l := by
  rw [mem_unmarked]
  exact ⟨fun h => h.1, fun h => ⟨h, noMarks_free (hl i h)⟩⟩

private theorem marked_start (hi : i ≤ t.size) :
    (unmarked (noMarks t) l).2[i]? = some true ↔ i ∈ (unmarked (noMarks t) l).1 := by
  have hsize : i < (noMarks t).size := by
    simp only [noMarks, Array.size_replicate]
    omega
  rw [marked_unmarked hsize, noMarks_free hi]
  simp

private theorem spreading_start (R : Nat → Nat → Prop) (hl : ∀ i ∈ l, i ≤ t.size) :
    Spreading R t.size (unmarked (noMarks t) l).2 (unmarked (noMarks t) l).1 where
  size := by simp [size_unmarked, noMarks]
  le i hi := hl i ((mem_unmarked_noMarks hl).1 hi)
  marked i hi := (marked_start (hl i ((mem_unmarked_noMarks hl).1 hi))).2 hi
  closed i _ hi hmarked hnot _ := absurd ((marked_start hi).1 hmarked) hnot

private theorem room_start_le : room (unmarked (noMarks t) l).2 ≤ t.size + 1 := by
  have hroom := room_unmarked (noMarks t) l
  have hcount : room (noMarks t) ≤ (noMarks t).toList.length := List.count_le_length
  have hlength : (noMarks t).toList.length = t.size + 1 := by simp [noMarks]
  omega

/-- Spreading a step from places of a text that have no marks yet finds all that it reaches. -/
private theorem mem_spread_start {step : List Nat → List Nat} {R : Nat → Nat → Prop}
    (hstep : Follows step R t.size) (hl : ∀ i ∈ l, i ≤ t.size) :
    j ∈ spread step (t.size + 1) (unmarked (noMarks t) l).2 (unmarked (noMarks t) l).1 ↔
      ∃ i ∈ l, Many R i j := by
  rw [mem_spread hstep (spreading_start R hl) room_start_le]
  simp only [mem_unmarked_noMarks hl]
  constructor
  · intro hreach
    rcases hreach with hj | ⟨-, hrun⟩
    · exact ⟨j, hj, .none⟩
    · exact hrun
  · intro hreach
    obtain ⟨i, hi, hrun⟩ := hreach
    by_cases hj : j ∈ l
    · exact .inl hj
    · have hfree := noMarks_free (hrun.forward hstep.forward (hl i hi)).2
      exact .inr ⟨marks_unmarked.2 ⟨hj, hfree⟩, i, hi, hrun⟩

end Start

/-- The reachable places are those at which a match ends. -/
theorem mem_ends {t : Subject} {r : Regex} {l : List Nat} (hl : ∀ i ∈ l, i ≤ t.size) (j : Nat) :
    j ∈ ends t r l ↔ ∃ i ∈ l, Spans t r i j := by
  induction r generalizing l j with
  | empty => simp [ends, Spans]
  | set chars =>
    simp only [ends, Spans, List.mem_map, List.mem_filter]
    constructor
    · rintro ⟨i, ⟨hi, h⟩, rfl⟩; exact ⟨i, hi, h, rfl⟩
    · rintro ⟨i, hi, h, rfl⟩; exact ⟨i, ⟨hi, h⟩, rfl⟩
  | assert condition =>
    simp only [ends, Spans, List.mem_filter]
    constructor
    · rintro ⟨hj, h⟩; exact ⟨j, hj, h, rfl⟩
    · rintro ⟨i, hi, h, rfl⟩; exact ⟨hi, h⟩
  | seq r s ihr ihs =>
    have hle : ∀ i ∈ ends t r l, i ≤ t.size := by
      intro k hk
      obtain ⟨i, hi, h⟩ := (ihr hl k).1 hk
      exact (h.forward (hl i hi)).2
    simp only [ends, Spans, ihs hle, ihr hl]
    constructor
    · rintro ⟨k, ⟨i, hi, hr⟩, hs⟩; exact ⟨i, hi, k, hr, hs⟩
    · rintro ⟨i, hi, k, hr, hs⟩; exact ⟨k, ⟨i, hi, hr⟩, hs⟩
  | alt r s ihr ihs =>
    simp only [ends, Spans, mem_unmarked, List.mem_append, ihr hl, ihs hl]
    constructor
    · rintro ⟨⟨i, hi, h⟩ | ⟨i, hi, h⟩, -⟩
      · exact ⟨i, hi, .inl h⟩
      · exact ⟨i, hi, .inr h⟩
    · rintro ⟨i, hi, h⟩
      have hj : j ≤ t.size := h.elim (fun h => (h.forward (hl i hi)).2) fun h => (h.forward (hl i hi)).2
      refine ⟨h.imp (⟨i, hi, ·⟩) (⟨i, hi, ·⟩), ?_⟩
      simp [noMarks, Nat.lt_succ_of_le hj]
  | star greedy r ih =>
    have hstep : Follows (ends t r) (Spans t r) t.size :=
      ⟨fun h hi => h.forward hi, fun l hl j => ih hl j⟩
    simp only [ends, Spans]
    exact mem_spread_start hstep hl
  | group name r ih => simp only [ends, Spans, ih hl]

/-- A text is matched when the expression spans two of its places. -/
theorem isMatch_iff {r : Regex} {s : List Char} :
    r.isMatch s ↔ ∃ i j, i ≤ s.length ∧ Spans (.ofText s) r i j := by
  have hl : ∀ i ∈ (Subject.ofText s).places, i ≤ (Subject.ofText s).size := by
    intro i hi
    simp only [Subject.places, List.mem_range] at hi
    omega
  have hsize : (Subject.ofText s).size = s.length := by simp [Subject.ofText]
  simp only [isMatch, Bool.not_eq_true', List.isEmpty_eq_false_iff_exists_mem]
  constructor
  · rintro ⟨j, h⟩
    obtain ⟨i, hi, h⟩ := (mem_ends hl j).1 h
    exact ⟨i, j, hsize ▸ hl i hi, h⟩
  · rintro ⟨i, j, hi, h⟩
    refine ⟨j, (mem_ends hl j).2 ⟨i, ?_, h⟩⟩
    simp only [Subject.places, List.mem_range]
    omega

private theorem Many.exists_progress {R : Nat → Nat → Prop} {n i j : Nat}
    (hR : ∀ {i j}, R i j → i ≤ n → i ≤ j ∧ j ≤ n) (h : Many R i j) (hi : i ≤ n) (hij : i ≠ j) :
    ∃ k, R i k ∧ i < k ∧ Many R k j := by
  induction h with
  | none => exact absurd rfl hij
  | @step i k j h rest ih =>
    by_cases hk : i = k
    · subst hk; exact ih hi hij
    · have := hR h hi
      exact ⟨k, h, by omega, rest⟩

private theorem isSome_orElse {α : Type} (a b : Option α) :
    (a.orElse fun _ => b).isSome ↔ a.isSome ∨ b.isSome := by
  cases a with
  | none => exact ⟨.inr, fun h => h.resolve_left Bool.false_ne_true⟩
  | some a => exact ⟨fun _ => .inl rfl, fun _ => rfl⟩

private theorem isSome_runStar {step : Nat → Groups → Rest → Option Groups} {R : Nat → Nat → Prop}
    {n : Nat} (hR : ∀ {i j}, R i j → i ≤ n → i ≤ j ∧ j ≤ n)
    (hstep : ∀ (K : Nat → Prop) (k : Rest), (∀ j g, j ≤ n → ((k j g).isSome ↔ K j)) →
      ∀ i g, i ≤ n → ((step i g k).isSome ↔ ∃ j, R i j ∧ K j))
    (greedy : Bool) {K : Nat → Prop} {k : Rest} (hk : ∀ j g, j ≤ n → ((k j g).isSome ↔ K j))
    {fuel i : Nat} (g : Groups) (hi : i ≤ n) (hfuel : n - i < fuel) :
    (runStar step greedy fuel i g k).isSome ↔ ∃ j, Many R i j ∧ K j := by
  induction fuel generalizing i g with
  | zero => omega
  | succ fuel ih =>
    have hnext := hstep (fun j => if i < j then ∃ l, Many R j l ∧ K l else K j)
      (fun j g => if i < j then runStar step greedy fuel j g k else k j g)
      (by
        intro j g hj
        by_cases hij : i < j
        · simp only [hij, if_true]; exact ih g hj (by omega)
        · simp only [hij, if_false]; exact hk j g hj) i g hi
    have hiff : (∃ j, Many R i j ∧ K j) ↔
        K i ∨ ∃ j, R i j ∧ if i < j then ∃ l, Many R j l ∧ K l else K j := by
      constructor
      · rintro ⟨j, hm, hj⟩
        by_cases hij : i = j
        · exact .inl (hij ▸ hj)
        · obtain ⟨k, hik, hlt, hm⟩ := hm.exists_progress hR hi hij
          exact .inr ⟨k, hik, by simpa [hlt] using ⟨j, hm, hj⟩⟩
      · rintro (h | ⟨j, hij, h⟩)
        · exact ⟨i, .none, h⟩
        · split at h
          · obtain ⟨l, hm, hl⟩ := h; exact ⟨l, .step hij hm, hl⟩
          · exact ⟨j, .step hij .none, h⟩
    unfold runStar
    rw [hiff]
    split
    · rw [isSome_orElse, hnext, hk i g hi, or_comm]
    · rw [isSome_orElse, hnext, hk i g hi]

/-- Matching and then the rest leads on exactly when the rest does at some end of a match. -/
theorem isSome_run {t : Subject} (r : Regex) {K : Nat → Prop} {k : Rest}
    (hk : ∀ j g, j ≤ t.size → ((k j g).isSome ↔ K j)) {i : Nat} (g : Groups) (hi : i ≤ t.size) :
    (run t r i g k).isSome ↔ ∃ j, Spans t r i j ∧ K j := by
  induction r generalizing K k i g with
  | empty => simp [run, Spans, hk i g hi]
  | set chars =>
    simp only [run, Spans]
    split
    · next h =>
      have := Subject.lt_of_next? h
      rw [hk (i + 1) g (by omega)]
      constructor
      · intro h'; exact ⟨i + 1, ⟨h, rfl⟩, h'⟩
      · rintro ⟨j, ⟨-, rfl⟩, h'⟩; exact h'
    · next h => simp [h]
  | assert condition =>
    simp only [run, Spans]
    split
    · next h =>
      rw [hk i g hi]
      constructor
      · intro h'; exact ⟨i, ⟨h, rfl⟩, h'⟩
      · rintro ⟨j, ⟨-, rfl⟩, h'⟩; exact h'
    · next h => simp [h]
  | seq r s ihr ihs =>
    simp only [run, Spans]
    rw [ihr (K := fun j => ∃ l, Spans t s j l ∧ K l) (fun j g hj => ihs hk g hj) g hi]
    constructor
    · rintro ⟨j, hr, l, hs, hl⟩; exact ⟨l, ⟨j, hr, hs⟩, hl⟩
    · rintro ⟨l, ⟨j, hr, hs⟩, hl⟩; exact ⟨j, hr, l, hs, hl⟩
  | alt r s ihr ihs =>
    simp only [run, Spans]
    rw [isSome_orElse, ihr hk g hi, ihs hk g hi]
    constructor
    · rintro (⟨j, h, hj⟩ | ⟨j, h, hj⟩)
      · exact ⟨j, .inl h, hj⟩
      · exact ⟨j, .inr h, hj⟩
    · rintro ⟨j, h | h, hj⟩
      · exact .inl ⟨j, h, hj⟩
      · exact .inr ⟨j, h, hj⟩
  | star greedy r ih =>
    simp only [run, Spans]
    exact isSome_runStar (R := Spans t r) (n := t.size) (fun h hi => h.forward hi)
      (fun K k hk i g hi => ih hk g hi) greedy hk g hi (by omega)
  | group name r ih =>
    simp only [run, Spans]
    exact ih (fun j g hj => hk j _ hj) g hi

/-- There is a preferred match exactly when the expression matches. -/
theorem isSome_search (r : Regex) (s : List Char) : (r.search s).isSome = r.isMatch s := by
  rw [Bool.eq_iff_iff]
  unfold search
  simp only
  split
  · next h =>
    refine ⟨fun _ => h, fun _ => ?_⟩
    obtain ⟨i, j, hi, hm⟩ := isMatch_iff.1 h
    have hsize : (Subject.ofText s).size = s.length := by simp [Subject.ofText]
    rw [List.isSome_findSome?, List.any_eq_true]
    refine ⟨i, by simp only [Subject.places, List.mem_range]; omega, ?_⟩
    exact (isSome_run r (K := fun _ => True) (by simp) [] (by omega)).2 ⟨j, hm, trivial⟩
  · next h => simp [h]

end Regex

end Switchyard
