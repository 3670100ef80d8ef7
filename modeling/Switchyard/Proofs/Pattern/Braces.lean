import Mathlib.Data.List.Forall2
import Switchyard.Pattern.Syntax
/-!
# Braces

A pattern can be cut at the slashes outside its braces exactly if the braces balance
(`isSome_splitSegments`). Then it consists of signs and of outermost groups
(`exists_outerGroups_iff`), and no cut goes through a group (`exists_rows_of_splitSegments`).
-/

namespace Switchyard.Pattern

variable {depth more : Nat} {c : Char} {a b s body after : List Char}
  {texts bodies : List (List Char)}

/-- With some braces open before a text, none is closed there that is not open, and all are closed at
its end. -/
structure Balanced (depth : Nat) (s : List Char) : Prop where
  prefixes : ∀ a, a <+: s → a.count '\x7d' ≤ depth + a.count '\x7b'
  total : s.count '\x7d' = depth + s.count '\x7b'

@[simp] theorem balanced_nil : Balanced depth [] ↔ depth = 0 := by
  constructor
  · intro h
    have htotal := h.total
    simp only [List.count_nil] at htotal
    omega
  · rintro rfl
    refine ⟨fun a ha => ?_, rfl⟩
    rw [List.prefix_nil.mp ha]
    simp

private theorem balanced_cons (hmore : depth + [c].count '\x7b' = more + [c].count '\x7d') :
    Balanced depth (c :: s) ↔ Balanced more s := by
  have hcount (d : Char) (a : List Char) : (c :: a).count d = [c].count d + a.count d := by
    rw [← List.singleton_append, List.count_append]
  constructor
  · intro h
    refine ⟨fun a ha => ?_, ?_⟩
    · have hprefix := h.prefixes (c :: a) (List.cons_prefix_cons.mpr ⟨rfl, ha⟩)
      rw [hcount _ a, hcount _ a] at hprefix
      omega
    · have htotal := h.total
      rw [hcount _ s, hcount _ s] at htotal
      omega
  · intro h
    refine ⟨fun a ha => ?_, ?_⟩
    · rcases List.prefix_cons_iff.mp ha with rfl | ⟨a, rfl, htail⟩
      · simp
      · have hprefix := h.prefixes a htail
        rw [hcount _ a, hcount _ a]
        omega
    · have htotal := h.total
      rw [hcount _ s, hcount _ s]
      omega

@[simp] theorem balanced_open : Balanced depth ('\x7b' :: s) ↔ Balanced (depth + 1) s :=
  balanced_cons rfl

@[simp] theorem balanced_close : Balanced (depth + 1) ('\x7d' :: s) ↔ Balanced depth s :=
  balanced_cons rfl

private theorem not_balanced_close : ¬ Balanced 0 ('\x7d' :: s) := by
  intro h
  have hprefix := h.prefixes ['\x7d'] (by simp)
  exact absurd hprefix (by decide)

theorem balanced_sign (hopen : c ≠ '\x7b') (hclose : c ≠ '\x7d') :
    Balanced depth (c :: s) ↔ Balanced depth s :=
  balanced_cons (by simp [hopen, hclose])

theorem balanced_of_braceless (h : ∀ c ∈ s, c ≠ '\x7b' ∧ c ≠ '\x7d') : Balanced 0 s := by
  induction s with
  | nil => simp
  | cons c s ih =>
    rw [List.forall_mem_cons] at h
    exact (balanced_sign h.1.1 h.1.2).mpr (ih h.2)

private theorem Balanced.sign_cases (h : Balanced depth (c :: s)) :
    c = '\x7b' ∧ Balanced (depth + 1) s ∨
      (∃ d, c = '\x7d' ∧ depth = d + 1 ∧ Balanced d s) ∨
      c ≠ '\x7b' ∧ c ≠ '\x7d' ∧ Balanced depth s := by
  by_cases hopen : c = '\x7b'
  · subst hopen
    exact .inl ⟨rfl, balanced_open.mp h⟩
  by_cases hclose : c = '\x7d'
  · subst hclose
    cases depth with
    | zero => exact absurd h not_balanced_close
    | succ d => exact .inr (.inl ⟨d, rfl, rfl, balanced_close.mp h⟩)
  · exact .inr (.inr ⟨hopen, hclose, (balanced_sign hopen hclose).mp h⟩)

/-- A text that closes all but some of the open braces may be left out. -/
private theorem balanced_append (ha : Balanced depth a) :
    Balanced (depth + more) (a ++ b) ↔ Balanced more b := by
  induction a generalizing depth with
  | nil =>
    rw [balanced_nil] at ha
    rw [ha, Nat.zero_add, List.nil_append]
  | cons c a ih =>
    rcases ha.sign_cases with ⟨rfl, hrest⟩ | ⟨d, rfl, rfl, hrest⟩ | ⟨hopen, hclose, hrest⟩
    · rw [List.cons_append, balanced_open, Nat.add_right_comm, ih hrest]
    · rw [List.cons_append, Nat.add_right_comm, balanced_close, ih hrest]
    · rw [List.cons_append, balanced_sign hopen hclose, ih hrest]

theorem splitSegments_ne_nil {depth : Nat} {s : List Char} {rest : List (List Char)}
    (h : splitSegments depth s = some rest) : rest ≠ [] := by
  intro hnil
  subst hnil
  cases s with
  | nil =>
    rw [splitSegments] at h
    split at h <;> cases h
  | cons c s =>
    rw [splitSegments] at h
    repeat' split at h
    all_goals
      first
      | cases h
      | obtain ⟨l, -, hl⟩ := Option.map_eq_some_iff.mp h
        first
        | exact Text.consHead_ne_nil c l hl
        | cases hl

theorem isSome_splitSegments : (splitSegments depth s).isSome ↔ Balanced depth s := by
  induction s generalizing depth with
  | nil =>
    rw [splitSegments, balanced_nil]
    split <;> simp [*]
  | cons c s ih =>
    rw [splitSegments]
    split
    · next hopen =>
      subst hopen
      rw [Option.isSome_map, ih, balanced_open]
    · next hopen =>
      split
      · next hclose =>
        subst hclose
        cases depth with
        | zero => simp [not_balanced_close]
        | succ d => simp [ih]
      · next hclose =>
        rw [balanced_sign hopen hclose, ← ih]
        split <;> rw [Option.isSome_map]

private theorem splitSegments_append (ha : Balanced depth a) (more : Nat) (b : List Char) :
    splitSegments (depth + (more + 1)) (a ++ b) =
      (splitSegments (more + 1) b).map (a.foldr Text.consHead ·) := by
  induction a generalizing depth with
  | nil =>
    rw [balanced_nil] at ha
    simp [ha]
  | cons c a ih =>
    rcases ha.sign_cases with ⟨rfl, hrest⟩ | ⟨d, rfl, rfl, hrest⟩ | ⟨hopen, hclose, hrest⟩
    · have hcut := ih hrest
      rw [Nat.add_right_comm] at hcut
      rw [List.cons_append, splitSegments, if_pos rfl, hcut, Option.map_map]
      rfl
    · rw [List.cons_append, splitSegments, if_neg (by decide), if_pos rfl, if_neg (by omega),
        show d + 1 + (more + 1) - 1 = d + (more + 1) by omega, ih hrest, Option.map_map]
      rfl
    · rw [List.cons_append, splitSegments, if_neg hopen, if_neg hclose, if_neg (by simp), ih hrest,
        Option.map_map]
      rfl

theorem splitSegments_body (hbody : Balanced 0 body) (depth : Nat) (after : List Char) :
    splitSegments (depth + 1) (body ++ '\x7d' :: after) =
      (splitSegments depth after).map ((body ++ ['\x7d']).foldr Text.consHead ·) := by
  have hcut := splitSegments_append hbody depth ('\x7d' :: after)
  rw [Nat.zero_add] at hcut
  rw [hcut, splitSegments, if_neg (by decide), if_pos rfl, if_neg (by omega), Nat.add_sub_cancel,
    Option.map_map]
  congr 1
  funext texts
  simp

theorem takeBody_append (hbody : Balanced depth body) (after : List Char) :
    takeBody depth (body ++ '\x7d' :: after) = some (body, after) := by
  induction body generalizing depth with
  | nil =>
    rw [balanced_nil] at hbody
    simp [takeBody, hbody]
  | cons c body ih =>
    rcases hbody.sign_cases with ⟨rfl, hrest⟩ | ⟨d, rfl, rfl, hrest⟩ | ⟨hopen, hclose, hrest⟩
    · rw [List.cons_append, takeBody, if_pos rfl, ih hrest]
      rfl
    · rw [List.cons_append, takeBody, if_neg (by decide), if_pos rfl, if_neg (by omega),
        Nat.add_sub_cancel, ih hrest]
      rfl
    · rw [List.cons_append, takeBody, if_neg hopen, if_neg hclose, ih hrest]
      rfl

/-- The texts between the outermost braces of a text, from left to right. -/
inductive OuterGroups : List Char → List (List Char) → Prop where
  | nil : OuterGroups [] []
  | sign {c : Char} {s : List Char} {bodies : List (List Char)} (hopen : c ≠ '\x7b')
      (hclose : c ≠ '\x7d') (rest : OuterGroups s bodies) : OuterGroups (c :: s) bodies
  | group {body s : List Char} {bodies : List (List Char)} (hbody : Balanced 0 body)
      (rest : OuterGroups s bodies) :
      OuterGroups ('\x7b' :: (body ++ '\x7d' :: s)) (body :: bodies)

theorem OuterGroups.balanced (h : OuterGroups s bodies) : Balanced 0 s := by
  induction h with
  | nil => simp
  | sign hopen hclose _ ih => exact (balanced_sign hopen hclose).mpr ih
  | @group body s _ hbody _ ih =>
    have hgroup : Balanced (0 + 1) (body ++ '\x7d' :: s) :=
      (balanced_append hbody).mpr (balanced_close.mpr ih)
    exact balanced_open.mpr hgroup

/-- A text that closes one brace more than it opens has a balanced text in front of that brace. -/
private theorem exists_body (h : Balanced (depth + 1) s) :
    ∃ body after, s = body ++ '\x7d' :: after ∧ Balanced depth body ∧ Balanced 0 after := by
  induction s generalizing depth with
  | nil => simp at h
  | cons c s ih =>
    rcases h.sign_cases with ⟨rfl, hs⟩ | ⟨d, rfl, hd, hs⟩ | ⟨hopen, hclose, hs⟩
    · obtain ⟨body, after, rfl, hbody, hafter⟩ := ih hs
      exact ⟨_, after, rfl, balanced_open.mpr hbody, hafter⟩
    · cases hd
      cases depth with
      | zero => exact ⟨[], s, rfl, by simp, hs⟩
      | succ d =>
        obtain ⟨body, after, rfl, hbody, hafter⟩ := ih hs
        exact ⟨_, after, rfl, balanced_close.mpr hbody, hafter⟩
    · obtain ⟨body, after, rfl, hbody, hafter⟩ := ih hs
      exact ⟨_, after, rfl, (balanced_sign hopen hclose).mpr hbody, hafter⟩

theorem exists_outerGroups (h : Balanced 0 s) : ∃ bodies, OuterGroups s bodies := by
  induction hlength : s.length using Nat.strongRecOn generalizing s with
  | ind n ih =>
    cases s with
    | nil => exact ⟨[], .nil⟩
    | cons c s =>
      rcases h.sign_cases with ⟨rfl, hs⟩ | ⟨d, -, hd, -⟩ | ⟨hopen, hclose, hs⟩
      · obtain ⟨body, after, rfl, hbody, hafter⟩ := exists_body hs
        have hshorter : after.length < n := by
          simp only [← hlength, List.length_cons, List.length_append]
          omega
        obtain ⟨bodies, hbodies⟩ := ih _ hshorter hafter rfl
        exact ⟨_, .group hbody hbodies⟩
      · cases hd
      · obtain ⟨bodies, hbodies⟩ := ih s.length (by simp [← hlength]) hs rfl
        exact ⟨bodies, .sign hopen hclose hbodies⟩

theorem exists_outerGroups_iff : (∃ bodies, OuterGroups s bodies) ↔ Balanced 0 s :=
  ⟨fun ⟨_, h⟩ => h.balanced, exists_outerGroups⟩

theorem OuterGroups.unique {bodies' : List (List Char)} (h : OuterGroups s bodies)
    (h' : OuterGroups s bodies') : bodies = bodies' := by
  induction h generalizing bodies' with
  | nil =>
    cases h'
    rfl
  | sign hopen hclose _ ih =>
    cases h' with
    | sign _ _ rest => exact ih rest
    | group => exact absurd rfl hopen
  | @group body s bodies hbody _ ih =>
    generalize htext : '\x7b' :: (body ++ '\x7d' :: s) = text at h'
    cases h' with
    | nil => cases htext
    | sign hopen => exact absurd (List.cons.inj htext).1.symm hopen
    | group hbody' rest =>
      -- the reader of groups finds one body only
      have htake := takeBody_append hbody s
      rw [(List.cons.inj htext).2, takeBody_append hbody'] at htake
      cases htake
      rw [ih rest]

/-- The groups of a text are those of its segments. -/
theorem exists_rows_of_splitSegments (h : OuterGroups s bodies)
    (hsplit : splitSegments 0 s = some texts) :
    ∃ rows, List.Forall₂ OuterGroups texts rows ∧ rows.flatten = bodies := by
  induction h generalizing texts with
  | nil =>
    cases hsplit
    exact ⟨[[]], .cons .nil .nil, rfl⟩
  | @sign c s bodies hopen hclose _ ih =>
    rw [splitSegments, if_neg hopen, if_neg hclose] at hsplit
    split at hsplit
    · obtain ⟨rest, hrest, rfl⟩ := Option.map_eq_some_iff.mp hsplit
      obtain ⟨rows, hrows, rfl⟩ := ih hrest
      exact ⟨[] :: rows, .cons .nil hrows, rfl⟩
    · obtain ⟨rest, hrest, rfl⟩ := Option.map_eq_some_iff.mp hsplit
      obtain ⟨rows, hrows, rfl⟩ := ih hrest
      cases hrows with
      | nil => exact ⟨[[]], .cons (.sign hopen hclose .nil) .nil, rfl⟩
      | cons hfirst hrows => exact ⟨_ :: _, .cons (.sign hopen hclose hfirst) hrows, rfl⟩
  | @group body s bodies hbody _ ih =>
    rw [splitSegments, if_pos rfl, splitSegments_body hbody, Option.map_map] at hsplit
    obtain ⟨rest, hrest, rfl⟩ := Option.map_eq_some_iff.mp hsplit
    obtain ⟨rows, hrows, rfl⟩ := ih hrest
    cases hrows with
    | nil => exact absurd rfl (splitSegments_ne_nil hrest)
    | @cons text row texts rows hfirst hrows =>
      have hgroup : OuterGroups ('\x7b' :: (body ++ '\x7d' :: text)) (body :: row) :=
        .group hbody hfirst
      rw [Function.comp_apply, Text.foldr_consHead, List.append_assoc]
      exact ⟨(body :: row) :: rows, .cons hgroup hrows, rfl⟩

theorem balanced_of_mem_splitSegments (hsplit : splitSegments 0 s = some texts) :
    ∀ text ∈ texts, Balanced 0 text := by
  have hbalanced : Balanced 0 s := isSome_splitSegments.mp (by rw [hsplit]; rfl)
  obtain ⟨bodies, hgroups⟩ := exists_outerGroups hbalanced
  obtain ⟨rows, hrows, -⟩ := exists_rows_of_splitSegments hgroups hsplit
  clear hsplit
  induction hrows with
  | nil => simp
  | cons hfirst _ ih =>
    rw [List.forall_mem_cons]
    exact ⟨hfirst.balanced, ih⟩

end Switchyard.Pattern
