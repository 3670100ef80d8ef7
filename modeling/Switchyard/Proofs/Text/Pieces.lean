import Switchyard.Text.Cut
/-!
# Pieces between separators

What the cuts at separators outside double quotes leave of a text, read off the text alone
(`mem_splitUnquotedFrom_iff`), and that texts which close their quotes may be cut before or after they
are joined (`splitUnquoted_intercalate`).
-/

namespace Switchyard.Text

variable {sep : Char}

/-- Texts that close their quotes are cut each for itself when they are joined. -/
theorem splitUnquoted_intercalate (hsep : sep ≠ '"') {texts : List (List Char)} (hne : texts ≠ [])
    (hclosed : ∀ text ∈ texts, quotedAfter false text = false) :
    splitUnquoted sep ([sep].intercalate texts) = texts.flatMap (splitUnquoted sep) := by
  induction texts with
  | nil => exact absurd rfl hne
  | cons text texts ih =>
    rw [List.forall_mem_cons] at hclosed
    cases texts with
    | nil => simp
    | cons text' texts =>
      have hrest := ih (List.cons_ne_nil _ _) hclosed.2
      rw [List.intercalate_cons_cons, List.append_assoc, List.flatMap_cons, ← hrest]
      exact splitUnquotedFrom_append hsep hclosed.1 _

/-- No separator stands outside quotes in a text. -/
def IsWhole (sep : Char) (quoted : Bool) (s : List Char) : Prop :=
  ∀ a b, s = a ++ sep :: b → quotedAfter quoted a = true

/-- A part of a text is a piece of it when it ends where the text does or at separators outside
quotes, and has none itself. -/
structure IsPieceBetween (sep : Char) (quoted : Bool) (before piece after : List Char) : Prop where
  opens : before = [] ∨ ∃ b, before = b ++ [sep] ∧ quotedAfter quoted b = false
  closes : after = [] ∨ ∃ a, after = sep :: a ∧ quotedAfter quoted (before ++ piece) = false
  whole : IsWhole sep (quotedAfter quoted before) piece

/-- The pieces of a text between the separators outside quotes. -/
def IsPiece (sep : Char) (quoted : Bool) (s piece : List Char) : Prop :=
  ∃ before after, s = before ++ piece ++ after ∧ IsPieceBetween sep quoted before piece after

private theorem whole_or_exists_cut (hsep : sep ≠ '"') (quoted : Bool) (s : List Char) :
    IsWhole sep quoted s ∨ ∃ a b, s = a ++ sep :: b ∧ quotedAfter quoted a = false ∧
      IsWhole sep quoted a := by
  induction s generalizing quoted with
  | nil => exact .inl fun a b h => by simp at h
  | cons c s ih =>
    by_cases hcut : c = sep ∧ quoted = false
    · obtain ⟨rfl, rfl⟩ := hcut
      exact .inr ⟨[], s, rfl, rfl, fun a b h => by simp at h⟩
    · have hquoted (a : List Char) :
          quotedAfter quoted (c :: a) = quotedAfter (quotedAfter quoted [c]) a :=
        quotedAfter_append quoted [c] a
      have hcons {t : List Char} (ht : IsWhole sep (quotedAfter quoted [c]) t) :
          IsWhole sep quoted (c :: t) := by
        intro a b h
        cases a with
        | nil =>
          cases h
          rw [quotedAfter_nil]
          simpa using hcut
        | cons d a =>
          cases h
          rw [hquoted]
          exact ht a b rfl
      rcases ih (quotedAfter quoted [c]) with hwhole | ⟨a, b, rfl, hclosed, hwhole⟩
      · exact .inl (hcons hwhole)
      · exact .inr ⟨c :: a, b, rfl, by rw [hquoted, hclosed], hcons hwhole⟩

private theorem IsWhole.eq_of_append {quoted : Bool} {a a' b b' : List Char}
    (ha : IsWhole sep quoted a)
    (ha' : IsWhole sep quoted a') (hclosed : quotedAfter quoted a = false)
    (hclosed' : quotedAfter quoted a' = false) (h : a ++ sep :: b = a' ++ sep :: b') :
    a = a' ∧ b = b' := by
  rcases List.append_eq_append_iff.mp h with ⟨c, rfl, hc⟩ | ⟨c, rfl, hc⟩
  · cases c with
    | nil => simpa using hc
    | cons d c =>
      cases hc
      rw [ha' a c rfl] at hclosed
      cases hclosed
  · cases c with
    | nil => simpa using hc.symm
    | cons d c =>
      cases hc
      rw [ha a' c rfl] at hclosed'
      cases hclosed'

private theorem isPiece_of_whole {quoted : Bool} {s piece : List Char} (hs : IsWhole sep quoted s) :
    IsPiece sep quoted s piece ↔ piece = s := by
  constructor
  · rintro ⟨before, after, rfl, hpiece⟩
    have hbefore : before = [] := by
      rcases hpiece.opens with hnil | ⟨b, rfl, hclosed⟩
      · exact hnil
      · have hquoted := hs b (piece ++ after) (by simp)
        rw [hquoted] at hclosed
        cases hclosed
    have hafter : after = [] := by
      rcases hpiece.closes with hnil | ⟨a, rfl, hclosed⟩
      · exact hnil
      · have hquoted := hs (before ++ piece) a rfl
        rw [hquoted] at hclosed
        cases hclosed
    simp [hbefore, hafter]
  · rintro rfl
    exact ⟨[], [], by simp, .inl rfl, .inl rfl, by rwa [quotedAfter_nil]⟩

private theorem isPiece_append (hsep : sep ≠ '"') {quoted : Bool} {a b piece : List Char}
    (ha : IsWhole sep quoted a) (hclosed : quotedAfter quoted a = false) :
    IsPiece sep quoted (a ++ sep :: b) piece ↔ piece = a ∨ IsPiece sep false b piece := by
  have hshift (c : List Char) : quotedAfter quoted (a ++ sep :: c) = quotedAfter false c := by
    rw [quotedAfter_append, hclosed, quotedAfter_cons_of_ne hsep]
  constructor
  · rintro ⟨before, after, hs, hpiece⟩
    rcases hpiece.opens with rfl | ⟨before, rfl, hopen⟩
    · left
      have hwhole : IsWhole sep quoted piece := by simpa using hpiece.whole
      rcases hpiece.closes with rfl | ⟨c, rfl, hclose⟩
      · have hquoted := hwhole a b (by simpa using hs.symm)
        rw [hclosed] at hquoted
        cases hquoted
      · exact (hwhole.eq_of_append ha hclose hclosed (by simpa using hs.symm)).1
    · right
      -- the separator in front of the piece is the first one or stands behind it
      have hfront : ∃ front, before ++ [sep] = a ++ sep :: front ∧ b = front ++ piece ++ after ∧
          (front = [] ∨ ∃ f, front = f ++ [sep] ∧ quotedAfter false f = false) := by
        have hs : a ++ sep :: b = before ++ sep :: (piece ++ after) := by simpa using hs
        rcases List.append_eq_append_iff.mp hs with ⟨c, rfl, hc⟩ | ⟨c, rfl, hc⟩
        · cases c with
          | nil => exact ⟨[], by simp, by simpa using hc, .inl rfl⟩
          | cons d c =>
            cases hc
            rw [hshift] at hopen
            exact ⟨c ++ [sep], by simp, by simp, .inr ⟨c, rfl, hopen⟩⟩
        · cases c with
          | nil => exact ⟨[], by simp, by simpa using hc.symm, .inl rfl⟩
          | cons d c =>
            obtain ⟨rfl, -⟩ := List.cons.inj hc
            rw [ha before c rfl] at hopen
            cases hopen
      obtain ⟨front, hbefore, rfl, hopens⟩ := hfront
      have hcloses := hpiece.closes
      have hwhole := hpiece.whole
      rw [hbefore] at hcloses hwhole
      rw [List.append_assoc, List.cons_append, hshift] at hcloses
      rw [hshift] at hwhole
      exact ⟨front, after, rfl, hopens, hcloses, hwhole⟩
  · rintro (rfl | ⟨before, after, rfl, hpiece⟩)
    · exact ⟨[], sep :: b, rfl, .inl rfl, .inr ⟨b, rfl, hclosed⟩, by rwa [quotedAfter_nil]⟩
    · refine ⟨a ++ sep :: before, after, by simp, ?_, ?_, ?_⟩
      · rcases hpiece.opens with rfl | ⟨b, rfl, hopen⟩
        · exact .inr ⟨a, rfl, hclosed⟩
        · exact .inr ⟨a ++ sep :: b, by simp, by rw [hshift, hopen]⟩
      · rcases hpiece.closes with hnil | ⟨c, rfl, hclose⟩
        · exact .inl hnil
        · refine .inr ⟨c, rfl, ?_⟩
          rw [List.append_assoc, List.cons_append, hshift, hclose]
      · rw [hshift]
        exact hpiece.whole

theorem mem_splitUnquotedFrom_iff (hsep : sep ≠ '"') {quoted : Bool} {s piece : List Char} :
    piece ∈ splitUnquotedFrom sep quoted s ↔ IsPiece sep quoted s piece := by
  induction h : s.length using Nat.strongRecOn generalizing quoted s with
  | ind n ih =>
    rcases whole_or_exists_cut hsep quoted s with hwhole | ⟨a, b, rfl, hclosed, hwhole⟩
    · rw [splitUnquotedFrom_eq_singleton hwhole, List.mem_singleton, isPiece_of_whole hwhole]
    · have hlength : b.length < n := by
        rw [← h, List.length_append, List.length_cons]
        omega
      rw [splitUnquotedFrom_append hsep hclosed, splitUnquotedFrom_eq_singleton hwhole,
        List.singleton_append, List.mem_cons, ih b.length hlength rfl,
        isPiece_append hsep hwhole hclosed]

end Switchyard.Text
