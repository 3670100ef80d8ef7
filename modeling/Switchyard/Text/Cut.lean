import Switchyard.Text.Blank
/-!
# Cutting texts apart

Cuts at the first or last separator, and at the separators that stand outside double quotes.
-/

namespace Switchyard.Text

def cutFirst (sep : Char) : List Char → Option (List Char × List Char)
  | [] => none
  | c :: rest =>
    if c = sep then some ([], rest)
    else (cutFirst sep rest).map fun (before, after) => (c :: before, after)

theorem eq_of_cutFirst {sep : Char} {s before after : List Char}
    (h : cutFirst sep s = some (before, after)) : s = before ++ sep :: after := by
  induction s generalizing before with
  | nil => simp [cutFirst] at h
  | cons c s ih =>
    unfold cutFirst at h
    split at h
    · next hc =>
      cases h
      rw [hc]
      rfl
    · obtain ⟨⟨before', after'⟩, hs, heq⟩ := Option.map_eq_some_iff.mp h
      cases heq
      rw [ih hs]
      rfl

theorem cutFirst_length {sep : Char} {s before after : List Char}
    (h : cutFirst sep s = some (before, after)) : before.length + after.length < s.length := by
  rw [eq_of_cutFirst h, List.length_append, List.length_cons]
  omega

theorem isSome_cutFirst {sep : Char} {s : List Char} : (cutFirst sep s).isSome ↔ sep ∈ s := by
  induction s with
  | nil => simp [cutFirst]
  | cons c s ih =>
    rw [cutFirst, List.mem_cons]
    split
    · next hc => simp [hc]
    · next hc => rw [Option.isSome_map, ih, or_iff_right (Ne.symm hc)]

theorem cutFirst_append {sep : Char} {before : List Char} (hbefore : sep ∉ before)
    (after : List Char) : cutFirst sep (before ++ sep :: after) = some (before, after) := by
  induction before with
  | nil => rw [List.nil_append, cutFirst, if_pos rfl]
  | cons c before ih =>
    rw [List.mem_cons, not_or] at hbefore
    rw [List.cons_append, cutFirst, if_neg (Ne.symm hbefore.1), ih hbefore.2]
    rfl

theorem not_mem_of_cutFirst {sep : Char} {s before after : List Char}
    (h : cutFirst sep s = some (before, after)) : sep ∉ before := by
  induction s generalizing before with
  | nil => simp [cutFirst] at h
  | cons c s ih =>
    unfold cutFirst at h
    split at h
    · cases h
      simp
    · next hc =>
      obtain ⟨⟨before', after'⟩, hs, heq⟩ := Option.map_eq_some_iff.mp h
      cases heq
      have hrest := ih hs
      simp [Ne.symm hc, hrest]

def cutLast (sep : Char) (s : List Char) : Option (List Char × List Char) :=
  (cutFirst sep s.reverse).map fun (after, before) => (before.reverse, after.reverse)

theorem cutLast_eq_some_iff {sep : Char} {s before after : List Char} :
    cutLast sep s = some (before, after) ↔ s = before ++ sep :: after ∧ sep ∉ after := by
  constructor
  · intro h
    obtain ⟨⟨after', before'⟩, hcut, heq⟩ := Option.map_eq_some_iff.mp h
    cases heq
    have hs := congrArg List.reverse (eq_of_cutFirst hcut)
    have hsep := not_mem_of_cutFirst hcut
    simp only [List.reverse_reverse, List.reverse_append, List.reverse_cons, List.append_assoc,
      List.singleton_append] at hs
    exact ⟨hs, by simpa using hsep⟩
  · intro ⟨hs, hsep⟩
    have hreverse : s.reverse = after.reverse ++ sep :: before.reverse := by simp [hs]
    have hcut := cutFirst_append (show sep ∉ after.reverse by simpa using hsep) before.reverse
    rw [cutLast, hreverse, hcut]
    simp

/-- Adds a character in front of the first of the pieces. -/
def consHead (c : Char) : List (List Char) → List (List Char)
  | [] => [[c]]
  | piece :: rest => (c :: piece) :: rest

theorem consHead_ne_nil (c : Char) (l : List (List Char)) : consHead c l ≠ [] := by
  cases l <;> exact List.cons_ne_nil _ _

private theorem consHead_append {c : Char} {l : List (List Char)} (hl : l ≠ [])
    (m : List (List Char)) : consHead c (l ++ m) = consHead c l ++ m := by
  cases l with
  | nil => exact absurd rfl hl
  | cons piece rest => rfl

theorem intercalate_consHead {sep c : Char} {texts : List (List Char)} (hne : texts ≠ []) :
    [sep].intercalate (consHead c texts) = c :: [sep].intercalate texts := by
  cases texts with
  | nil => exact absurd rfl hne
  | cons text texts =>
    cases texts with
    | nil => simp [consHead]
    | cons text' texts => simp [consHead, List.intercalate_cons_cons]

theorem foldr_consHead (front text : List Char) (rest : List (List Char)) :
    front.foldr consHead (text :: rest) = (front ++ text) :: rest := by
  induction front with
  | nil => rfl
  | cons c front ih =>
    rw [List.foldr_cons, ih]
    rfl

/-- Cuts at every `sep` outside double quotes; `quoted` says whether the text starts inside. -/
def splitUnquotedFrom (sep : Char) (quoted : Bool) : List Char → List (List Char)
  | [] => [[]]
  | c :: rest =>
    if c = '"' then consHead c (splitUnquotedFrom sep (!quoted) rest)
    else if c = sep && !quoted then [] :: splitUnquotedFrom sep quoted rest
    else consHead c (splitUnquotedFrom sep quoted rest)

/-- Cuts at every `sep` that an even number of double quotes precedes. -/
def splitUnquoted (sep : Char) (s : List Char) : List (List Char) :=
  splitUnquotedFrom sep false s

/-- Whether a place of a text is inside double quotes, by the text before it; `quoted` says whether
that starts inside. -/
def quotedAfter (quoted : Bool) (s : List Char) : Bool := quoted ^^ (s.count '"' % 2 == 1)

@[simp] theorem quotedAfter_nil (quoted : Bool) : quotedAfter quoted [] = quoted := by
  cases quoted <;> rfl

@[simp] theorem quotedAfter_quote (quoted : Bool) (s : List Char) :
    quotedAfter quoted ('"' :: s) = quotedAfter (!quoted) s := by
  rw [quotedAfter, quotedAfter, List.count_cons_self]
  rcases Nat.mod_two_eq_zero_or_one (s.count '"') with h | h <;> cases quoted <;>
    simp [Nat.add_mod, h]

theorem quotedAfter_cons_of_ne {c : Char} (hc : c ≠ '"') (quoted : Bool) (s : List Char) :
    quotedAfter quoted (c :: s) = quotedAfter quoted s := by
  rw [quotedAfter, quotedAfter, List.count_cons_of_ne hc]

theorem quotedAfter_append (quoted : Bool) (a b : List Char) :
    quotedAfter quoted (a ++ b) = quotedAfter (quotedAfter quoted a) b := by
  induction a generalizing quoted with
  | nil => rw [List.nil_append, quotedAfter_nil]
  | cons c a ih =>
    by_cases hc : c = '"'
    · rw [hc, List.cons_append, quotedAfter_quote, quotedAfter_quote, ih]
    · rw [List.cons_append, quotedAfter_cons_of_ne hc, quotedAfter_cons_of_ne hc, ih]

theorem quotedAfter_of_not_mem {s : List Char} (hs : '"' ∉ s) (quoted : Bool) :
    quotedAfter quoted s = quoted := by
  rw [quotedAfter, List.count_eq_zero.mpr hs]
  cases quoted <;> rfl

theorem quotedAfter_false_iff {s : List Char} :
    quotedAfter false s = false ↔ s.count '"' % 2 = 0 := by
  rw [quotedAfter, Bool.false_xor, beq_eq_false_iff_ne, Nat.mod_two_ne_one]

section

variable {sep : Char}

theorem splitUnquotedFrom_ne_nil (sep : Char) (quoted : Bool) (s : List Char) :
    splitUnquotedFrom sep quoted s ≠ [] := by
  cases s with
  | nil => exact List.cons_ne_nil _ _
  | cons c s =>
    rw [splitUnquotedFrom]
    split
    · exact consHead_ne_nil _ _
    · split
      · exact List.cons_ne_nil _ _
      · exact consHead_ne_nil _ _

theorem intercalate_splitUnquotedFrom (sep : Char) (quoted : Bool) (s : List Char) :
    [sep].intercalate (splitUnquotedFrom sep quoted s) = s := by
  induction s generalizing quoted with
  | nil => simp [splitUnquotedFrom]
  | cons c s ih =>
    rw [splitUnquotedFrom]
    split
    · rw [intercalate_consHead (splitUnquotedFrom_ne_nil _ _ _), ih]
    · split
      · next hcut =>
        rw [Bool.and_eq_true, decide_eq_true_eq] at hcut
        have hjoin := ih quoted
        cases hs : splitUnquotedFrom sep quoted s with
        | nil => exact absurd hs (splitUnquotedFrom_ne_nil _ _ _)
        | cons piece rest =>
          rw [hs] at hjoin
          rw [List.intercalate_cons_cons, hjoin, hcut.1]
          rfl
      · rw [intercalate_consHead (splitUnquotedFrom_ne_nil _ _ _), ih]

/-- A separator outside quotes cuts: before and behind it the text is cut for itself. -/
theorem splitUnquotedFrom_append (hsep : sep ≠ '"') {quoted : Bool} {a : List Char}
    (ha : quotedAfter quoted a = false) (b : List Char) :
    splitUnquotedFrom sep quoted (a ++ sep :: b) =
      splitUnquotedFrom sep quoted a ++ splitUnquotedFrom sep false b := by
  induction a generalizing quoted with
  | nil =>
    rw [quotedAfter_nil] at ha
    simp [splitUnquotedFrom, hsep, ha]
  | cons c a ih =>
    have hne := splitUnquotedFrom_ne_nil sep
    by_cases hc : c = '"'
    · rw [hc, quotedAfter_quote] at ha
      rw [List.cons_append, splitUnquotedFrom, splitUnquotedFrom, if_pos hc, if_pos hc, ih ha,
        consHead_append (hne _ _)]
    · rw [quotedAfter_cons_of_ne hc] at ha
      rw [List.cons_append, splitUnquotedFrom, splitUnquotedFrom, if_neg hc, if_neg hc, ih ha]
      split
      · rfl
      · rw [consHead_append (hne _ _)]

theorem splitUnquotedFrom_eq_singleton {quoted : Bool} {s : List Char}
    (hs : ∀ a b, s = a ++ sep :: b → quotedAfter quoted a = true) :
    splitUnquotedFrom sep quoted s = [s] := by
  induction s generalizing quoted with
  | nil => rfl
  | cons c s ih =>
    have hrest {q : Bool} (hq : ∀ a, quotedAfter q a = quotedAfter quoted (c :: a)) :
        splitUnquotedFrom sep q s = [s] := by
      apply ih
      intro a b hab
      rw [hq]
      exact hs (c :: a) b (by rw [hab]; rfl)
    rw [splitUnquotedFrom]
    split
    · next hc =>
      rw [hrest fun a => by rw [hc, quotedAfter_quote]]
      rfl
    · next hc =>
      rw [hrest fun a => (quotedAfter_cons_of_ne hc quoted a).symm]
      split
      · next hcut =>
        rw [Bool.and_eq_true, decide_eq_true_eq, Bool.not_eq_true'] at hcut
        have hquoted := hs [] s (by rw [hcut.1]; rfl)
        rw [quotedAfter_nil, hcut.2] at hquoted
        cases hquoted
      · rfl

theorem splitUnquotedFrom_front {a : List Char} (ha : ∀ c ∈ a, c ≠ '"' ∧ c ≠ sep) (quoted : Bool)
    (s : List Char) :
    splitUnquotedFrom sep quoted (a ++ s) = a.foldr consHead (splitUnquotedFrom sep quoted s) := by
  induction a with
  | nil => rfl
  | cons c a ih =>
    rw [List.forall_mem_cons] at ha
    rw [List.cons_append, splitUnquotedFrom, if_neg ha.1.1, if_neg (by simp [ha.1.2]), ih ha.2]
    rfl

private theorem count_add_length_le_intercalate {texts : List (List Char)} :
    ∀ text ∈ texts, text.count sep + texts.length ≤ ([sep].intercalate texts).count sep + 1 := by
  induction texts with
  | nil => simp
  | cons first texts ih =>
    cases texts with
    | nil => simp
    | cons second texts =>
      have hsecond := ih second List.mem_cons_self
      rw [List.intercalate_cons_cons, List.count_append, List.count_append, List.count_singleton_self,
        List.length_cons]
      intro text htext
      rcases List.mem_cons.mp htext with rfl | htext
      · omega
      · have hlater := ih text htext
        omega

/-- Each cut uses up a separator, so that no piece holds as many as were there. -/
theorem count_lt_of_mem_pieces {quoted : Bool} {s piece : List Char}
    (hpiece : piece ∈ splitUnquotedFrom sep quoted s)
    (hcut : 1 < (splitUnquotedFrom sep quoted s).length) : piece.count sep < s.count sep := by
  have hle : piece.count sep + _ ≤ _ := count_add_length_le_intercalate piece hpiece
  rw [intercalate_splitUnquotedFrom] at hle
  omega

theorem quotedAfter_pieces (sep : Char) (quoted : Bool) (s : List Char) :
    ∃ first rest, splitUnquotedFrom sep quoted s = first :: rest ∧
      (rest ≠ [] → quotedAfter quoted first = false) ∧
      ∀ piece ∈ rest.dropLast, quotedAfter false piece = false := by
  induction s generalizing quoted with
  | nil => exact ⟨[], [], rfl, fun h => absurd rfl h, by simp⟩
  | cons c s ih =>
    rw [splitUnquotedFrom]
    split
    · next hc =>
      obtain ⟨first, rest, hs, hfirst, hrest⟩ := ih (!quoted)
      rw [hs, hc]
      exact ⟨'"' :: first, rest, rfl, fun h => (quotedAfter_quote quoted first).trans (hfirst h), hrest⟩
    · next hc =>
      obtain ⟨first, rest, hs, hfirst, hrest⟩ := ih quoted
      rw [hs]
      split
      · next hcut =>
        rw [Bool.and_eq_true, decide_eq_true_eq, Bool.not_eq_true'] at hcut
        refine ⟨[], first :: rest, rfl, fun _ => by rw [quotedAfter_nil, hcut.2], ?_⟩
        intro piece hpiece
        cases rest with
        | nil => cases hpiece
        | cons second rest =>
          rw [List.dropLast_cons_cons] at hpiece
          rcases List.mem_cons.mp hpiece with rfl | hpiece
          · rw [hcut.2] at hfirst
            exact hfirst (List.cons_ne_nil _ _)
          · exact hrest piece hpiece
      · exact ⟨c :: first, rest, rfl,
          fun h => (quotedAfter_cons_of_ne hc quoted first).trans (hfirst h), hrest⟩

end

/-- The pieces of a text between the separators, each trimmed, the empty ones left out. -/
def trimmedPieces (sep : Char) (s : List Char) : List (List Char) :=
  ((s.splitOn sep).map trim).filter (!·.isEmpty)

/-- The trimmed pieces of a string, the empty ones left out. -/
def listItems (sep : Char) (s : String) : List String :=
  (trimmedPieces sep s.toList).map String.ofList

def dropStart? : List Char → List Char → Option (List Char)
  | [], s => some s
  | _ :: _, [] => none
  | p :: ps, c :: cs => if p = c then dropStart? ps cs else none

def startsWith (p s : List Char) : Bool := (dropStart? p s).isSome

theorem startsWith_iff {p s : List Char} : startsWith p s ↔ p <+: s := by
  induction p generalizing s with
  | nil => simp [startsWith, dropStart?]
  | cons c p ih =>
    cases s with
    | nil => simp [startsWith, dropStart?]
    | cons d s =>
      rw [List.cons_prefix_cons, ← ih, startsWith, dropStart?]
      split <;> simp_all [startsWith]

def endsWith (p s : List Char) : Bool := startsWith p.reverse s.reverse

theorem endsWith_iff {p s : List Char} : endsWith p s ↔ p <:+ s := by
  rw [endsWith, startsWith_iff, List.reverse_prefix]

/-- Writes the texts one after the other with a separator between them. -/
def joinWith (sep : String) (parts : List String) : String := String.intercalate sep parts

end Switchyard.Text
