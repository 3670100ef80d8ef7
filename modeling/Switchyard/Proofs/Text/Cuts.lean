import Switchyard.Text.Cut
/-!
# The places of cuts

A text that is cut at the separators outside double quotes is the pieces joined again, and it is cut
at these separators and no others, quotes that stay open included (`splitUnquoted_exact`).
-/

namespace Switchyard.Text

variable {sep : Char} {quoted : Bool} {start : Nat} {pieces : List (List Char)}

/-- Where the separators stand in the text that pieces are joined to, when the first piece begins at
a given place. -/
def cutsFrom (start : Nat) : List (List Char) → List Nat
  | piece :: next :: rest =>
    (start + piece.length) :: cutsFrom (start + piece.length + 1) (next :: rest)
  | _ => []

/-- Where separators stand in a text that are outside quotes by the text before them. -/
def openPlaces (sep : Char) (quoted : Bool) (s : List Char) : List Nat :=
  (List.range s.length).filter fun i => s[i]? == some sep && !quotedAfter quoted (s.take i)

private theorem cutsFrom_nil_cons (hpieces : pieces ≠ []) :
    cutsFrom start ([] :: pieces) = start :: cutsFrom (start + 1) pieces := by
  cases pieces with
  | nil => exact absurd rfl hpieces
  | cons next rest => rfl

private theorem cutsFrom_consHead (c : Char) (hpieces : pieces ≠ []) :
    cutsFrom start (consHead c pieces) = cutsFrom (start + 1) pieces := by
  cases pieces with
  | nil => exact absurd rfl hpieces
  | cons piece rest =>
    cases rest with
    | nil => rfl
    | cons next rest =>
      have hend : start + (piece.length + 1) = start + 1 + piece.length := by omega
      rw [consHead, cutsFrom, cutsFrom, List.length_cons, hend]

private theorem openPlaces_cons (sep : Char) (quoted : Bool) (c : Char) (s : List Char) :
    openPlaces sep quoted (c :: s) =
      (if c = sep ∧ quoted = false then [0] else []) ++
        (openPlaces sep (quotedAfter quoted [c]) s).map (· + 1) := by
  have hfirst : ((c :: s)[0]? == some sep && !quotedAfter quoted ((c :: s).take 0)) =
      decide (c = sep ∧ quoted = false) := by
    rw [List.take_zero, quotedAfter_nil]
    cases quoted <;> simp [Bool.beq_eq_decide_eq]
  have hrest (i : Nat) : ((c :: s)[i + 1]? == some sep &&
        !quotedAfter quoted ((c :: s).take (i + 1))) =
      (s[i]? == some sep && !quotedAfter (quotedAfter quoted [c]) (s.take i)) := by
    rw [List.getElem?_cons_succ, List.take_succ_cons, ← List.singleton_append, quotedAfter_append]
  rw [openPlaces, List.length_cons, List.range_succ_eq_map, List.filter_cons, hfirst,
    List.filter_map]
  simp only [Function.comp_def, Nat.succ_eq_add_one, hrest, decide_eq_true_eq]
  split <;> rfl

private theorem cutsFrom_splitUnquotedFrom (hsep : sep ≠ '"') (quoted : Bool) (s : List Char)
    (start : Nat) : cutsFrom start (splitUnquotedFrom sep quoted s) =
      (openPlaces sep quoted s).map (start + ·) := by
  induction s generalizing quoted start with
  | nil => rfl
  | cons c s ih =>
    have hne := splitUnquotedFrom_ne_nil sep
    -- places behind the first character are counted from the second
    have hshift (l : List Nat) : (l.map (· + 1)).map (start + ·) = l.map (start + 1 + ·) := by
      rw [List.map_map]
      apply List.map_congr_left
      intro i _
      show start + (i + 1) = start + 1 + i
      omega
    rw [splitUnquotedFrom, openPlaces_cons, List.map_append, hshift, ← ih]
    split
    · next hquote =>
      have hother : ¬ (c = sep ∧ quoted = false) := fun h => hsep (h.1.symm.trans hquote)
      rw [cutsFrom_consHead c (hne _ _), if_neg hother, hquote, quotedAfter_quote, quotedAfter_nil]
      rfl
    · next hquote =>
      rw [quotedAfter_cons_of_ne hquote, quotedAfter_nil]
      split
      · next hcut =>
        have hhere : c = sep ∧ quoted = false := by simpa using hcut
        rw [cutsFrom_nil_cons (hne _ _), if_pos hhere]
        rfl
      · next hcut =>
        have hother : ¬ (c = sep ∧ quoted = false) := by simpa using hcut
        rw [cutsFrom_consHead c (hne _ _), if_neg hother]
        rfl

private theorem openPlaces_eq (sep : Char) (s : List Char) : openPlaces sep false s =
    (List.range s.length).filter fun i => s[i]? = some sep ∧ (s.take i).count '"' % 2 = 0 := by
  apply List.filter_congr
  intro i _
  rw [Bool.eq_iff_iff]
  simp only [Bool.and_eq_true, beq_iff_eq, Bool.not_eq_true', quotedAfter_false_iff,
    decide_eq_true_eq]

private theorem even_of_mem_dropLast {s piece : List Char}
    (hpiece : piece ∈ (splitUnquoted sep s).dropLast) : piece.count '"' % 2 = 0 := by
  obtain ⟨first, rest, hs, hfirst, hrest⟩ := quotedAfter_pieces sep false s
  rw [splitUnquoted, hs] at hpiece
  rw [← quotedAfter_false_iff]
  cases rest with
  | nil => cases hpiece
  | cons next rest =>
    rw [List.dropLast_cons_cons] at hpiece
    rcases List.mem_cons.mp hpiece with rfl | hlater
    · exact hfirst (List.cons_ne_nil _ _)
    · exact hrest piece hlater

/-- For every separator but the double quote, the pieces joined with the separator give the text
back, the cuts are at the separators that an even number of double quotes precedes, and every piece
but the last has an even number of double quotes. -/
theorem splitUnquoted_exact (hsep : sep ≠ '"') (s : List Char) :
    [sep].intercalate (splitUnquoted sep s) = s ∧
    cutsFrom 0 (splitUnquoted sep s) = ((List.range s.length).filter fun i =>
      s[i]? = some sep ∧ (s.take i).count '"' % 2 = 0) ∧
    ∀ piece ∈ (splitUnquoted sep s).dropLast, piece.count '"' % 2 = 0 := by
  have hcuts := cutsFrom_splitUnquotedFrom hsep false s 0
  simp only [Nat.zero_add, List.map_id_fun'] at hcuts
  refine ⟨intercalate_splitUnquotedFrom sep false s, ?_, fun _ => even_of_mem_dropLast⟩
  rw [splitUnquoted, hcuts, id, openPlaces_eq]

/-- A comma inside quotes, a piece that is empty, and quotes that are not closed. -/
theorem splitUnquoted_exact_open :
    ',' ≠ '"' ∧
    splitUnquoted ',' "a\"b,c\",,d\",e".toList = ["a\"b,c\"".toList, [], "d\",e".toList] ∧
    [','].intercalate (splitUnquoted ',' "a\"b,c\",,d\",e".toList) = "a\"b,c\",,d\",e".toList ∧
    cutsFrom 0 (splitUnquoted ',' "a\"b,c\",,d\",e".toList) = [6, 7] ∧
    ∀ piece ∈ (splitUnquoted ',' "a\"b,c\",,d\",e".toList).dropLast, piece.count '"' % 2 = 0 := by
  have hsep : ',' ≠ '"' := by decide
  obtain ⟨hjoined, hcuts, heven⟩ := splitUnquoted_exact hsep "a\"b,c\",,d\",e".toList
  exact ⟨hsep, by decide, hjoined, hcuts.trans (by decide), heven⟩

end Switchyard.Text
