import Switchyard.Proofs.Pattern.Matching
import Switchyard.Proofs.Pattern.Reading
import Switchyard.Proofs.Text.Items
/-!
# Templates

Patterns of characters that mean themselves and of variables `{name}`. What is read of such a
pattern, and compiled from it, are its parts (`Template.of_read`, `Template.of_parse`).
-/

namespace Switchyard

namespace Pattern

/-- A part of a template: a character that means itself, or a variable. -/
inductive Part where
  | sign (c : Char)
  | «variable» (name : String)
  deriving DecidableEq, Repr

namespace Part

def text : Part → List Char
  | sign c => [c]
  | «variable» name => '\x7b' :: (name.toList ++ ['\x7d'])

theorem text_variable_append (name : String) (rest : List Char) :
    (Part.variable name).text ++ rest = '\x7b' :: (name.toList ++ '\x7d' :: rest) := by
  simp [text]

def name? : Part → Option String
  | sign _ => none
  | «variable» name => some name

def isVariable (part : Part) : Bool := part.name?.isSome

/-- True for characters that mean themselves, and for names without blanks and without a colon, which
would bring an expression. -/
def isPlain : Part → Bool
  | sign c => isPlainChar c
  | «variable» name => name.toList.all fun c =>
      c != '\x7b' && c != '\x7d' && c != ':' && !Text.isBlank c

/-- A part with a text in place of the variable. -/
def fill (value : String → List Char) : Part → List Char
  | sign c => [c]
  | «variable» name => value name

def token : Part → Token
  | sign c => .literal c
  | «variable» name => .variable name none

def piece : Part → Piece
  | sign c => if c = '/' then .slash else .token (.literal c)
  | «variable» name => .token (.variable name none)

end Part

/-- A pattern that begins with a slash, of characters that mean themselves and of variables. -/
structure Template where
  parts : List Part
  rooted : parts.head? = some (.sign '/')
  plain : ∀ part ∈ parts, part.isPlain

def partNames (parts : List Part) : List String := parts.filterMap Part.name?

namespace Template

def text (t : Template) : String := String.ofList (t.parts.flatMap Part.text)

def names (t : Template) : List String := partNames t.parts

/-- The parts between slashes; in front of the first slash there are none. -/
def segments (t : Template) : List (List Part) := t.parts.splitOn (.sign '/')

end Template

variable {parts : List Part} {segments : List (List Part)}

theorem flatMap_intercalate {α β : Type} (f : α → List β) (x : α) (rows : List (List α)) :
    ([x].intercalate rows).flatMap f = (f x).intercalate (rows.map (·.flatMap f)) := by
  induction rows with
  | nil => simp
  | cons row rows ih =>
    cases rows with
    | nil => simp
    | cons row' rows =>
      rw [List.intercalate_cons_cons, List.map_cons, List.map_cons, List.intercalate_cons_cons,
        List.flatMap_append, List.flatMap_append, ih, List.flatMap_singleton]
      rfl

theorem ne_brace_of_isPlain {name : String} (hplain : (Part.variable name).isPlain) :
    ∀ c ∈ name.toList, c ≠ '\x7b' ∧ c ≠ '\x7d' := by
  intro c hc
  have hc := List.all_eq_true.mp hplain c hc
  simp only [Bool.and_eq_true, bne_iff_ne] at hc
  exact ⟨hc.1.1.1, hc.1.1.2⟩

private theorem balanced_of_isPlain {name : String} (hplain : (Part.variable name).isPlain) :
    Balanced 0 name.toList := balanced_of_braceless (ne_brace_of_isPlain hplain)

private theorem variableParts_of_isPlain {name : String} (hplain : (Part.variable name).isPlain) :
    variableParts name.toList = (name.toList, none) := by
  rw [Part.isPlain, List.all_eq_true] at hplain
  apply variableParts_of_bare
  · intro hcolon
    simpa using hplain ':' hcolon
  · intro c hc
    have hc := hplain c hc
    simp only [Bool.and_eq_true, Bool.not_eq_true'] at hc
    exact hc.2

private theorem splitSegments_parts (hplain : ∀ part ∈ parts, part.isPlain)
    (hslash : Part.sign '/' ∉ parts)
    (rest : List Char) : splitSegments 0 (parts.flatMap Part.text ++ rest) =
      (splitSegments 0 rest).map ((parts.flatMap Part.text).foldr Text.consHead ·) := by
  induction parts with
  | nil => simp
  | cons part parts ih =>
    rw [List.forall_mem_cons] at hplain
    rw [List.mem_cons, not_or] at hslash
    have ih := ih hplain.2 hslash.2
    cases part with
    | sign c =>
      have hne : c ≠ '/' := fun h => hslash.1 (by rw [h])
      rw [List.flatMap_cons, Part.text, List.singleton_append, List.cons_append,
        splitSegments_plain hplain.1 hne, ih, Option.map_map]
      rfl
    | «variable» name =>
      rw [List.flatMap_cons, List.append_assoc, Part.text_variable_append, splitSegments,
        if_pos rfl, splitSegments_body (balanced_of_isPlain hplain.1), ih, Option.map_map,
        Option.map_map]
      congr 1
      funext pieces
      simp [Part.text]

private theorem splitSegments_segments (hne : segments ≠ [])
    (hplain : ∀ segment ∈ segments, ∀ part ∈ segment, part.isPlain)
    (hslash : ∀ segment ∈ segments, Part.sign '/' ∉ segment) :
    splitSegments 0 (['/'].intercalate (segments.map (·.flatMap Part.text))) =
      some (segments.map (·.flatMap Part.text)) := by
  induction segments with
  | nil => exact absurd rfl hne
  | cons segment segments ih =>
    rw [List.forall_mem_cons] at hplain hslash
    cases segments with
    | nil =>
      have hlast := splitSegments_parts hplain.1 hslash.1 []
      rw [List.append_nil, splitSegments, if_pos rfl, Option.map_some, Text.foldr_consHead,
        List.append_nil] at hlast
      simpa using hlast
    | cons next segments =>
      have ih := ih (List.cons_ne_nil _ _) hplain.2 hslash.2
      rw [List.map_cons] at ih
      rw [List.map_cons, List.map_cons, List.intercalate_cons_cons, List.append_assoc,
        List.singleton_append, splitSegments_parts hplain.1 hslash.1, splitSegments,
        if_neg (by decide), if_neg (by decide), if_pos (by decide), ih, Option.map_some,
        Option.map_some, Text.foldr_consHead, List.append_nil]

theorem partNames_cons (part : Part) (parts : List Part) :
    partNames (part :: parts) = part.name?.toList ++ partNames parts := by
  rw [partNames, partNames, List.filterMap_cons]
  cases part.name? <;> rfl

/-- The tokens that are read are those of the parts, and only names that are new. -/
private theorem readTokens_parts {pattern : String} {seen names : List String} {row : List Token}
    (hplain : ∀ part ∈ parts, part.isPlain) (hseen : seen.Nodup)
    (hread : readTokens pattern seen (parts.flatMap Part.text) = .ok (row, names)) :
    row = parts.map Part.token ∧ names = seen ++ partNames parts ∧ names.Nodup := by
  induction parts generalizing seen row with
  | nil =>
    rw [List.flatMap_nil, readTokens] at hread
    cases hread
    exact ⟨rfl, (List.append_nil names).symm, hseen⟩
  | cons part parts ih =>
    rw [List.forall_mem_cons] at hplain
    cases part with
    | sign c =>
      obtain ⟨hopen, hclose, hstar, hmark⟩ := isPlainChar_iff.mp hplain.1
      rw [List.flatMap_cons, Part.text, List.singleton_append, readTokens, if_neg hopen,
        if_neg hclose, if_neg hstar, if_neg hmark] at hread
      obtain ⟨answer, hrest, hread⟩ := except_map_ok hread
      cases hread
      obtain ⟨hrow, hnames⟩ := ih hplain.2 hseen hrest
      rw [hrow]
      exact ⟨rfl, hnames⟩
    | «variable» name =>
      rw [List.flatMap_cons, Part.text_variable_append, readTokens, if_pos rfl] at hread
      split at hread
      · cases hread
      · next body after hbody =>
        rw [takeBody_append (balanced_of_isPlain hplain.1)] at hbody
        cases hbody
        rw [variableParts_of_isPlain hplain.1] at hread
        dsimp only at hread
        rw [String.ofList_toList] at hread
        split at hread
        · cases hread
        · split at hread
          · cases hread
          · next hnew =>
            obtain ⟨answer, hrest, hread⟩ := except_map_ok hread
            cases hread
            have hseen' : (seen ++ [name]).Nodup := by
              rw [List.contains_iff_mem] at hnew
              rw [List.nodup_append]
              refine ⟨hseen, by simp, ?_⟩
              intro other hother last hlast heq
              rw [heq, List.mem_singleton.mp hlast] at hother
              exact hnew hother
            obtain ⟨hrow, hnames, hnodup⟩ := ih hplain.2 hseen' hrest
            rw [hrow, hnames, List.append_assoc]
            exact ⟨rfl, rfl, by rwa [hnames, List.append_assoc] at hnodup⟩

private theorem readSegments_segments {pattern : String} {seen names : List String}
    {read : List Segment} (hplain : ∀ segment ∈ segments, ∀ part ∈ segment, part.isPlain)
    (hseen : seen.Nodup)
    (hread : readSegments pattern seen (segments.map (·.flatMap Part.text)) = .ok (read, names)) :
    read = segments.map (fun segment => .tokens (segment.map Part.token)) ∧
      names = seen ++ segments.flatMap partNames ∧ names.Nodup := by
  induction segments generalizing seen read with
  | nil =>
    cases hread
    exact ⟨rfl, (List.append_nil names).symm, hseen⟩
  | cons segment segments ih =>
    rw [List.forall_mem_cons] at hplain
    have hsubtree : segment.flatMap Part.text ≠ ['*', '*'] := by
      cases segment with
      | nil => simp
      | cons part segment =>
        cases part with
        | sign c =>
          have hc := hplain.1 (.sign c) List.mem_cons_self
          simp [Part.text, (isPlainChar_iff.mp hc).2.2.1]
        | «variable» name => simp [Part.text]
    rw [List.map_cons, readSegments, if_neg hsubtree] at hread
    obtain ⟨⟨row, seen'⟩, hrow, hread⟩ := except_bind_ok hread
    obtain ⟨rfl, rfl, hnodup⟩ := readTokens_parts hplain.1 hseen hrow
    obtain ⟨answer, hrest, hread⟩ := except_bind_ok hread
    cases hread
    obtain ⟨hread, hnames, hall⟩ := ih hplain.2 hnodup hrest
    rw [hread, hnames, List.append_assoc]
    exact ⟨rfl, rfl, by rwa [hnames, List.append_assoc] at hall⟩

private theorem map_piece_of_slashless (hslash : Part.sign '/' ∉ parts) :
    parts.map Part.piece = (parts.map Part.token).map Piece.token := by
  rw [List.map_map, List.map_inj_left]
  intro part hpart
  cases part with
  | sign c =>
    have hne : c ≠ '/' := by
      rintro rfl
      exact hslash hpart
    rw [Part.piece, if_neg hne]
    rfl
  | «variable» name => rfl

/-- Behind the pieces of the parts there is at most the one that allows another slash. -/
private theorem innerPieces_segments (hne : segments ≠ [])
    (hslash : ∀ segment ∈ segments, Part.sign '/' ∉ segment) :
    ∃ last, (last = [] ∨ last = [.optionalSlash]) ∧
      innerPieces false (segments.map fun segment => .tokens (segment.map Part.token)) =
        (segments.flatMap (.sign '/' :: ·)).map Part.piece ++ last := by
  induction segments with
  | nil => exact absurd rfl hne
  | cons segment segments ih =>
    rw [List.forall_mem_cons] at hslash
    have hpieces := map_piece_of_slashless hslash.1
    cases segments with
    | nil =>
      cases segment with
      | nil => exact ⟨[], .inl rfl, rfl⟩
      | cons part segment =>
        refine ⟨[.optionalSlash], .inr rfl, ?_⟩
        rw [List.map_singleton, innerPieces_tokens false (by simp), ← hpieces]
        simp [Part.piece, innerPieces]
    | cons next segments =>
      obtain ⟨last, hlast, hrest⟩ := ih (List.cons_ne_nil _ _) hslash.2
      have hparts : (segment :: next :: segments).flatMap (Part.sign '/' :: ·) =
          (Part.sign '/' :: segment) ++ (next :: segments).flatMap (Part.sign '/' :: ·) := rfl
      refine ⟨last, hlast, ?_⟩
      rw [List.map_cons, innerPieces_tokens false (by simp), hrest, ← hpieces, hparts,
        List.map_append, List.append_assoc]
      rfl

private theorem getLast?_text (hplain : ∀ part ∈ parts, part.isPlain) :
    (parts.flatMap Part.text).getLast? ≠ some '*' := by
  rcases List.eq_nil_or_concat parts with rfl | ⟨front, part, rfl⟩
  · simp
  · rw [List.concat_eq_append] at hplain ⊢
    rw [List.flatMap_append, List.flatMap_singleton, List.getLast?_append]
    cases part with
    | sign c =>
      have hc := hplain (.sign c) (by simp)
      simp [Part.text, (isPlainChar_iff.mp hc).2.2.1]
    | «variable» name =>
      rw [Part.text, ← List.cons_append, List.getLast?_concat]
      simp

namespace Template

variable (t : Template)

def rest : List Part := t.parts.tail

theorem parts_eq : t.parts = .sign '/' :: t.rest := (List.cons_head?_tail t.rooted).symm

private theorem unroot_text : unroot t.text.toList = t.rest.flatMap Part.text := by
  rw [text, String.toList_ofList, parts_eq, List.flatMap_cons]
  rfl

private theorem isPlain_rest : ∀ part ∈ t.rest, part.isPlain := fun part hpart =>
  t.plain part (List.mem_of_mem_tail hpart)

theorem exists_segments : ∃ segments, segments ≠ [] ∧ t.segments = [] :: segments ∧
    (∀ segment ∈ segments, Part.sign '/' ∉ segment) ∧
    t.rest = [Part.sign '/'].intercalate segments ∧
    t.parts = segments.flatMap (.sign '/' :: ·) := by
  have hjoin (segments : List (List Part)) (hne : segments ≠ []) :
      Part.sign '/' :: [Part.sign '/'].intercalate segments =
        segments.flatMap (.sign '/' :: ·) := by
    induction segments with
    | nil => exact absurd rfl hne
    | cons segment segments ih =>
      cases segments with
      | nil => simp
      | cons next segments =>
        rw [List.intercalate_cons_cons, List.flatMap_cons, ← ih (List.cons_ne_nil _ _)]
        simp
  have hne := List.splitOn_ne_nil (Part.sign '/') t.rest
  refine ⟨t.rest.splitOn (.sign '/'), hne, ?_, fun _ => not_mem_of_mem_splitOn, ?_, ?_⟩
  · rw [segments, parts_eq, List.splitOn_cons_eq_if_modifyHead, if_pos (by simp)]
  · rw [List.intercalate_splitOn]
  · rw [← hjoin _ hne, List.intercalate_splitOn, parts_eq]

theorem names_eq (hparts : t.parts = segments.flatMap (.sign '/' :: ·)) :
    t.names = segments.flatMap partNames := by
  rw [names, hparts, partNames, List.filterMap_flatMap]
  rfl

/-- What is read of a template are its parts. -/
theorem of_read {read : List Segment} {names : List String}
    (hread : Pattern.read t.text = .ok (read, names)) :
    t.names.Nodup ∧ names = t.names ∧ (∀ segment ∈ read, segment.isPlain) ∧
      ∃ last, (last = [] ∨ last = [Piece.optionalSlash]) ∧
        rootedPieces false read = t.parts.map Part.piece ++ last := by
  obtain ⟨segments, hne, -, hslash, hrest, hparts⟩ := t.exists_segments
  by_cases hroot : unroot t.text.toList = []
  · have hnone : t.rest = [] := by
      rw [unroot_text, List.flatMap_eq_nil_iff] at hroot
      rw [List.eq_nil_iff_forall_not_mem]
      intro part hpart
      have hempty := hroot part hpart
      cases part <;> cases hempty
    have hslashOnly : t.parts = [.sign '/'] := by rw [parts_eq, hnone]
    obtain ⟨rfl, rfl⟩ := read_root hread hroot
    rw [Template.names, hslashOnly]
    exact ⟨List.nodup_nil, rfl, List.forall_mem_nil _, [], .inl rfl, rfl⟩
  · obtain ⟨texts, hsplit, hsegments⟩ := read_ok hread hroot
    have hplain : ∀ segment ∈ segments, ∀ part ∈ segment, part.isPlain := by
      intro segment hsegment part hpart
      apply t.plain
      rw [hparts]
      exact List.mem_flatMap.mpr ⟨segment, hsegment, List.mem_cons_of_mem _ hpart⟩
    rw [unroot_text, hrest, flatMap_intercalate, Part.text,
      splitSegments_segments hne hplain hslash] at hsplit
    cases hsplit
    obtain ⟨rfl, hnames, hnodup⟩ := readSegments_segments hplain List.nodup_nil hsegments
    rw [List.nil_append, ← t.names_eq hparts] at hnames
    rw [hnames] at hnodup
    obtain ⟨last, hlast, hpieces⟩ := innerPieces_segments hne hslash
    refine ⟨hnodup, hnames, ?_, last, hlast, ?_⟩
    · intro segment hsegment
      obtain ⟨parts, -, rfl⟩ := List.mem_map.mp hsegment
      rw [Segment.isPlain, List.any_map, Bool.not_eq_true', List.any_eq_false]
      intro part _
      cases part <;> exact Bool.false_ne_true
    · rw [hparts, ← hpieces]
      cases segments with
      | nil => exact absurd rfl hne
      | cons segment segments => rfl

/-- A template compiles to the expressions of its parts. -/
theorem of_parse {compiled : PathPattern} (hparse : PathPattern.parse t.text = .ok compiled) :
    t.names.Nodup ∧ compiled.names = t.names ∧ ∃ last, (last = [] ∨ last = [Piece.optionalSlash]) ∧
      (∀ p ∈ t.parts.map Part.piece ++ last, p.isInner) ∧
      compiled.regex = Regex.seqs ((Piece.start ::
        (t.parts.map Part.piece ++ last ++ [Piece.stop])).map Piece.node) := by
  obtain ⟨read, names, hread⟩ := parse_ok hparse
  obtain ⟨hnodup, rfl, hplain, last, hlast, hpieces⟩ := t.of_read hread
  have hopen : Text.endsWith ['*', '*'] (unroot t.text.toList) = false := by
    rw [← Bool.not_eq_true, Text.endsWith_iff, unroot_text]
    rintro ⟨front, hfront⟩
    apply getLast?_text t.isPlain_rest
    rw [← hfront, List.getLast?_append]
    rfl
  have hinner : ∀ p ∈ rootedPieces false _, p.isInner := isInner_rootedPieces hplain
  have heq := parse_eq_of_read hread hplain
  rw [hopen, hpieces, hparse] at heq
  rw [hpieces] at hinner
  cases heq
  exact ⟨hnodup, rfl, last, hlast, hinner, rfl⟩

end Template

end Pattern

end Switchyard
