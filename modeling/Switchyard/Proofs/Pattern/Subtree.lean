import Switchyard.Proofs.Pattern.Matching
import Switchyard.Proofs.Pattern.Reading
/-!
# Patterns below a literal path

What patterns match that begin with a literal path `P`: the pattern `P/**`, which is meant for all
that is below `P`, and the patterns of what there may be below it.
-/

namespace Switchyard

namespace Pattern

/-- True for a literal path below which there can be others. -/
def isSubtreeRoot (root : String) : Bool :=
  root.toList.head? == some '/' && root.toList.getLast? != some '/' && root.toList.all isPlainChar

def literalSegment (text : List Char) : Segment := .tokens (text.map .literal)

private theorem splitSegments_literal {q : List Char} (hq : ∀ c ∈ q, isPlainChar c)
    (rest : List Char) :
    ∃ texts, splitSegments 0 (q ++ '/' :: rest) = (splitSegments 0 rest).map (texts ++ ·) ∧
      texts.flatMap ('/' :: ·) = '/' :: q ∧ ∀ text ∈ texts, ∀ c ∈ text, isPlainChar c := by
  induction q with
  | nil =>
    refine ⟨[[]], ?_, rfl, by simp⟩
    simp [splitSegments]
  | cons c q ih =>
    obtain ⟨texts, hsplit, hjoin, hplain⟩ := ih fun d hd => hq d (List.mem_cons_of_mem _ hd)
    by_cases hslash : c = '/'
    · refine ⟨[] :: texts, ?_, ?_, ?_⟩
      · rw [hslash, List.cons_append, splitSegments]
        simp [hsplit, Function.comp_def]
      · rw [List.flatMap_cons, hjoin, hslash]
        rfl
      · rw [List.forall_mem_cons]
        exact ⟨by simp, hplain⟩
    · cases texts with
      | nil => cases hjoin
      | cons text texts =>
        refine ⟨(c :: text) :: texts, ?_, ?_, ?_⟩
        · rw [List.cons_append, splitSegments_plain (hq c List.mem_cons_self) hslash, hsplit,
            Option.map_map]
          rfl
        · rw [List.flatMap_cons] at hjoin ⊢
          rw [List.cons_append, List.cons.injEq] at hjoin
          rw [List.cons_append, List.cons_append, hjoin.2]
        · rw [List.forall_mem_cons] at hplain ⊢
          refine ⟨?_, hplain.2⟩
          rw [List.forall_mem_cons]
          exact ⟨hq c List.mem_cons_self, hplain.1⟩

private theorem readTokens_literal (pattern : String) (seen : List String) {text : List Char}
    (htext : ∀ c ∈ text, isPlainChar c) :
    readTokens pattern seen text = .ok (text.map .literal, seen) := by
  induction text with
  | nil =>
    rw [readTokens]
    rfl
  | cons c text ih =>
    have ih := ih fun d hd => htext d (List.mem_cons_of_mem _ hd)
    obtain ⟨hopen, hclose, hstar, hmark⟩ := isPlainChar_iff.mp (htext c List.mem_cons_self)
    rw [readTokens, if_neg hopen, if_neg hclose, if_neg hstar, if_neg hmark, ih]
    rfl

theorem readSegments_literal (pattern : String) (seen : List String) {texts : List (List Char)}
    (htexts : ∀ text ∈ texts, ∀ c ∈ text, isPlainChar c) (rest : List (List Char)) :
    readSegments pattern seen (texts ++ rest) =
      (readSegments pattern seen rest).map fun (segments, names) =>
        (texts.map literalSegment ++ segments, names) := by
  induction texts with
  | nil => cases hrest : readSegments pattern seen rest <;> simp [hrest, Except.map]
  | cons text texts ih =>
    rw [List.forall_mem_cons] at htexts
    have hsubtree : text ≠ ['*', '*'] := by
      intro h
      have hstar := htexts.1 '*' (by rw [h]; exact List.mem_cons_self)
      exact absurd hstar (by decide)
    rw [List.cons_append, readSegments, if_neg hsubtree, readTokens_literal pattern seen htexts.1]
    change (readSegments pattern seen (texts ++ rest) >>= _) = _
    rw [ih htexts.2]
    cases readSegments pattern seen rest with
    | error e => rfl
    | ok answer => rfl

def literalPieces (texts : List (List Char)) : List Piece :=
  texts.flatMap fun text => .slash :: text.map (.token <| .literal ·)

private theorem innerPieces_literal (openEnd : Bool) (texts : List (List Char))
    {rest : List Segment} (hrest : rest ≠ []) :
    innerPieces openEnd (texts.map literalSegment ++ rest) =
      literalPieces texts ++ innerPieces openEnd rest := by
  induction texts with
  | nil => rfl
  | cons text texts ih =>
    have hne : texts.map literalSegment ++ rest ≠ [] := by simp [hrest]
    rw [List.map_cons, List.cons_append, literalSegment, innerPieces_tokens openEnd fun _ => hne,
      ih, List.map_map, literalPieces, literalPieces, List.flatMap_cons, List.append_assoc]
    rfl

private theorem rowTakes_literal {text a : List Char} :
    RowTakes (text.map (.token <| .literal ·)) a ↔ a = text := by
  induction text generalizing a with
  | nil => rfl
  | cons c text ih =>
    simp only [List.map_cons, RowTakes, Piece.Takes, ih]
    constructor
    · intro h
      obtain ⟨b, d, rfl, rfl, rfl⟩ := h
      rfl
    · intro h
      exact ⟨[c], text, h, rfl, rfl⟩

theorem rowTakes_literalPieces {texts : List (List Char)} {a : List Char} :
    RowTakes (literalPieces texts) a ↔ a = texts.flatMap ('/' :: ·) := by
  induction texts generalizing a with
  | nil => rfl
  | cons text texts ih =>
    rw [literalPieces, List.flatMap_cons, ← literalPieces, rowTakes_append, List.flatMap_cons]
    simp only [RowTakes, Piece.Takes, rowTakes_literal, ih]
    constructor
    · intro h
      obtain ⟨_, _, rfl, ⟨_, _, rfl, rfl, rfl⟩, rfl⟩ := h
      rfl
    · intro h
      exact ⟨'/' :: text, _, h, ⟨['/'], text, rfl, rfl, rfl⟩, rfl⟩

private theorem head_of_rowTakes {openEnd : Bool} {segments : List Segment} {a : List Char}
    (h : RowTakes (innerPieces openEnd segments) a) : a = [] ∨ ∃ rest, a = '/' :: rest := by
  induction segments generalizing a with
  | nil =>
    cases openEnd with
    | true => exact .inl h
    | false =>
      obtain ⟨b, c, rfl, hb, rfl⟩ := h
      cases hb with
      | inl hb => exact .inl (by rw [hb, List.append_nil])
      | inr hb => exact .inr ⟨[], by rw [hb, List.append_nil]⟩
  | cons segment rest ih =>
    cases segment with
    | subtree =>
      obtain ⟨b, c, rfl, hb, hc⟩ := h
      cases hb with
      | inl hb =>
        rw [hb, List.nil_append]
        exact ih hc
      | inr hb =>
        obtain ⟨tail, rfl, -⟩ := hb
        exact .inr ⟨tail ++ c, rfl⟩
    | tokens row =>
      have hslash : ∃ rest', innerPieces openEnd (.tokens row :: rest) = .slash :: rest' := by
        cases row with
        | cons t row => exact ⟨_, rfl⟩
        | nil =>
          cases rest with
          | nil => exact ⟨_, rfl⟩
          | cons segment rest => exact ⟨_, rfl⟩
      obtain ⟨rest', hpieces⟩ := hslash
      rw [hpieces] at h
      obtain ⟨b, c, rfl, rfl, -⟩ := h
      exact .inr ⟨c, rfl⟩

private theorem exists_of_isSubtreeRoot {root : String} (hroot : isSubtreeRoot root) :
    ∃ q, root.toList = '/' :: q ∧ ∀ c ∈ q, isPlainChar c := by
  simp only [isSubtreeRoot, Bool.and_eq_true, beq_iff_eq, List.all_eq_true] at hroot
  obtain ⟨⟨hhead, -⟩, hall⟩ := hroot
  cases hlist : root.toList with
  | nil =>
    rw [hlist] at hhead
    cases hhead
  | cons c q =>
    rw [hlist] at hhead hall
    cases hhead
    exact ⟨q, rfl, fun d hd => hall d (List.mem_cons_of_mem _ hd)⟩

/-- A pattern below a literal path: what it says about the rest of a path it says by the segments
behind the root. -/
private theorem read_below {root : String} (hroot : isSubtreeRoot root) (suffix : String) :
    ∃ texts : List (List Char), texts.flatMap ('/' :: ·) = root.toList ∧
      Pattern.read (root ++ "/" ++ suffix) =
        match splitSegments 0 suffix.toList with
        | none => .error (.unbalanced (root ++ "/" ++ suffix))
        | some rest => (readSegments (root ++ "/" ++ suffix) [] rest).map fun (segments, names) =>
            (texts.map literalSegment ++ segments, names) := by
  obtain ⟨q, hq, hplain⟩ := exists_of_isSubtreeRoot hroot
  obtain ⟨texts, hsplit, hjoin, htexts⟩ := splitSegments_literal hplain suffix.toList
  refine ⟨texts, hjoin.trans hq.symm, ?_⟩
  have hlist : (root ++ "/" ++ suffix).toList = '/' :: (q ++ '/' :: suffix.toList) := by
    rw [String.toList_append, String.toList_append, hq]
    simp
  have hempty : ¬ (root ++ "/" ++ suffix).isEmpty = true := by
    rw [String.isEmpty_iff, ← String.toList_inj, hlist]
    exact List.cons_ne_nil _ _
  rw [Pattern.read, if_neg hempty, hlist, unroot]
  cases hrooted : q ++ '/' :: suffix.toList with
  | nil => exact absurd hrooted (by simp)
  | cons c rooted =>
    dsimp only
    rw [← hrooted, hsplit]
    cases splitSegments 0 suffix.toList with
    | none => rfl
    | some rest => exact readSegments_literal _ [] htexts rest

private theorem isPlain_literalSegment (text : List Char) : (literalSegment text).isPlain := by
  simp [literalSegment, Segment.isPlain, Token.isCustom]

/-- A path is matched below a literal one when it begins with that and the segments behind take up
the rest. -/
private theorem parse_below {root suffix : String} (hroot : isSubtreeRoot root)
    {tail : List (List Char)} {segments : List Segment} {names : List String}
    (htail : splitSegments 0 suffix.toList = some tail)
    (hread : readSegments (root ++ "/" ++ suffix) [] tail = .ok (segments, names))
    (hplain : ∀ segment ∈ segments, segment.isPlain) :
    ∃ compiled, PathPattern.parse (root ++ "/" ++ suffix) = .ok compiled ∧
      ∀ path, compiled.isMatch path ↔ ∃ a, path.toList = root.toList ++ a ∧
        RowTakes (innerPieces
          (Text.endsWith ['*', '*'] (unroot (root ++ "/" ++ suffix).toList)) segments) a := by
  have hne := readSegments_ne_nil (splitSegments_ne_nil htail) hread
  obtain ⟨texts, hjoin, hbelow⟩ := read_below hroot suffix
  rw [htail] at hbelow
  dsimp only at hbelow
  rw [hread] at hbelow
  have hplain' : ∀ segment ∈ texts.map literalSegment ++ segments, segment.isPlain := by
    intro segment hsegment
    cases List.mem_append.mp hsegment with
    | inr h => exact hplain segment h
    | inl h =>
      obtain ⟨text, -, rfl⟩ := List.mem_map.mp h
      exact isPlain_literalSegment text
  obtain ⟨compiled, hparse, hmatch⟩ := parse_of_read hbelow hplain'
  refine ⟨compiled, hparse, ?_⟩
  intro path
  have hrooted (openEnd : Bool) : rootedPieces openEnd (texts.map literalSegment ++ segments) =
      literalPieces texts ++ innerPieces openEnd segments := by
    rw [← innerPieces_literal openEnd texts hne]
    cases hall : texts.map literalSegment ++ segments with
    | nil => exact absurd hall (by simp [hne])
    | cons segment rest => rfl
  rw [hmatch, hrooted, rowTakes_append]
  simp only [rowTakes_literalPieces, hjoin]
  constructor
  · intro h
    obtain ⟨_, a, hpath, rfl, ha⟩ := h
    exact ⟨a, hpath, ha⟩
  · intro h
    obtain ⟨a, hpath, ha⟩ := h
    exact ⟨_, a, hpath, rfl, ha⟩

private theorem balanced_name {name : List Char} (hname : ∀ c ∈ name, isNameChar c) :
    Balanced 0 name :=
  balanced_of_braceless fun c hc =>
    ⟨(isPlain_of_isNameChar (hname c hc)).1, (isPlain_of_isNameChar (hname c hc)).2.1⟩

private theorem splitSegments_name {name : List Char} (hname : ∀ c ∈ name, isNameChar c) :
    splitSegments 1 (name ++ ['\x7d']) = some [name ++ ['\x7d']] := by
  rw [splitSegments_body (balanced_name hname), splitSegments, if_pos rfl, Option.map_some,
    Text.foldr_consHead, List.append_nil]

private theorem takeBody_name {name : List Char} (hname : ∀ c ∈ name, isNameChar c) :
    takeBody 0 (name ++ ['\x7d']) = some (name, []) :=
  takeBody_append (balanced_name hname) []

private theorem variableParts_name {name : List Char} (hname : ∀ c ∈ name, isNameChar c) :
    variableParts name = (name, none) :=
  variableParts_of_bare (fun hc => (isPlain_of_isNameChar (hname _ hc)).2.2.2 rfl)
    fun c hc => isBlank_of_isNameChar (hname c hc)

private theorem readTokens_variable (pattern : String) {name : List Char}
    (hname : isVariableName name) : readTokens pattern [] ('\x7b' :: (name ++ ['\x7d'])) =
      .ok ([.variable (String.ofList name) none], [String.ofList name]) := by
  have hchars := isNameChar_of_isVariableName hname
  rw [readTokens, if_pos rfl]
  split
  · next h =>
    rw [takeBody_name hchars] at h
    cases h
  · next body after h =>
    rw [takeBody_name hchars] at h
    cases h
    rw [variableParts_name hchars]
    simp only [hname, Bool.not_true, Bool.false_eq_true, if_false, List.contains_nil, readTokens]
    rfl

private theorem readSegments_variable (pattern : String) {name : List Char}
    (hname : isVariableName name) : readSegments pattern [] ['\x7b' :: (name ++ ['\x7d'])] =
      .ok ([.tokens [.variable (String.ofList name) none]], [String.ofList name]) := by
  rw [readSegments, if_neg (by simp), readTokens_variable pattern hname]
  rfl

end Pattern

def IsBelow (root path : String) : Prop := path = root ∨ ∃ rest, path = root ++ "/" ++ rest

/-- Paths below a root that go on without a line feed. -/
def IsReached (root path : String) : Prop :=
  path = root ∨ ∃ rest, path = root ++ "/" ++ rest ∧ '\n' ∉ rest.toList

namespace PathPattern

open Pattern

theorem below_of_isMatch {root suffix : String} (hroot : isSubtreeRoot root)
    {segments : List Segment} {names : List String}
    (hread : Pattern.read (root ++ "/" ++ suffix) = .ok (segments, names))
    (hplain : ∀ segment ∈ segments, segment.isPlain) {compiled : PathPattern}
    (hparse : PathPattern.parse (root ++ "/" ++ suffix) = .ok compiled) {path : String}
    (hmatch : compiled.isMatch path) : IsBelow root path := by
  obtain ⟨texts, -, hbelow⟩ := read_below hroot suffix
  rw [hread] at hbelow
  cases htail : splitSegments 0 suffix.toList with
  | none =>
    rw [htail] at hbelow
    cases hbelow
  | some tail =>
    rw [htail] at hbelow
    dsimp only at hbelow
    obtain ⟨⟨rest, names'⟩, hrest, hbelow⟩ := except_map_ok hbelow.symm
    cases hbelow
    obtain ⟨compiled', hparse', hiff⟩ := parse_below hroot htail hrest fun segment h =>
      hplain segment (List.mem_append_right _ h)
    rw [hparse] at hparse'
    cases hparse'
    obtain ⟨a, hpath, ha⟩ := (hiff path).mp hmatch
    cases head_of_rowTakes ha with
    | inl h =>
      rw [h, List.append_nil] at hpath
      exact .inl (String.toList_inj.mp hpath)
    | inr h =>
      obtain ⟨rest, rfl⟩ := h
      refine .inr ⟨String.ofList rest, String.toList_inj.mp ?_⟩
      simp [hpath]

theorem parse_subtree {root : String} (hroot : isSubtreeRoot root) :
    ∃ compiled, PathPattern.parse (root ++ "/**") = .ok compiled ∧
      ∀ path, compiled.isMatch path ↔ IsReached root path := by
  have hpattern : root ++ "/**" = root ++ "/" ++ "**" := by
    rw [String.append_assoc]
    rfl
  have hread : readSegments (root ++ "/" ++ "**") [] [['*', '*']] = .ok ([.subtree], []) := rfl
  have htail : splitSegments 0 "**".toList = some [['*', '*']] := by decide
  obtain ⟨compiled, hparse, hiff⟩ := parse_below hroot htail hread (by simp [Segment.isPlain])
  refine ⟨compiled, hpattern ▸ hparse, ?_⟩
  have hopen : Text.endsWith ['*', '*'] (unroot (root ++ "/" ++ "**").toList) = true := by
    obtain ⟨q, hq, -⟩ := exists_of_isSubtreeRoot hroot
    simp [String.toList_append, hq, unroot, Text.endsWith, Text.startsWith, Text.dropStart?]
  intro path
  rw [hiff, hopen]
  constructor
  · intro h
    obtain ⟨a, hpath, b, c, rfl, hb, rfl⟩ := h
    rw [List.append_nil] at hpath
    cases hb with
    | inl hb =>
      rw [hb, List.append_nil] at hpath
      exact .inl (String.toList_inj.mp hpath)
    | inr hb =>
      obtain ⟨rest, rfl, hrest⟩ := hb
      refine .inr ⟨String.ofList rest, String.toList_inj.mp ?_, by simpa using hrest⟩
      simp [hpath]
  · intro h
    cases h with
    | inl h => exact ⟨[], by simp [h], [], [], rfl, .inl rfl, rfl⟩
    | inr h =>
      obtain ⟨rest, rfl, hrest⟩ := h
      exact ⟨'/' :: rest.toList, by simp, '/' :: rest.toList, [], by simp,
        .inr ⟨rest.toList, rfl, hrest⟩, rfl⟩

/-- The pattern of one variable below a literal path matches whatever is one segment below it. -/
theorem parse_variable {root name : String} (hroot : isSubtreeRoot root)
    (hname : isVariableName name.toList) :
    ∃ compiled, PathPattern.parse (root ++ "/" ++ ("\x7b" ++ name ++ "\x7d")) = .ok compiled ∧
      ∀ path, compiled.isMatch path ↔ ∃ value, value ≠ "" ∧ '/' ∉ value.toList ∧
        (path = root ++ "/" ++ value ∨ path = root ++ "/" ++ value ++ "/") := by
  have hlist : ("\x7b" ++ name ++ "\x7d").toList = '\x7b' :: (name.toList ++ ['\x7d']) := by simp
  have htail : splitSegments 0 ("\x7b" ++ name ++ "\x7d").toList =
      some ['\x7b' :: (name.toList ++ ['\x7d'])] := by
    rw [hlist, splitSegments, if_pos rfl,
      splitSegments_name (isNameChar_of_isVariableName hname)]
    rfl
  obtain ⟨compiled, hparse, hiff⟩ := parse_below hroot htail (readSegments_variable _ hname)
    (by simp [Segment.isPlain, Token.isCustom])
  refine ⟨compiled, hparse, ?_⟩
  have hclosed : Text.endsWith ['*', '*']
      (unroot (root ++ "/" ++ ("\x7b" ++ name ++ "\x7d")).toList) = false := by
    obtain ⟨q, hq, -⟩ := exists_of_isSubtreeRoot hroot
    simp [String.toList_append, hq, unroot, Text.endsWith, Text.startsWith, Text.dropStart?]
  intro path
  rw [hiff, hclosed]
  constructor
  · intro h
    obtain ⟨_, hpath, _, _, rfl, rfl, value, _, rfl, ⟨hne, hvalue⟩, last, _, rfl, hlast, rfl⟩ := h
    refine ⟨String.ofList value, by simpa using hne, by simpa using hvalue, ?_⟩
    cases hlast with
    | inl h =>
      refine .inl (String.toList_inj.mp ?_)
      simp [hpath, h]
    | inr h =>
      refine .inr (String.toList_inj.mp ?_)
      simp [hpath, h]
  · intro h
    obtain ⟨value, hne, hvalue, hpath⟩ := h
    have htakes (last : List Char) (hlast : last = [] ∨ last = ['/']) :
        RowTakes (innerPieces false [.tokens [.variable (String.ofList name.toList) none]])
          ('/' :: (value.toList ++ last)) :=
      ⟨['/'], _, rfl, rfl, value.toList, last, rfl, ⟨by simpa using hne, hvalue⟩, last, [],
        (List.append_nil last).symm, hlast, rfl⟩
    cases hpath with
    | inl h => exact ⟨_, by simp [h], htakes [] (.inl rfl)⟩
    | inr h => exact ⟨_, by simp [h], htakes ['/'] (.inr rfl)⟩

end PathPattern

end Switchyard
