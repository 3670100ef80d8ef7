import Switchyard.Pattern.Basic
import Switchyard.Proofs.Regex.Between
/-!
# What patterns match

A pattern without expressions of its own matches a path when the path is put together from texts
that its pieces take, one after the other (`parse_of_read`).
-/

namespace Switchyard

namespace Pattern

private theorem contains_but {c : Char} (d : Char) (hd : 0 < d.toNat) :
    (CharSet.mk [(0, d.toNat - 1), (d.toNat + 1, CharSet.maxCode)]).contains c ↔ c ≠ d := by
  have hmax : c.toNat ≤ CharSet.maxCode := by
    have h := c.valid
    simp only [UInt32.isValidChar, Nat.isValidChar] at h
    change c.val.toNat ≤ 0x10FFFF
    omega
  have hcode : c = d ↔ c.toNat = d.toNat := Char.toNat_inj.symm
  simp only [CharSet.contains, CharSet.hasCode, List.any_cons, List.any_nil, Bool.or_false,
    Bool.or_eq_true, Bool.and_eq_true, decide_eq_true_eq, ne_eq, hcode]
  omega

private theorem nonSlash_contains {c : Char} : nonSlash.contains c ↔ c ≠ '/' :=
  contains_but '/' (by decide)

private theorem nonLineFeed_contains {c : Char} : nonLineFeed.contains c ↔ c ≠ '\n' :=
  contains_but '\n' (by decide)

private theorem singleton_contains {c d : Char} : (CharSet.singleton d).contains c ↔ c = d := by
  have hcode : c = d ↔ c.toNat = d.toNat := Char.toNat_inj.symm
  simp only [CharSet.contains, CharSet.hasCode, CharSet.singleton, List.any_cons, List.any_nil,
    Bool.or_false, Bool.and_eq_true, decide_eq_true_eq, hcode]
  omega

/-- The texts that a piece takes up. Where it stands is no matter; the pieces that mark the ends of
a pattern and the variables with expressions of their own are not covered. -/
def Piece.Takes : Piece → List Char → Prop
  | start, _ | stop, _ => False
  | slash, a => a = ['/']
  | optionalSlash, a => a = [] ∨ a = ['/']
  | optionalTail, a => a = [] ∨ ∃ rest, a = '/' :: rest ∧ '\n' ∉ rest
  | token (.literal c), a => a = [c]
  | token .anyChar, a => ∃ c, a = [c] ∧ c ≠ '/'
  | token .anyText, a => '/' ∉ a
  | token (.variable _ none), a => a ≠ [] ∧ '/' ∉ a
  | token (.variable _ (some _)), _ => False

/-- The texts that a row of pieces takes up, one piece after the other. -/
def RowTakes : List Piece → List Char → Prop
  | [], a => a = []
  | p :: row, a => ∃ b c, a = b ++ c ∧ p.Takes b ∧ RowTakes row c

theorem rowTakes_append {row row' : List Piece} {a : List Char} :
    RowTakes (row ++ row') a ↔ ∃ b c, a = b ++ c ∧ RowTakes row b ∧ RowTakes row' c := by
  induction row generalizing a with
  | nil =>
    constructor
    · intro h
      exact ⟨[], a, rfl, rfl, h⟩
    · intro h
      obtain ⟨_, c, rfl, rfl, hc⟩ := h
      exact hc
  | cons p row ih =>
    simp only [List.cons_append, RowTakes, ih]
    constructor
    · intro h
      obtain ⟨b, _, rfl, hb, c, d, rfl, hc, hd⟩ := h
      exact ⟨b ++ c, d, (List.append_assoc b c d).symm, ⟨b, c, rfl, hb, hc⟩, hd⟩
    · intro h
      obtain ⟨_, d, rfl, ⟨b, c, rfl, hb, hc⟩, hd⟩ := h
      exact ⟨b, c ++ d, List.append_assoc b c d, hb, c, d, rfl, hc, hd⟩

/-- True for a piece inside a pattern, if it is no variable with an expression of its own. -/
def Piece.isInner : Piece → Bool
  | start | stop => false
  | p => !p.isCustom

section

open Regex

variable {s : List Char} {i j : Nat}

private theorem spans_char_iff {c : Char} : Spans (.ofText s) (char c) i j ↔ Between s i j [c] := by
  rw [Regex.char, spans_set_iff]
  constructor
  · intro h
    obtain ⟨d, hd, hij⟩ := h
    rw [singleton_contains.mp hd] at hij
    exact hij
  · intro h
    exact ⟨c, singleton_contains.mpr rfl, h⟩

private theorem many_nonSlash_iff :
    Many (Spans (.ofText s) (set nonSlash)) i j ↔ ∃ a : List Char, '/' ∉ a ∧ Between s i j a := by
  simp only [many_set_iff, nonSlash_contains, List.forall_mem_ne']

theorem many_nonLineFeed_iff :
    Many (Spans (.ofText s) (set nonLineFeed)) i j ↔
      ∃ a : List Char, '\n' ∉ a ∧ Between s i j a := by
  simp only [many_set_iff, nonLineFeed_contains, List.forall_mem_ne']

private theorem spans_optionalSlash_iff : Spans (.ofText s) Piece.optionalSlash.node i j ↔
    ∃ a, Piece.optionalSlash.Takes a ∧ Between s i j a := by
  change (Spans _ (Regex.char '/') i j ∨ j = i) ↔ _
  rw [spans_char_iff, ← between_nil (s := s)]
  constructor
  · intro h
    cases h with
    | inl h => exact ⟨_, .inr rfl, h⟩
    | inr h => exact ⟨_, .inl rfl, h⟩
  · intro h
    obtain ⟨a, ha, hij⟩ := h
    cases ha with
    | inl ha => exact .inr (ha ▸ hij)
    | inr ha => exact .inl (ha ▸ hij)

private theorem spans_optionalTail_iff : Spans (.ofText s) Piece.optionalTail.node i j ↔
    ∃ a, Piece.optionalTail.Takes a ∧ Between s i j a := by
  change ((∃ k, Spans _ (Regex.char '/') i k ∧ Many (Spans _ (set nonLineFeed)) k j) ∨ j = i) ↔ _
  simp only [spans_char_iff, many_nonLineFeed_iff]
  rw [← between_nil (s := s)]
  constructor
  · intro h
    cases h with
    | inl h =>
      obtain ⟨k, hik, a, ha, hkj⟩ := h
      exact ⟨'/' :: a, .inr ⟨a, rfl, ha⟩, between_append.mpr ⟨k, hik, hkj⟩⟩
    | inr h => exact ⟨_, .inl rfl, h⟩
  · intro h
    obtain ⟨a, ha, hij⟩ := h
    cases ha with
    | inl ha => exact .inr (ha ▸ hij)
    | inr ha =>
      obtain ⟨rest, rfl, hrest⟩ := ha
      obtain ⟨k, hik, hkj⟩ := (between_append (a := ['/'])).mp hij
      exact .inl ⟨k, hik, rest, hrest, hkj⟩

private theorem spans_anyChar_iff : Spans (.ofText s) (Piece.token .anyChar).node i j ↔
    ∃ a, (Piece.token .anyChar).Takes a ∧ Between s i j a := by
  change Spans _ (set nonSlash) i j ↔ _
  rw [spans_set_iff]
  constructor
  · intro h
    obtain ⟨c, hc, hij⟩ := h
    exact ⟨[c], ⟨c, rfl, nonSlash_contains.mp hc⟩, hij⟩
  · intro h
    obtain ⟨a, ⟨c, rfl, hc⟩, hij⟩ := h
    exact ⟨c, nonSlash_contains.mpr hc, hij⟩

private theorem spans_variable_iff {name : String} :
    Spans (.ofText s) (Piece.token (.variable name none)).node i j ↔
      ∃ a, (Piece.token (.variable name none)).Takes a ∧ Between s i j a := by
  change (∃ k, Spans _ (set nonSlash) i k ∧ Many (Spans _ (set nonSlash)) k j) ↔ _
  simp only [spans_set_iff, many_nonSlash_iff]
  constructor
  · intro h
    obtain ⟨k, ⟨c, hc, hik⟩, a, ha, hkj⟩ := h
    refine ⟨c :: a, ⟨List.cons_ne_nil c a, ?_⟩, between_append.mpr ⟨k, hik, hkj⟩⟩
    rw [List.mem_cons, not_or]
    exact ⟨(nonSlash_contains.mp hc).symm, ha⟩
  · intro h
    obtain ⟨a, ⟨hne, ha⟩, hij⟩ := h
    cases a with
    | nil => exact absurd rfl hne
    | cons c a =>
      rw [List.mem_cons, not_or] at ha
      obtain ⟨k, hik, hkj⟩ := (between_append (a := [c])).mp hij
      exact ⟨k, ⟨c, nonSlash_contains.mpr (Ne.symm ha.1), hik⟩, a, ha.2, hkj⟩

theorem spans_node_iff {p : Piece} (hp : p.isInner) :
    Spans (.ofText s) p.node i j ↔ ∃ a, p.Takes a ∧ Between s i j a := by
  cases p with
  | start => cases hp
  | stop => cases hp
  | slash => simp only [Piece.node, Piece.Takes, spans_char_iff, exists_eq_left]
  | optionalSlash => exact spans_optionalSlash_iff
  | optionalTail => exact spans_optionalTail_iff
  | token t =>
    cases t with
    | literal c => simp only [Piece.node, Piece.Takes, spans_char_iff, exists_eq_left]
    | anyChar => exact spans_anyChar_iff
    | anyText => exact many_nonSlash_iff
    | «variable» name custom =>
      cases custom with
      | some text => cases hp
      | none => exact spans_variable_iff

/-- Inner pieces up to the end of a text take up all that is left of it. -/
private theorem spans_row_iff {row : List Piece} (hrow : ∀ p ∈ row, p.isInner) (hi : i ≤ s.length) :
    Spans (.ofText s) (seqs ((row ++ [Piece.stop]).map Piece.node)) i j ↔
      RowTakes row (s.drop i) ∧ j = s.length := by
  induction row generalizing i with
  | nil => exact spans_textEnd_iff hi
  | cons p row ih =>
    have hp : ∀ k, Spans (.ofText s) p.node i k ↔ ∃ a, p.Takes a ∧ Between s i k a := fun _ =>
      spans_node_iff (hrow p List.mem_cons_self)
    rw [List.cons_append, List.map_cons]
    exact spans_seqs_cons_iff hi hp fun k hk =>
      ih (fun q hq => hrow q (List.mem_cons_of_mem _ hq)) hk

theorem isMatch_row_iff {row : List Piece} (hrow : ∀ p ∈ row, p.isInner) (s : List Char) :
    (seqs ((Piece.start :: (row ++ [Piece.stop])).map Piece.node)).isMatch s ↔ RowTakes row s :=
  isMatch_anchored_iff fun _ _ => spans_row_iff hrow

end

/-- True for a segment without expressions of its own. -/
def Segment.isPlain : Segment → Bool
  | .subtree => true
  | .tokens row => !row.any Token.isCustom

/-- The pieces of segments without the mark of the end. -/
def innerPieces (openEnd : Bool) : List Segment → List Piece
  | [] => if openEnd then [] else [.optionalSlash]
  | .subtree :: rest => .optionalTail :: innerPieces openEnd rest
  | [.tokens []] => [.slash]
  | .tokens row :: rest => .slash :: row.map .token ++ innerPieces openEnd rest

/-- The pieces inside a pattern; one without segments is the root. -/
def rootedPieces (openEnd : Bool) : List Segment → List Piece
  | [] => [.slash]
  | segments => innerPieces openEnd segments

theorem innerPieces_tokens (openEnd : Bool) {row : List Token} {rest : List Segment}
    (hne : row = [] → rest ≠ []) :
    innerPieces openEnd (.tokens row :: rest) =
      .slash :: row.map .token ++ innerPieces openEnd rest := by
  cases row with
  | cons t row => rfl
  | nil =>
    cases rest with
    | nil => exact absurd rfl (hne rfl)
    | cons segment rest => rfl

private theorem segmentPieces_eq (openEnd : Bool) (segments : List Segment) :
    segmentPieces openEnd segments = innerPieces openEnd segments ++ [.stop] := by
  fun_induction segmentPieces openEnd segments with
  | case1 h =>
    rw [innerPieces, if_pos h]
    rfl
  | case2 h =>
    rw [innerPieces, if_neg h]
    rfl
  | case3 rest ih => rw [ih, innerPieces, List.cons_append]
  | case4 => rfl
  | case5 row rest hne ih =>
    rw [ih, innerPieces_tokens openEnd fun h h' => hne h' h, List.append_assoc]

theorem pieces_eq (openEnd : Bool) (segments : List Segment) :
    pieces openEnd segments = .start :: (rootedPieces openEnd segments ++ [.stop]) := by
  cases segments with
  | nil => rfl
  | cons segment rest => rw [pieces, rootedPieces, segmentPieces_eq] <;> simp

private theorem isInner_innerPieces {openEnd : Bool} {segments : List Segment}
    (hplain : ∀ segment ∈ segments, segment.isPlain) :
    ∀ p ∈ innerPieces openEnd segments, p.isInner := by
  induction segments with
  | nil => cases openEnd <;> simp [innerPieces, Piece.isInner, Piece.isCustom]
  | cons segment rest ih =>
    have ih := ih fun segment' h => hplain segment' (List.mem_cons_of_mem _ h)
    have hsegment := hplain segment List.mem_cons_self
    cases segment with
    | subtree =>
      rw [innerPieces, List.forall_mem_cons]
      exact ⟨rfl, ih⟩
    | tokens row =>
      by_cases hempty : row = [] ∧ rest = []
      · rw [hempty.1, hempty.2]
        simp [innerPieces, Piece.isInner, Piece.isCustom]
      · have hrow : ∀ p ∈ row.map Piece.token, p.isInner := by
          intro p hp
          obtain ⟨t, ht, rfl⟩ := List.mem_map.mp hp
          have hnone : row.any Token.isCustom = false := by simpa [Segment.isPlain] using hsegment
          have hcustom := List.any_eq_false.mp hnone t ht
          simpa [Piece.isInner, Piece.isCustom] using hcustom
        rw [innerPieces_tokens openEnd fun h h' => hempty ⟨h, h'⟩]
        intro p hp
        cases List.mem_append.mp hp with
        | inr h => exact ih p h
        | inl h =>
          cases List.mem_cons.mp h with
          | inl h => exact h ▸ rfl
          | inr h => exact hrow p h

theorem isInner_rootedPieces {openEnd : Bool} {segments : List Segment}
    (hplain : ∀ segment ∈ segments, segment.isPlain) :
    ∀ p ∈ rootedPieces openEnd segments, p.isInner := by
  cases segments with
  | nil => simp [rootedPieces, Piece.isInner, Piece.isCustom]
  | cons segment rest => exact isInner_innerPieces hplain

theorem not_isCustom_pieces {openEnd : Bool} {segments : List Segment}
    (hplain : ∀ segment ∈ segments, segment.isPlain) :
    ¬ (pieces openEnd segments).any Piece.isCustom := by
  rw [pieces_eq, List.any_cons, List.any_append]
  simp only [Piece.isCustom, List.any_cons, List.any_nil, Bool.or_false, Bool.false_or,
    List.any_eq_true, not_exists, not_and]
  intro p hp
  have h := isInner_rootedPieces hplain p hp
  cases p with
  | token t => simpa [Piece.isInner, Piece.isCustom] using h
  | _ => exact Bool.false_ne_true

/-- A pattern that can be read, without expressions of its own, compiles to the expressions of its
pieces. -/
theorem parse_eq_of_read {pattern : String} {segments : List Segment} {names : List String}
    (hread : Pattern.read pattern = .ok (segments, names))
    (hplain : ∀ segment ∈ segments, segment.isPlain) :
    PathPattern.parse pattern = .ok {
      raw := pattern
      regex := Regex.seqs ((Piece.start :: (rootedPieces
        (Text.endsWith ['*', '*'] (unroot pattern.toList)) segments ++ [Piece.stop])).map Piece.node)
      names
      singleWildcards := countSingle segments
      doubleWildcards := countSubtrees segments } := by
  have hcompile (openEnd : Bool) : compile (pieces openEnd segments) = .ok (Regex.seqs
      ((Piece.start :: (rootedPieces openEnd segments ++ [Piece.stop])).map Piece.node)) := by
    rw [compile, if_neg (not_isCustom_pieces hplain), pieces_eq]
  simp only [PathPattern.parse, hread, bind, Except.bind, hcompile]
  rfl

/-- A pattern that can be read, without expressions of its own, compiles; and it matches the paths
that its pieces take up. -/
theorem parse_of_read {pattern : String} {segments : List Segment} {names : List String}
    (hread : Pattern.read pattern = .ok (segments, names))
    (hplain : ∀ segment ∈ segments, segment.isPlain) :
    ∃ compiled, PathPattern.parse pattern = .ok compiled ∧ ∀ path, compiled.isMatch path ↔
      RowTakes (rootedPieces (Text.endsWith ['*', '*'] (unroot pattern.toList)) segments)
        path.toList :=
  ⟨_, parse_eq_of_read hread hplain, fun path =>
    isMatch_row_iff (isInner_rootedPieces hplain) path.toList⟩

end Pattern

theorem PathPattern.matchPath_of_isMatch {p : PathPattern} {path : String}
    (h : p.isMatch path) : ∃ params, p.matchPath path = some params := by
  rw [isMatch, ← Regex.isSome_search] at h
  obtain ⟨groups, hgroups⟩ := Option.isSome_iff_exists.mp h
  rw [matchPath, hgroups]
  exact ⟨_, rfl⟩

end Switchyard
