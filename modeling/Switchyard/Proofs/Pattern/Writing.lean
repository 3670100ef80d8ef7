import Switchyard.Proofs.Pattern.Matching
import Switchyard.Proofs.Pattern.Reading
import Switchyard.Proofs.Regex.Extension
import Switchyard.Proofs.Regex.Writing
/-!
# The written form of patterns

Without expressions of its variables a pattern has the expression of its pieces, and this is what is
read of their written forms, put one behind the other (`parse_source`).
-/

namespace Switchyard.Pattern

open Regex

variable {known : List String} {rest : List Char} {p : Piece} {row : List Piece}

private theorem complement_range (a b : Nat) :
    CharSet.complement ⟨[(a, b)]⟩ = ⟨CharSet.gaps 0 [(a, b)]⟩ := by
  rw [CharSet.complement, CharSet.normalize, List.mergeSort_singleton]
  rfl

private theorem complement_slash : (CharSet.singleton '/').complement = nonSlash :=
  complement_range _ _

private theorem complement_lineFeed : CharSet.complement ⟨[(10, 10)]⟩ = nonLineFeed :=
  complement_range _ _

theorem reads_nonSlash (rest : List Char) :
    Reads (.knowing known) ("[^/]".toList ++ rest) [.set nonSlash] (.knowing known) rest := by
  have hsign (repeatable : Bool) :
      readSign (.knowing known) repeatable ('[' :: ("^/]".toList ++ rest)) =
        .ok (.part (.set (CharSet.singleton '/').complement), rest) := rfl
  rw [complement_slash] at hsign
  exact reads_part (s := "^/]".toList) hsign

theorem reads_dot {r : Reader} (hr : r.IsSimple) (rest : List Char) :
    Reads r ('.' :: rest) [.set nonLineFeed] r rest := by
  have hsign (repeatable : Bool) : readSign r repeatable ('.' :: ([] ++ rest)) =
      .ok (.part (.set (CharSet.complement ⟨[(10, 10)]⟩)), rest) := by
    rw [hr.eq]
    rfl
  rw [complement_lineFeed] at hsign
  exact reads_part (s := []) hsign

private theorem reads_slash (rest : List Char) :
    Reads (.knowing known) ('/' :: rest) [.char '/'] (.knowing known) rest :=
  reads_part (s := []) fun _ => rfl

private theorem cutAt_name {name : List Char} (hname : isVariableName name) (rest : List Char) :
    cutAt (· == '>') (name ++ '>' :: rest) = some (name, rest) := by
  refine cutAt_eq_some_iff.mpr ⟨'>', rfl, rfl, ?_⟩
  intro c hc hend
  rw [beq_iff_eq] at hend
  subst hend
  exact absurd (isNameChar_of_isVariableName hname _ hc) (by decide)

theorem readGroupName_name {name : List Char} (hname : isVariableName name) (rest : List Char) :
    readGroupName (name ++ '>' :: rest) = .ok (String.ofList name, rest) := by
  have hcut := cutAt_name hname rest
  cases name with
  | nil => cases hname
  | cons c cs =>
    simp only [isVariableName, Bool.and_eq_true, Bool.or_eq_true, List.all_eq_true,
      decide_eq_true_eq] at hname
    rw [readGroupName, hcut]
    dsimp only
    rw [if_pos]
    rw [Bool.and_eq_true, List.all_eq_true]
    constructor
    · rcases hname.1 with h | h <;> simp [h]
    · intro d hd
      rcases hname.2 d hd with h | h <;> simp [h]

/-- The name of the variable that a token is. -/
def Token.names : Token → List String
  | .variable name _ => [name]
  | _ => []

/-- The names of the variables of a segment. -/
def Segment.names : Segment → List String
  | .subtree => []
  | .tokens row => row.flatMap Token.names

/-- The name of the variable that a piece is. -/
def Piece.names : Piece → List String
  | .token t => t.names
  | _ => []

private theorem source_literal (c : Char) : (Piece.token (.literal c)).source = escape [c] := rfl

private theorem source_variable (name : String) (custom : Option (List Char)) :
    (Piece.token (.variable name custom)).source =
      '(' :: '?' :: 'P' :: '<' ::
        (name.toList ++ ['>'] ++ custom.getD "[^/]+".toList ++ [')']) := rfl

private theorem reads_variable {name : String} (hname : isVariableName name.toList)
    (hnew : name ∉ known) (rest : List Char) :
    Reads (.knowing known) ((Piece.token (.variable name none)).source ++ rest)
      [(Piece.token (.variable name none)).node] (.knowing (name :: known)) rest := by
  have hsource : (Piece.token (.variable name none)).source ++ rest =
      '(' :: (("?P<".toList ++ name.toList ++ ['>']) ++ ("[^/]+".toList ++ ')' :: rest)) := by
    rw [source_variable]
    simp
  have hgroup := readGroupName_name hname ("[^/]+".toList ++ ')' :: rest)
  rw [String.ofList_toList] at hgroup
  have hopen (repeatable : Bool) :
      readSign (.knowing known) repeatable
        ('(' :: (("?P<".toList ++ name.toList ++ ['>']) ++ ("[^/]+".toList ++ ')' :: rest))) =
          .ok (.opening (.body .default (some name)), "[^/]+".toList ++ ')' :: rest) := by
    rw [List.append_assoc, List.append_assoc]
    exact readSign_opening (readOpening_name hgroup)
  have henter : (Reader.knowing known).enter .default (some name) =
      .ok (.knowing (name :: known)) := by
    rw [Reader.enter, Reader.knowing, if_neg (by simpa using hnew)]
    rfl
  have hbody : Reads (.knowing (name :: known)) ("[^/]+".toList ++ ')' :: rest)
      [.plus true (.set nonSlash)] (.knowing (name :: known)) (')' :: rest) :=
    (reads_nonSlash _).plus (Reader.isSimple_knowing _) rfl (by decide) (by simp)
  rw [hsource]
  exact reads_group hopen henter hbody

private theorem reads_optionalTail (hrest : rest.head? ≠ some '?') :
    Reads (.knowing known) (Piece.optionalTail.source ++ rest) [Piece.optionalTail.node]
      (.knowing known) rest := by
  have hsimple := Reader.isSimple_knowing known
  have htail : Reads (.knowing known) ('.' :: '*' :: ')' :: '?' :: rest)
      [.star true (.set nonLineFeed)] (.knowing known) (')' :: '?' :: rest) :=
    (reads_dot hsimple _).star hsimple rfl (by simp)
  have hbody : Reads (.knowing known) ('/' :: '.' :: '*' :: ')' :: '?' :: rest)
      [.char '/', .star true (.set nonLineFeed)] (.knowing known) (')' :: '?' :: rest) :=
    (reads_slash _).append htail
  have hopen (repeatable : Bool) :
      readSign (.knowing known) repeatable
        ('(' :: (['?', ':'] ++ '/' :: '.' :: '*' :: ')' :: '?' :: rest)) =
          .ok (.opening (.body .default none), '/' :: '.' :: '*' :: ')' :: '?' :: rest) := rfl
  have hgroup := reads_group hopen rfl hbody
  exact hgroup.optional hsimple rfl (by decide) hrest

theorem reads_piece (hplain : ¬ p.isCustom)
    (hnames : ∀ name ∈ p.names, isVariableName name.toList ∧ name ∉ known)
    (hrest : rest.head? ≠ some '?') :
    Reads (.knowing known) (p.source ++ rest) [p.node] (.knowing (p.names ++ known)) rest := by
  have hsimple := Reader.isSimple_knowing known
  cases p with
  | start => exact reads_caret hsimple rest
  | stop => exact reads_dollar hsimple rest
  | slash => exact reads_slash rest
  | optionalSlash => exact (reads_slash _).optional hsimple rfl (by decide) hrest
  | optionalTail => exact reads_optionalTail hrest
  | token t =>
    cases t with
    | literal c => exact reads_escape hsimple rfl rest
    | anyChar => exact reads_nonSlash rest
    | anyText => exact (reads_nonSlash _).star hsimple rfl hrest
    | «variable» name custom =>
      cases custom with
      | some custom => exact absurd rfl hplain
      | none =>
        obtain ⟨hname, hnew⟩ := hnames name List.mem_cons_self
        exact reads_variable hname hnew rest

theorem head?_source (p : Piece) : p.source.head? ≠ some '?' := by
  cases p with
  | token t =>
    cases t with
    | literal c =>
      rw [source_literal, escape, List.flatMap_singleton]
      split
      · simp
      · next hc =>
        rw [List.head?_cons]
        rintro ⟨⟩
        exact hc (by decide)
    | anyChar => decide
    | anyText => decide
    | «variable» name custom =>
      rw [source_variable]
      simp
  | _ => decide

theorem head?_flatMap_source (row : List Piece) :
    (row.flatMap Piece.source).head? ≠ some '?' := by
  have hnil : ([] : List Char).head? ≠ some '?' := by simp
  simpa using head?_flatMap_append_ne head?_source row hnil

theorem reads_row (hplain : ∀ p ∈ row, ¬ p.isCustom)
    (hvalid : ∀ name ∈ row.flatMap Piece.names, isVariableName name.toList)
    (hnew : (row.flatMap Piece.names ++ known).Nodup) :
    ∃ known', Reads (.knowing known) (row.flatMap Piece.source) (row.map Piece.node)
      (.knowing known') [] := by
  induction row generalizing known with
  | nil => exact ⟨known, .nil _ []⟩
  | cons p row ih =>
    rw [List.forall_mem_cons] at hplain
    rw [List.flatMap_cons, List.forall_mem_append] at hvalid
    rw [List.flatMap_cons, List.append_assoc] at hnew
    have hfirst : ∀ name ∈ p.names, isVariableName name.toList ∧ name ∉ known := by
      intro name hname
      refine ⟨hvalid.1 name hname, fun hknown => ?_⟩
      exact (List.nodup_append.mp hnew).2.2 name hname name (List.mem_append_right _ hknown) rfl
    have hrest : (row.flatMap Piece.names ++ (p.names ++ known)).Nodup := by
      rwa [(List.perm_append_comm_assoc _ _ _).nodup_iff]
    obtain ⟨known', hread⟩ := ih hplain.2 hvalid.2 hrest
    have hpiece := reads_piece hplain.1 hfirst (head?_flatMap_source row)
    exact ⟨known', hpiece.append hread⟩

/-- The written form of a row is read as the expressions of its pieces. -/
theorem parse_source (hplain : ∀ p ∈ row, ¬ p.isCustom)
    (hvalid : ∀ name ∈ row.flatMap Piece.names, isVariableName name.toList)
    (hnodup : (row.flatMap Piece.names).Nodup) :
    Regex.parse (row.flatMap Piece.source) =
      if (seqs (row.map Piece.node)).size ≤ sizeLimit then .ok (seqs (row.map Piece.node))
      else .error .tooLarge := by
  have hnew : (row.flatMap Piece.names ++ []).Nodup := by rwa [List.append_nil]
  obtain ⟨known, hread⟩ := reads_row hplain hvalid hnew
  exact parse_of_reads hread

private theorem names_segmentPieces (openEnd : Bool) (segments : List Segment) :
    (segmentPieces openEnd segments).flatMap Piece.names = segments.flatMap Segment.names := by
  have hrow (row : List Token) :
      (row.map Piece.token).flatMap Piece.names = row.flatMap Token.names := by
    rw [List.flatMap_map]
    rfl
  fun_induction segmentPieces openEnd segments with
  | case1 => rfl
  | case2 => rfl
  | case3 rest ih => simpa [Piece.names, Segment.names] using ih
  | case4 => rfl
  | case5 row rest _ ih => simp [hrow, ih, Piece.names, Segment.names]

theorem names_pieces (openEnd : Bool) (segments : List Segment) :
    (pieces openEnd segments).flatMap Piece.names = segments.flatMap Segment.names := by
  cases segments with
  | nil => rfl
  | cons segment rest => exact names_segmentPieces openEnd (segment :: rest)

end Switchyard.Pattern
