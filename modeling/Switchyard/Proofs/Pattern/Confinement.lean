import Switchyard.Proofs.Attempt
import Switchyard.Proofs.Pattern.Subtree
import Switchyard.Proofs.Pattern.Writing
import Switchyard.Proofs.Regex.Groups
/-!
# Expressions inside their variables

A pattern whose variables bring expressions is written out as one text, with these as they stand, and
only the whole text is compiled. Expressions that are bodies of groups stay inside their variables:
the pattern is the row of its pieces, each compiled for itself (`compile_eq_seqs`). So what stands
around them in the pattern holds of its paths (`PathPattern.isMatch_below_literal`), while other ones
may end the group of their variable and go on outside (`PathPattern.isMatch_outside_literal`).
-/

namespace Switchyard

namespace Pattern

open Regex

variable {p : Piece} {row : List Piece} {s rest : List Char} {nodes : List Regex} {node : Regex}

def Token.expression? : Token → Option (List Char)
  | .variable _ custom => custom
  | _ => none

/-- The expressions that the variables of a segment bring. -/
def Segment.expressions : Segment → List (List Char)
  | .subtree => []
  | .tokens row => row.filterMap Token.expression?

def Piece.expression? : Piece → Option (List Char)
  | .token t => t.expression?
  | _ => none

/-- The expressions that the variables of a pattern bring. -/
def expressions (pattern : String) : List (List Char) :=
  match Pattern.read pattern with
  | .error _ => []
  | .ok (segments, _) => segments.flatMap Segment.expressions

private theorem expressions_segmentPieces (openEnd : Bool) (segments : List Segment) :
    (segmentPieces openEnd segments).filterMap Piece.expression? =
      segments.flatMap Segment.expressions := by
  have hrow (row : List Token) : (row.map Piece.token).filterMap Piece.expression? =
      row.filterMap Token.expression? := by
    rw [List.filterMap_map]
    rfl
  fun_induction segmentPieces openEnd segments with
  | case1 => rfl
  | case2 => rfl
  | case3 rest ih =>
    rw [List.filterMap_cons_none rfl, ih]
    rfl
  | case4 => rfl
  | case5 row rest _ ih =>
    rw [List.cons_append, List.filterMap_cons_none rfl, List.filterMap_append, hrow, ih]
    rfl

private theorem expressions_pieces (openEnd : Bool) (segments : List Segment) :
    (pieces openEnd segments).filterMap Piece.expression? =
      segments.flatMap Segment.expressions := by
  cases segments with
  | nil => rfl
  | cons segment rest => exact expressions_segmentPieces openEnd (segment :: rest)

theorem Spells.isVariableName {s : List Char} {row : List Token} (h : Spells s row) :
    ∀ name ∈ row.flatMap Token.names, isVariableName name.toList := by
  induction h with
  | done => simp
  | @sign c s row hopen hclose rest ih =>
    have hsign : (signToken c).names = [] := by
      unfold signToken
      split_ifs <;> rfl
    rw [List.flatMap_cons, hsign]
    exact ih
  | @«variable» body name s custom row hparts hname rest ih =>
    rw [List.flatMap_cons, Token.names, List.forall_mem_append]
    exact ⟨by simpa using hname, ih⟩

private theorem isVariableName_of_read {pattern : String} {segments : List Segment}
    {names : List String} (h : Pattern.read pattern = .ok (segments, names)) :
    ∀ name ∈ segments.flatMap Segment.names, isVariableName name.toList := by
  by_cases hrooted : unroot pattern.toList = []
  · obtain ⟨rfl, -⟩ := read_root h hrooted
    simp
  · obtain ⟨texts, -, hsegments⟩ := read_ok h hrooted
    have hreads := readSegments_readFrom hsegments
    clear h hsegments hrooted
    induction hreads with
    | nil => simp
    | @cons text segment texts segments hsegment _ ih =>
      rw [List.flatMap_cons, List.forall_mem_append]
      refine ⟨?_, ih⟩
      cases segment with
      | subtree => simp [Segment.names]
      | tokens row => exact hsegment.2.isVariableName

/-- The expression of a piece that is compiled for itself. -/
def Piece.ownNode : Piece → Except Fault Regex
  | .token (.variable name (some custom)) => (Regex.parse custom).map (.group name)
  | p => .ok p.node

private theorem ownNode_of_not_isCustom (h : ¬ p.isCustom) : p.ownNode = .ok p.node := by
  cases p with
  | token t =>
    cases t with
    | «variable» name custom =>
      cases custom with
      | some custom => exact absurd rfl h
      | none => rfl
    | _ => rfl
  | _ => rfl

private theorem mapM_ownNode_of_not_isCustom (h : ∀ p ∈ row, ¬ p.isCustom) :
    row.mapM Piece.ownNode = .ok (row.map Piece.node) := by
  induction row with
  | nil => rfl
  | cons p row ih =>
    rw [List.forall_mem_cons] at h
    rw [List.mapM_cons, ownNode_of_not_isCustom h.1, ih h.2]
    rfl

/-- Whatever is known, and if it comes to something at all, the reader takes up the beginning of a
text as some parts, and goes on behind it. -/
def Continues (s : List Char) (nodes : List Regex) (rest : List Char) : Prop :=
  ∀ {known : List String} {branches : List Regex} {parts : Parts} {result : Regex} {r : Reader}
    {u : List Char}, ReadsTo (.knowing known) branches parts s result r u →
      ∃ known', ReadsTo (.knowing known') branches ((nodes.map some).reverse ++ parts) rest result
        r u

theorem Continues.nil (s : List Char) : Continues s [] s := fun h => ⟨_, h⟩

theorem Continues.append {t : List Char} {nodes' : List Regex} (h : Continues s nodes t)
    (h' : Continues t nodes' rest) : Continues s (nodes ++ nodes') rest := by
  intro known branches parts result r u hread
  obtain ⟨known', hread⟩ := h hread
  obtain ⟨known'', hread⟩ := h' hread
  refine ⟨known'', ?_⟩
  rwa [List.map_append, List.reverse_append, List.append_assoc]

private theorem continues_of_reads
    (h : ∀ known, Reads (.knowing known) s nodes (.knowing known) rest) :
    Continues s nodes rest := by
  intro known branches parts result r u hread
  obtain ⟨n, hn⟩ := hread.exists_fuel
  obtain ⟨fuel, -, hgoes⟩ :=
    (h known).goesOn (max n (s.length + 1)) branches parts (by omega)
  rw [hn _ (by omega)] at hgoes
  exact ⟨known, readsTo_of_ok hgoes.symm⟩

private theorem continues_group {name : String} {body : List Char} {r : Reader}
    (hname : isVariableName name.toList)
    (hbody : ∀ t, ReadsTo (.knowing []) [] [] (body ++ ')' :: t) node r (')' :: t))
    (rest : List Char) :
    Continues ("(?P<".toList ++ name.toList ++ ['>'] ++ body ++ [')'] ++ rest)
      [.group name node] rest := by
  intro known branches parts result r' u hread
  have htext : "(?P<".toList ++ name.toList ++ ['>'] ++ body ++ [')'] ++ rest =
      '(' :: '?' :: 'P' :: '<' :: (name.toList ++ '>' :: (body ++ ')' :: rest)) := by
    simp
  rw [htext] at hread
  obtain ⟨inside, inner, inside', after, henter, hinner, honward⟩ :=
    hread.onward (readSign_opening (readOpening_name (readGroupName_name hname _)))
  obtain ⟨rfl, hafter⟩ := (hbody rest).unique hinner (flags_of_enter henter).symm
  cases hafter
  rw [String.ofList_toList] at honward
  exact ⟨inside'.names, honward⟩

private theorem readsTo_nonSlashes (t : List Char) :
    ReadsTo (.knowing []) [] [] ("[^/]+".toList ++ ')' :: t) (.plus true (.set nonSlash))
      (.knowing []) (')' :: t) := by
  have hbody : Reads (.knowing []) ("[^/]+".toList ++ ')' :: t) [.plus true (.set nonSlash)]
      (.knowing []) (')' :: t) :=
    (reads_nonSlash _).plus (Reader.isSimple_knowing []) rfl (by decide) (by simp)
  exact readsTo_of_ok (readAlternatives_of_reads hbody (fun _ => rfl) (Nat.lt_succ_self _))

private theorem continues_plain (hplain : ¬ p.isCustom) (hnames : p.names = [])
    (hrest : rest.head? ≠ some '?') : Continues (p.source ++ rest) [p.node] rest := by
  refine continues_of_reads fun known => ?_
  have hread : Reads (.knowing known) (p.source ++ rest) [p.node]
      (.knowing (p.names ++ known)) rest :=
    reads_piece hplain (by simp [hnames]) hrest
  rwa [hnames] at hread

/-- The written form of a piece is taken up as the piece for itself. -/
private theorem exists_ownNode (hgroup : ∀ custom ∈ p.expression?, IsGroupBody custom)
    (hnames : ∀ name ∈ p.names, isVariableName name.toList) (hrest : rest.head? ≠ some '?') :
    ∃ node, p.ownNode = .ok node ∧ Continues (p.source ++ rest) [node] rest := by
  cases p with
  | token t =>
    cases t with
    | «variable» name custom =>
      have hname := hnames name List.mem_cons_self
      cases custom with
      | none => exact ⟨_, rfl, continues_group hname readsTo_nonSlashes rest⟩
      | some custom =>
        obtain ⟨own, r, hparse, hbody⟩ := (hgroup custom rfl).readsTo
        refine ⟨.group name own, ?_, continues_group hname hbody rest⟩
        rw [Piece.ownNode, hparse]
        rfl
    | _ => exact ⟨_, rfl, continues_plain (by simp [Piece.isCustom, Token.isCustom]) rfl hrest⟩
  | _ => exact ⟨_, rfl, continues_plain (by simp [Piece.isCustom]) rfl hrest⟩

private theorem exists_ownNodes
    (hgroup : ∀ custom ∈ row.filterMap Piece.expression?, IsGroupBody custom)
    (hnames : ∀ name ∈ row.flatMap Piece.names, isVariableName name.toList) :
    ∃ nodes, row.mapM Piece.ownNode = .ok nodes ∧
      Continues (row.flatMap Piece.source) nodes [] := by
  induction row with
  | nil => exact ⟨[], rfl, Continues.nil []⟩
  | cons p row ih =>
    rw [List.flatMap_cons, List.forall_mem_append] at hnames
    have hfirst : ∀ custom ∈ p.expression?, IsGroupBody custom := fun custom hcustom =>
      hgroup custom (List.mem_filterMap.mpr ⟨p, List.mem_cons_self, hcustom⟩)
    have hothers : ∀ custom ∈ row.filterMap Piece.expression?, IsGroupBody custom := by
      intro custom hcustom
      obtain ⟨q, hq, hcustom⟩ := List.mem_filterMap.mp hcustom
      exact hgroup custom (List.mem_filterMap.mpr ⟨q, List.mem_cons_of_mem p hq, hcustom⟩)
    obtain ⟨node, hnode, hread⟩ :=
      exists_ownNode hfirst hnames.1 (head?_flatMap_source row)
    obtain ⟨nodes, hnodes, hrest⟩ := ih hothers hnames.2
    refine ⟨node :: nodes, ?_, hread.append hrest⟩
    rw [List.mapM_cons, hnode, hnodes]
    rfl

/-- With expressions that are bodies of groups, a row of pieces is compiled piece by piece. -/
theorem compile_eq_seqs {regex : Regex} (h : compile row = .ok regex)
    (hgroup : ∀ custom ∈ row.filterMap Piece.expression?, IsGroupBody custom)
    (hnames : ∀ name ∈ row.flatMap Piece.names, isVariableName name.toList) :
    ∃ nodes, row.mapM Piece.ownNode = .ok nodes ∧ regex = seqs nodes := by
  unfold compile at h
  split at h
  · obtain ⟨nodes, hnodes, hread⟩ := exists_ownNodes hgroup hnames
    obtain ⟨r, hparse⟩ := readsTo_of_parse h
    obtain ⟨known, hend⟩ := hread hparse
    obtain ⟨rfl, -, -⟩ := hend.of_blank (skipIgnored_nil _)
    rw [toRegex_of_nodes]
    exact ⟨nodes, hnodes, rfl⟩
  · next hplain =>
    cases h
    refine ⟨_, mapM_ownNode_of_not_isCustom ?_, rfl⟩
    intro p hp hcustom
    exact hplain (List.any_eq_true.mpr ⟨p, hp, hcustom⟩)

private theorem not_isCustom_of_isInner (h : p.isInner) : ¬ p.isCustom := by
  cases p with
  | token t => simpa [Piece.isInner] using h
  | _ => exact Bool.false_ne_true

variable {i j : Nat} {text : List Char}

private theorem exists_taken {more : List Piece} (hrow : ∀ p ∈ row, p.isInner)
    (hnodes : (row ++ more).mapM Piece.ownNode = .ok nodes)
    (h : Spans (.ofText s) (seqs nodes) i j) : ∃ a k, RowTakes row a ∧ Between s i k a := by
  induction row generalizing nodes i with
  | nil => exact ⟨[], i, rfl, between_nil.mpr rfl⟩
  | cons p row ih =>
    rw [List.forall_mem_cons] at hrow
    rw [List.cons_append, List.mapM_cons] at hnodes
    obtain ⟨node, hnode, hnodes⟩ := except_bind_ok hnodes
    obtain ⟨others, hothers, hnodes⟩ := except_bind_ok hnodes
    cases hnodes
    rw [ownNode_of_not_isCustom (not_isCustom_of_isInner hrow.1)] at hnode
    cases hnode
    obtain ⟨k, hfirst, hrest⟩ := spans_seqs_cons.mp h
    obtain ⟨a, ha, hik⟩ := (spans_node_iff hrow.1).mp hfirst
    obtain ⟨b, l, hb, hkl⟩ := ih hrow.2 hothers hrest
    exact ⟨a ++ b, l, ⟨a, b, rfl, ha, hb⟩, between_append.mpr ⟨k, hik, hkl⟩⟩

/-- The first segment of a pattern is a literal text. -/
def BeginsLiteral (pattern : String) (text : List Char) : Prop :=
  text.all isPlainChar ∧ '/' ∉ text ∧
    ∃ rest, unroot pattern.toList = text ++ rest ∧ (rest = [] ∨ ∃ more, rest = '/' :: more)

private theorem splitSegments_word (hplain : ∀ c ∈ text, isPlainChar c) (hslash : '/' ∉ text)
    (rest : List Char) :
    splitSegments 0 (text ++ rest) =
      (splitSegments 0 rest).map (text.foldr Text.consHead ·) := by
  induction text with
  | nil => simp
  | cons c text ih =>
    rw [List.forall_mem_cons] at hplain
    rw [List.mem_cons, not_or] at hslash
    rw [List.cons_append, splitSegments_plain hplain.1 (Ne.symm hslash.1), ih hplain.2 hslash.2,
      Option.map_map]
    rfl

theorem BeginsLiteral.read {pattern : String} {segments : List Segment} {names : List String}
    (h : BeginsLiteral pattern text) (hne : text ≠ [])
    (hread : Pattern.read pattern = .ok (segments, names)) :
    ∃ more, segments = literalSegment text :: more := by
  obtain ⟨hplain, hslash, rest, hrooted, hrest⟩ := h
  rw [List.all_eq_true] at hplain
  obtain ⟨texts, hsplit, hsegments⟩ := read_ok hread (by simp [hrooted, hne])
  rw [hrooted, splitSegments_word hplain hslash] at hsplit
  obtain ⟨others, hothers, rfl⟩ := Option.map_eq_some_iff.mp hsplit
  have hbehind : ∃ behind, others = [] :: behind := by
    rcases hrest with rfl | ⟨more, rfl⟩
    · exact ⟨[], (Option.some.inj hothers).symm⟩
    · obtain ⟨behind, -, rfl⟩ := Option.map_eq_some_iff.mp hothers
      exact ⟨behind, rfl⟩
  obtain ⟨behind, rfl⟩ := hbehind
  rw [Text.foldr_consHead, List.append_nil] at hsegments
  have hliteral := readSegments_literal pattern [] (List.forall_mem_singleton.mpr hplain) behind
  rw [List.singleton_append, hsegments] at hliteral
  obtain ⟨answer, -, hliteral⟩ := except_map_ok hliteral.symm
  cases hliteral
  exact ⟨answer.1, rfl⟩

private theorem pieces_literal (openEnd : Bool) (hne : text ≠ []) (segments : List Segment) :
    ∃ more, pieces openEnd (literalSegment text :: segments) =
      .start :: (literalPieces [text] ++ more) := by
  refine ⟨innerPieces openEnd segments ++ [.stop], ?_⟩
  rw [pieces_eq]
  change Piece.start :: (innerPieces openEnd (literalSegment text :: segments) ++ [.stop]) = _
  rw [literalSegment, innerPieces_tokens openEnd (by simp [hne])]
  simp [literalPieces, Function.comp_def]

private theorem isInner_literalPieces {texts : List (List Char)} :
    ∀ p ∈ literalPieces texts, p.isInner := by
  intro p hp
  obtain ⟨text, -, hp⟩ := List.mem_flatMap.mp hp
  rcases List.mem_cons.mp hp with rfl | hp
  · rfl
  · obtain ⟨c, -, rfl⟩ := List.mem_map.mp hp
    rfl

/-- A row that begins with a literal text takes up texts that begin with it. -/
private theorem prefix_of_isMatch {texts : List (List Char)} {more : List Piece}
    (hnodes : (Piece.start :: (literalPieces texts ++ more)).mapM Piece.ownNode = .ok nodes)
    (h : (seqs nodes).isMatch s) : texts.flatMap ('/' :: ·) <+: s := by
  rw [List.mapM_cons] at hnodes
  obtain ⟨node, hnode, hnodes⟩ := except_bind_ok hnodes
  obtain ⟨others, hothers, hnodes⟩ := except_bind_ok hnodes
  cases hnodes
  cases hnode
  obtain ⟨i, j, hi, h⟩ := isMatch_iff.mp h
  obtain ⟨k, hstart, hrest⟩ := spans_seqs_cons.mp h
  obtain ⟨rfl, rfl⟩ := eq_zero_of_spans_textStart hstart hi
  obtain ⟨a, k, ha, hbetween⟩ := exists_taken isInner_literalPieces hothers hrest
  rw [rowTakes_literalPieces.mp ha] at hbetween
  exact hbetween.1

end Pattern

namespace PathPattern

open Pattern

/-- The expression of a pattern is that of its pieces, each compiled for itself, if all that its
variables bring are bodies of groups. -/
private theorem regex_of_parse {pattern : String} {compiled : PathPattern}
    (hparse : PathPattern.parse pattern = .ok compiled)
    (hgroup : ∀ custom ∈ expressions pattern, Regex.IsGroupBody custom) :
    ∃ segments names nodes, Pattern.read pattern = .ok (segments, names) ∧
      (pieces (Text.endsWith ['*', '*'] (unroot pattern.toList)) segments).mapM Piece.ownNode =
        .ok nodes ∧ compiled.regex = Regex.seqs nodes := by
  unfold PathPattern.parse at hparse
  obtain ⟨⟨segments, names⟩, hread, hparse⟩ := except_bind_ok hparse
  dsimp only at hparse
  split at hparse
  · cases hparse
  · next regex hcompile =>
    cases hparse
    rw [expressions, hread] at hgroup
    dsimp only at hgroup
    rw [← expressions_pieces] at hgroup
    have hnames := isVariableName_of_read hread
    rw [← names_pieces] at hnames
    obtain ⟨nodes, hnodes, hregex⟩ := compile_eq_seqs hcompile hgroup hnames
    exact ⟨segments, names, nodes, hread, hnodes, hregex⟩

/-- A pattern that begins with a literal segment matches only paths that do, if all that its
variables bring are bodies of groups. -/
theorem isMatch_below_literal {pattern : String} {compiled : PathPattern}
    (hparse : PathPattern.parse pattern = .ok compiled)
    (hgroup : ∀ custom ∈ expressions pattern, Regex.IsGroupBody custom)
    {text : List Char} (hne : text ≠ []) (hfirst : BeginsLiteral pattern text) {path : String}
    (hmatch : compiled.isMatch path) : '/' :: text <+: path.toList := by
  obtain ⟨segments, names, nodes, hread, hnodes, hregex⟩ := regex_of_parse hparse hgroup
  obtain ⟨others, rfl⟩ := hfirst.read hne hread
  obtain ⟨more, hpieces⟩ :=
    pieces_literal (Text.endsWith ['*', '*'] (unroot pattern.toList)) hne others
  rw [hpieces] at hnodes
  rw [isMatch, hregex] at hmatch
  simpa using prefix_of_isMatch hnodes hmatch

theorem isMatch_below_literal_users : ∃ compiled,
    PathPattern.parse "/users/{id:[0-9]+}" = .ok compiled ∧
      (∀ custom ∈ expressions "/users/{id:[0-9]+}", Regex.IsGroupBody custom) ∧
      BeginsLiteral "/users/{id:[0-9]+}" "users".toList ∧ compiled.isMatch "/users/7" ∧
      '/' :: "users".toList <+: "/users/7".toList := by
  obtain ⟨compiled, hparse, hmatch⟩ :=
    exists_ok_of_any (x := PathPattern.parse "/users/{id:[0-9]+}")
      (p := fun compiled => compiled.isMatch "/users/7") (by decide +kernel)
  have hexpressions : expressions "/users/{id:[0-9]+}" = ["[0-9]+".toList] := by decide +kernel
  have hgroup : ∀ custom ∈ expressions "/users/{id:[0-9]+}", Regex.IsGroupBody custom := by
    rw [hexpressions, List.forall_mem_singleton]
    obtain ⟨node, hnode, -⟩ := exists_ok_of_any (x := Regex.parse "[0-9]+".toList)
      (p := fun _ => true) (by decide +kernel)
    obtain ⟨node', hnode', -⟩ := exists_ok_of_any (x := Regex.parse "([0-9]+)".toList)
      (p := fun _ => true) (by decide +kernel)
    exact ⟨⟨node, hnode⟩, node', hnode'⟩
  have hfirst : BeginsLiteral "/users/{id:[0-9]+}" "users".toList :=
    ⟨by decide, by decide, "/{id:[0-9]+}".toList, by decide, .inr ⟨_, rfl⟩⟩
  exact ⟨compiled, hparse, hgroup, hfirst, hmatch,
    isMatch_below_literal hparse hgroup (by decide) hfirst hmatch⟩

/-- A parenthesis that was not opened ends the group of the variable, and what is behind it is an
alternative to the whole pattern. -/
theorem isMatch_outside_literal : ∃ compiled,
    PathPattern.parse "/lit/{x:a)|(b}" = .ok compiled ∧
      "a)|(b".toList ∈ expressions "/lit/{x:a)|(b}" ∧
      (∃ fault, Regex.parse "a)|(b".toList = .error fault) ∧
      BeginsLiteral "/lit/{x:a)|(b}" "lit".toList ∧ compiled.isMatch "b" ∧
      ¬ '/' :: "lit".toList <+: "b".toList := by
  obtain ⟨compiled, hparse, hmatch⟩ := exists_ok_of_any (x := PathPattern.parse "/lit/{x:a)|(b}")
    (p := fun compiled => compiled.isMatch "b") (by decide +kernel)
  have hfault : ∃ fault, Regex.parse "a)|(b".toList = .error fault := by
    cases h : Regex.parse "a)|(b".toList with
    | error fault => exact ⟨fault, rfl⟩
    | ok node =>
      have hnone : (Regex.parse "a)|(b".toList).toOption.isNone := by decide +kernel
      rw [h] at hnone
      cases hnone
  exact ⟨compiled, hparse, by decide +kernel, hfault,
    ⟨by decide, by decide, "/{x:a)|(b}".toList, by decide, .inr ⟨_, rfl⟩⟩, hmatch, by decide⟩

end PathPattern

end Switchyard
