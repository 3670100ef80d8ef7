import Switchyard.Proofs.Pattern.Matching
import Switchyard.Proofs.Pattern.Reading
/-!
# The meaning of pattern texts

A pattern is read off its text alone: cut at its slashes, each segment stands for some texts, and
the paths of the pattern are put together from these. Patterns whose variables bring no expressions
match exactly these paths (`isMatch_iff_means`).
-/

namespace Switchyard

namespace Pattern

/-- The texts that a segment stands for, sign by sign. -/
inductive Stands : List Char → List Char → Prop
  | done : Stands [] []
  | ordinary {c : Char} {s a : List Char} (hc : isPlainChar c) (rest : Stands s a) :
      Stands (c :: s) (c :: a)
  | anyChar {c : Char} {s a : List Char} (hc : c ≠ '/') (rest : Stands s a) :
      Stands ('?' :: s) (c :: a)
  | anyText {s t a : List Char} (ht : '/' ∉ t) (rest : Stands s a) : Stands ('*' :: s) (t ++ a)
  | «variable» {name s t a : List Char} (hname : '\x7d' ∉ name) (hne : t ≠ []) (ht : '/' ∉ t)
      (rest : Stands s a) : Stands ('\x7b' :: (name ++ '\x7d' :: s)) (t ++ a)

/-- The parts of a path that a segment takes up, with the slash in front. -/
def Takes (segment part : List Char) : Prop :=
  if segment = ['*', '*'] then part = [] ∨ ∃ rest, part = '/' :: rest ∧ '\n' ∉ rest
  else ∃ rest, part = '/' :: rest ∧ Stands segment rest

/-- The paths of a pattern: one part for each segment, and perhaps one more slash. -/
def Means (pattern path : String) : Prop :=
  let rooted := unroot pattern.toList
  if rooted = [] then path = "/"
  else ∃ parts last, path.toList = parts.flatten ++ last ∧
    List.Forall₂ Takes (rooted.splitOn '/') parts ∧
    (last = [] ∨ last = ['/'] ∧ ¬ ['*', '*'] <:+ pattern.toList ∧ ¬ ['/'] <:+ pattern.toList)

/-- A variable brings an expression when a colon is in its braces. -/
def BringsExpression (s : List Char) : Prop :=
  ∃ before name behind, s = before ++ '\x7b' :: (name ++ ':' :: behind) ∧ '\x7d' ∉ name

theorem BringsExpression.append_left {s : List Char} (h : BringsExpression s) (front : List Char) :
    BringsExpression (front ++ s) := by
  obtain ⟨before, name, behind, rfl, hname⟩ := h
  exact ⟨front ++ before, name, behind, (List.append_assoc _ _ _).symm, hname⟩

theorem BringsExpression.append_right {s : List Char} (h : BringsExpression s) (back : List Char) :
    BringsExpression (s ++ back) := by
  obtain ⟨before, name, behind, rfl, hname⟩ := h
  exact ⟨before, name, behind ++ back, by simp, hname⟩

theorem Spells.not_isCustom {s : List Char} {row : List Token} (h : Spells s row)
    (hs : ¬ BringsExpression s) : ¬ row.any Token.isCustom := by
  induction h with
  | done => simp
  | @sign c s row hopen hclose rest ih =>
    have hsign : (signToken c).isCustom = false := by
      unfold signToken
      split_ifs <;> rfl
    have hrest := ih fun h => hs (h.append_left [c])
    simpa [hsign] using hrest
  | @«variable» body name s custom row hparts hname rest ih =>
    have hrest := ih fun h => hs (by simpa using h.append_left ('\x7b' :: (body ++ ['\x7d'])))
    cases custom with
    | none => simpa [Token.isCustom] using hrest
    | some custom =>
      obtain ⟨front, rfl, hfront⟩ := variableParts_some hparts hname
      refine absurd ⟨[], front, custom ++ '\x7d' :: s, ?_, hfront⟩ hs
      simp

theorem BringsExpression.intercalate {texts : List (List Char)} {text : List Char}
    (htext : text ∈ texts) (h : BringsExpression text) :
    BringsExpression (['/'].intercalate texts) := by
  induction texts with
  | nil => cases htext
  | cons first texts ih =>
    cases texts with
    | nil =>
      rw [List.mem_singleton.mp htext] at h
      simpa using h
    | cons second texts =>
      rw [List.intercalate_cons_cons]
      rcases List.mem_cons.mp htext with rfl | htext
      · rw [List.append_assoc]
        exact h.append_right _
      · exact (ih htext).append_left _

private theorem isPlain_of_readFrom {texts : List (List Char)} {segments : List Segment}
    (hread : List.Forall₂ ReadFrom texts segments)
    (hplain : ¬ BringsExpression (['/'].intercalate texts)) :
    ∀ segment ∈ segments, segment.isPlain := by
  have htexts : ∀ text ∈ texts, ¬ BringsExpression text := fun _ ht h => hplain (h.intercalate ht)
  clear hplain
  induction hread with
  | nil => simp
  | @cons text segment texts segments hsegment hrest ih =>
    rw [List.forall_mem_cons] at htexts ⊢
    refine ⟨?_, ih htexts.2⟩
    cases segment with
    | subtree => rfl
    | tokens row => simpa [Segment.isPlain] using hsegment.2.not_isCustom htexts.1

theorem Spells.slash_not_mem {s : List Char} {row : List Token} (h : Spells s row)
    (hplain : ¬ row.any Token.isCustom) (huncut : splitSegments 0 s = some [s]) : '/' ∉ s := by
  induction h with
  | done => simp
  | @sign c s row hopen hclose rest ih =>
    rw [splitSegments, if_neg hopen, if_neg hclose] at huncut
    by_cases hslash : c = '/'
    · rw [if_pos (by simp [hslash])] at huncut
      obtain ⟨pieces, -, heq⟩ := Option.map_eq_some_iff.mp huncut
      cases heq
    · rw [if_neg (by simp [hslash])] at huncut
      obtain ⟨pieces, hs, heq⟩ := Option.map_eq_some_iff.mp huncut
      cases pieces with
      | nil => exact absurd rfl (splitSegments_ne_nil hs)
      | cons text pieces =>
        cases heq
        rw [List.mem_cons, not_or]
        exact ⟨Ne.symm hslash, ih (fun h => hplain (by simp [h])) hs⟩
  | @«variable» body name s custom row hparts hname rest ih =>
    cases custom with
    | some custom => exact absurd rfl hplain
    | none =>
      have hbody := variableParts_none hparts hname
      have hbalanced : Balanced 0 body :=
        balanced_of_braceless fun c hc => ⟨(hbody c hc).1, (hbody c hc).2.1⟩
      rw [splitSegments, if_pos rfl, splitSegments_body hbalanced, Option.map_map] at huncut
      obtain ⟨pieces, hs, heq⟩ := Option.map_eq_some_iff.mp huncut
      cases pieces with
      | nil => exact absurd rfl (splitSegments_ne_nil hs)
      | cons text pieces =>
        simp only [Function.comp_apply, Text.foldr_consHead, Text.consHead, List.cons.injEq,
          true_and] at heq
        obtain ⟨htext, rfl⟩ := heq
        have hrest : text = s := by simpa using htext
        have hs' := ih (fun h => hplain (by simp [h])) (hrest ▸ hs)
        have hslash : '/' ∉ body := fun h => (hbody _ h).2.2 rfl
        simp [hslash, hs']

private theorem slash_not_mem_of_readFrom {texts : List (List Char)} {segments : List Segment}
    (hread : List.Forall₂ ReadFrom texts segments) (hplain : ∀ segment ∈ segments, segment.isPlain)
    (huncut : ∀ text ∈ texts, splitSegments 0 text = some [text]) : ∀ text ∈ texts, '/' ∉ text := by
  induction hread with
  | nil => simp
  | @cons text segment texts segments hsegment hrest ih =>
    rw [List.forall_mem_cons] at hplain huncut ⊢
    refine ⟨?_, ih hplain.2 huncut.2⟩
    cases segment with
    | subtree =>
      cases hsegment
      decide
    | tokens row =>
      exact hsegment.2.slash_not_mem (by simpa [Segment.isPlain] using hplain.1) huncut.1

theorem stands_sign_iff {c : Char} (hopen : c ≠ '\x7b') (hclose : c ≠ '\x7d') {s a : List Char} :
    Stands (c :: s) a ↔ ∃ t rest, a = t ++ rest ∧ (Piece.token (signToken c)).Takes t ∧
      Stands s rest := by
  constructor
  · intro h
    cases h with
    | @ordinary _ _ rest hc h =>
      obtain ⟨-, -, hstar, hmark⟩ := isPlainChar_iff.mp hc
      refine ⟨[c], rest, rfl, ?_, h⟩
      rw [signToken, if_neg hstar, if_neg hmark]
      rfl
    | @anyChar d _ rest hd h => exact ⟨[d], rest, rfl, ⟨d, rfl, hd⟩, h⟩
    | @anyText _ t rest ht h => exact ⟨t, rest, rfl, ht, h⟩
    | «variable» => exact absurd rfl hopen
  · rintro ⟨t, rest, rfl, ht, h⟩
    by_cases hstar : c = '*'
    · subst hstar
      exact .anyText ht h
    by_cases hmark : c = '?'
    · subst hmark
      obtain ⟨d, rfl, hd⟩ := ht
      exact .anyChar hd h
    · rw [signToken, if_neg hstar, if_neg hmark] at ht
      cases ht
      exact .ordinary (isPlainChar_iff.mpr ⟨hopen, hclose, hstar, hmark⟩) h

theorem append_cons_inj {sign : Char} {front back front' back' : List Char} (h : sign ∉ front)
    (h' : sign ∉ front') (heq : front ++ sign :: back = front' ++ sign :: back') :
    front = front' ∧ back = back' := by
  induction front generalizing front' with
  | nil =>
    cases front' with
    | nil => exact ⟨rfl, List.tail_eq_of_cons_eq heq⟩
    | cons c front' =>
      have hc : sign = c := List.head_eq_of_cons_eq heq
      exact absurd (hc ▸ List.mem_cons_self) h'
  | cons c front ih =>
    cases front' with
    | nil =>
      have hc : c = sign := List.head_eq_of_cons_eq heq
      exact absurd (hc ▸ List.mem_cons_self) h
    | cons c' front' =>
      rw [List.mem_cons, not_or] at h h'
      obtain ⟨rfl, rfl⟩ := ih h.2 h'.2 (List.tail_eq_of_cons_eq heq)
      exact ⟨congrArg (· :: front) (List.head_eq_of_cons_eq heq), rfl⟩

theorem stands_variable_iff {name s a : List Char} (hname : '\x7d' ∉ name) :
    Stands ('\x7b' :: (name ++ '\x7d' :: s)) a ↔ ∃ t rest, a = t ++ rest ∧
      (t ≠ [] ∧ '/' ∉ t) ∧ Stands s rest := by
  constructor
  · intro h
    generalize htext : '\x7b' :: (name ++ '\x7d' :: s) = text at h
    cases h with
    | done => cases htext
    | ordinary hc =>
      cases htext
      cases hc
    | anyChar => cases htext
    | anyText => cases htext
    | @«variable» name' s' t rest hname' hne ht h =>
      obtain ⟨-, rfl⟩ := append_cons_inj hname hname' (List.tail_eq_of_cons_eq htext)
      exact ⟨t, rest, rfl, ⟨hne, ht⟩, h⟩
  · rintro ⟨t, rest, rfl, ⟨hne, ht⟩, h⟩
    exact .variable hname hne ht h

private theorem Spells.rowTakes_iff {s : List Char} {row : List Token} (h : Spells s row)
    (hplain : ¬ row.any Token.isCustom) {a : List Char} :
    RowTakes (row.map .token) a ↔ Stands s a := by
  induction h generalizing a with
  | done =>
    constructor
    · rintro rfl
      exact .done
    · intro h
      cases h
      rfl
  | @sign c s row hopen hclose rest ih =>
    have ih {a : List Char} := ih (a := a) fun h => hplain (by simp [h])
    simp only [List.map_cons, RowTakes, stands_sign_iff hopen hclose, ih]
  | @«variable» body name s custom row hparts hname rest ih =>
    have ih {a : List Char} := ih (a := a) fun h => hplain (by simp [h])
    cases custom with
    | some custom => exact absurd rfl hplain
    | none =>
      have hbody : '\x7d' ∉ body := fun h => (variableParts_none hparts hname _ h).2.1 rfl
      simp only [List.map_cons, RowTakes, stands_variable_iff hbody, ih, Piece.Takes]

/-- What may follow the last part of a path: one slash, unless the pattern's end speaks against
it. -/
def Closes (openEnd : Bool) (texts : List (List Char)) (last : List Char) : Prop :=
  last = [] ∨ last = ['/'] ∧ openEnd = false ∧ texts.getLast? ≠ some []

private theorem closes_cons {openEnd : Bool} {text last : List Char} {texts : List (List Char)}
    (hne : text = [] → texts ≠ []) :
    Closes openEnd (text :: texts) last ↔ Closes openEnd texts last := by
  cases texts with
  | nil => simp [Closes, show text ≠ [] from fun h => hne h rfl]
  | cons text' texts => simp [Closes]

private theorem takes_subtree {part : List Char} :
    Takes ['*', '*'] part ↔ Piece.optionalTail.Takes part := by
  rw [Takes, if_pos rfl]
  rfl

private theorem takes_tokens {text part : List Char} {row : List Token} (htext : text ≠ ['*', '*'])
    (hrow : ∀ a, RowTakes (row.map .token) a ↔ Stands text a) :
    Takes text part ↔ RowTakes (.slash :: row.map .token) part := by
  rw [Takes, if_neg htext]
  simp only [RowTakes, Piece.Takes, hrow]
  constructor
  · rintro ⟨rest, rfl, h⟩
    exact ⟨['/'], rest, rfl, rfl, h⟩
  · rintro ⟨_, rest, rfl, rfl, h⟩
    exact ⟨rest, rfl, h⟩

private theorem parts_cons_iff {text a : List Char} {texts : List (List Char)}
    {P : List Char → Prop} :
    (∃ parts last, a = parts.flatten ++ last ∧ List.Forall₂ Takes (text :: texts) parts ∧ P last) ↔
      ∃ part b, a = part ++ b ∧ Takes text part ∧
        ∃ parts last, b = parts.flatten ++ last ∧ List.Forall₂ Takes texts parts ∧ P last := by
  constructor
  · rintro ⟨_, last, rfl, hall, hlast⟩
    cases hall with
    | @cons _ part _ parts hpart hparts =>
      exact ⟨part, _, List.append_assoc _ _ _, hpart, parts, last, rfl, hparts, hlast⟩
  · rintro ⟨part, _, rfl, hpart, parts, last, rfl, hparts, hlast⟩
    exact ⟨part :: parts, last, by simp, .cons hpart hparts, hlast⟩

private theorem rowTakes_innerPieces {texts : List (List Char)} {segments : List Segment}
    (hread : List.Forall₂ ReadFrom texts segments) (hplain : ∀ segment ∈ segments, segment.isPlain)
    (openEnd : Bool) {a : List Char} :
    RowTakes (innerPieces openEnd segments) a ↔ ∃ parts last, a = parts.flatten ++ last ∧
      List.Forall₂ Takes texts parts ∧ Closes openEnd texts last := by
  induction hread generalizing a with
  | nil =>
    have hclosed : RowTakes (innerPieces openEnd []) a ↔ Closes openEnd [] a := by
      cases openEnd <;> simp [innerPieces, RowTakes, Piece.Takes, Closes]
    rw [hclosed]
    constructor
    · exact fun h => ⟨[], a, rfl, .nil, h⟩
    · rintro ⟨_, last, rfl, ⟨⟩, h⟩
      exact h
  | @cons text segment texts segments hsegment hrest ih =>
    rw [List.forall_mem_cons] at hplain
    have ih {a : List Char} := ih hplain.2 (a := a)
    cases segment with
    | subtree =>
      cases hsegment
      have hne : ['*', '*'] = [] → texts ≠ [] := by simp
      simp only [innerPieces, RowTakes, parts_cons_iff, takes_subtree, ih, closes_cons hne]
    | tokens row =>
      obtain ⟨htext, hspells⟩ := hsegment
      have hrow (a : List Char) := hspells.rowTakes_iff
        (by simpa [Segment.isPlain] using hplain.1) (a := a)
      by_cases hpinned : row = [] ∧ segments = []
      · obtain ⟨rfl, rfl⟩ := hpinned
        cases hrest
        obtain rfl := hspells.eq_nil_iff.mp rfl
        have hlast {last : List Char} : Closes openEnd [[]] last ↔ last = [] := by simp [Closes]
        simp only [parts_cons_iff, takes_tokens htext hrow, hlast]
        change RowTakes [.slash] a ↔ _
        constructor
        · intro h
          exact ⟨a, [], (List.append_nil a).symm, h, [], [], rfl, .nil, rfl⟩
        · rintro ⟨part, _, rfl, hpart, _, _, rfl, ⟨⟩, rfl⟩
          simpa using hpart
      · have hne : text = [] → texts ≠ [] := by
          rintro rfl rfl
          cases hrest
          exact hpinned ⟨hspells.eq_nil_iff.mpr rfl, rfl⟩
        rw [innerPieces_tokens openEnd fun h h' => hpinned ⟨h, h'⟩, rowTakes_append]
        simp only [parts_cons_iff, takes_tokens htext hrow, closes_cons hne, ih]

theorem slash_suffix_intercalate_iff {texts : List (List Char)}
    (hslash : ∀ text ∈ texts, '/' ∉ text) (hne : ['/'].intercalate texts ≠ []) :
    ['/'] <:+ ['/'].intercalate texts ↔ texts.getLast? = some [] := by
  rw [List.singleton_suffix_iff_getLast?_eq_some]
  induction texts with
  | nil => exact absurd rfl hne
  | cons text texts ih =>
    rw [List.forall_mem_cons] at hslash
    cases texts with
    | nil =>
      have htext : text ≠ [] := by simpa using hne
      have hlast : text.getLast? ≠ some '/' := fun h => hslash.1 (List.mem_of_getLast? h)
      simp [hlast, htext]
    | cons text' texts =>
      rw [List.intercalate_cons_cons, List.getLast?_cons_cons]
      by_cases hrest : ['/'].intercalate (text' :: texts) = []
      · have hempty : text' :: texts = [[]] := by
          cases texts with
          | nil => simpa using hrest
          | cons text'' texts => simp [List.intercalate_cons_cons] at hrest
        simp [hempty]
      · rw [List.getLast?_append_of_ne_nil _ hrest]
        exact ih hslash.2 hrest

theorem suffix_unroot_iff {p s : List Char} (hp : p ≠ '/' :: unroot s) :
    p <:+ unroot s ↔ p <:+ s := by
  unfold unroot at hp ⊢
  split
  · rw [List.suffix_cons_iff]
    exact ⟨.inr, fun h => h.resolve_left hp⟩
  · rfl

private theorem BringsExpression.of_unroot {s : List Char} (h : BringsExpression (unroot s)) :
    BringsExpression s := by
  unfold unroot at h
  split at h
  · exact h.append_left ['/']
  · exact h

/-- The segments of a pattern without expressions are read from the texts between its slashes. -/
theorem readFrom_of_read {pattern : String} {segments : List Segment} {names : List String}
    (hread : Pattern.read pattern = .ok (segments, names)) (hrooted : unroot pattern.toList ≠ [])
    (hplain : ¬ BringsExpression pattern.toList) :
    List.Forall₂ ReadFrom ((unroot pattern.toList).splitOn '/') segments ∧
      (∀ segment ∈ segments, segment.isPlain) ∧
      ∀ text ∈ (unroot pattern.toList).splitOn '/', '/' ∉ text := by
  obtain ⟨texts, hsplit, hsegments⟩ := read_ok hread hrooted
  have hjoin := intercalate_of_splitSegments hsplit
  have hreads := readSegments_readFrom hsegments
  have hsegs : ∀ segment ∈ segments, segment.isPlain :=
    isPlain_of_readFrom hreads fun h => hplain (BringsExpression.of_unroot (hjoin ▸ h))
  have hslash : ∀ text ∈ texts, '/' ∉ text := by
    apply slash_not_mem_of_readFrom hreads hsegs
    cases texts with
    | nil => simp
    | cons text rest => exact List.forall_mem_cons.mpr (splitSegments_piece hsplit)
  have htexts : (unroot pattern.toList).splitOn '/' = texts := by
    rw [← hjoin]
    exact List.splitOn_intercalate '/' hslash (splitSegments_ne_nil hsplit)
  rw [htexts]
  exact ⟨hreads, hsegs, hslash⟩

theorem rowTakes_rootedPieces {pattern : String} {segments : List Segment} {names : List String}
    (hread : Pattern.read pattern = .ok (segments, names))
    (hplain : ¬ BringsExpression pattern.toList) :
    (∀ segment ∈ segments, segment.isPlain) ∧ ∀ path : String,
      RowTakes (rootedPieces (Text.endsWith ['*', '*'] (unroot pattern.toList)) segments)
        path.toList ↔ Means pattern path := by
  by_cases hrooted : unroot pattern.toList = []
  · obtain ⟨rfl, -⟩ := read_root hread hrooted
    refine ⟨by simp, fun path => ?_⟩
    simp [Means, hrooted, rootedPieces, RowTakes, Piece.Takes, ← String.toList_inj]
  · obtain ⟨hreads, hsegs, hslash⟩ := readFrom_of_read hread hrooted hplain
    have hjoin : ['/'].intercalate ((unroot pattern.toList).splitOn '/') =
        unroot pattern.toList := List.intercalate_splitOn '/'
    have hopen : Text.endsWith ['*', '*'] (unroot pattern.toList) = false ↔
        ¬ ['*', '*'] <:+ pattern.toList := by
      rw [← Bool.not_eq_true, Text.endsWith_iff, suffix_unroot_iff (by simp)]
    have hpinned : ((unroot pattern.toList).splitOn '/').getLast? ≠ some [] ↔
        ¬ ['/'] <:+ pattern.toList := by
      have hiff := slash_suffix_intercalate_iff hslash (hjoin.symm ▸ hrooted)
      rw [hjoin, suffix_unroot_iff (by simpa using hrooted)] at hiff
      rw [hiff]
    refine ⟨hsegs, fun path => ?_⟩
    have hpieces (openEnd : Bool) :
        rootedPieces openEnd segments = innerPieces openEnd segments := by
      cases segments with
      | nil => exact absurd (List.forall₂_nil_right_iff.mp hreads) (List.splitOn_ne_nil _ _)
      | cons segment rest => rfl
    simp only [hpieces, rowTakes_innerPieces hreads hsegs, Closes, hopen, hpinned, Means,
      if_neg hrooted]

end Pattern

/-- A pattern matches what its text means, if its variables bring no expressions. Its expression,
which is put together from pieces, is then the one that is read of its written form, if that is not
too large (`Pattern.parse_written`). -/
theorem PathPattern.isMatch_iff_means {pattern : String} {compiled : PathPattern}
    (hparse : PathPattern.parse pattern = .ok compiled)
    (hplain : ¬ Pattern.BringsExpression pattern.toList) (path : String) :
    (compiled.isMatch path ↔ Pattern.Means pattern path) ∧
      ((compiled.matchPath path).isSome ↔ Pattern.Means pattern path) := by
  obtain ⟨segments, names, hread⟩ := Pattern.parse_ok hparse
  obtain ⟨hsegments, hmeans⟩ := Pattern.rowTakes_rootedPieces hread hplain
  obtain ⟨compiled', hparse', hmatch⟩ := Pattern.parse_of_read hread hsegments
  have hsame : compiled' = compiled := Except.ok.inj (hparse'.symm.trans hparse)
  have hiff : compiled.isMatch path ↔ Pattern.Means pattern path := by
    rw [← hmeans path, ← hsame, hmatch path]
  refine ⟨hiff, ?_⟩
  rw [← hiff, matchPath, Option.isSome_map, Regex.isSome_search, isMatch]

theorem PathPattern.isMatch_iff_means_deep :
    ∃ compiled, PathPattern.parse "/v?/{id}/**" = .ok compiled ∧
      ¬ Pattern.BringsExpression "/v?/{id}/**".toList ∧
      compiled.isMatch "/v1/7/x/y" ∧ (compiled.matchPath "/v1/7/x/y").isSome := by
  have hread : Pattern.read "/v?/{id}/**" =
      .ok ([.tokens [.literal 'v', .anyChar], .tokens [.variable "id" none], .subtree],
        ["id"]) := by
    decide +kernel
  obtain ⟨compiled, hparse, -⟩ := Pattern.parse_of_read hread (by decide)
  have hplain : ¬ Pattern.BringsExpression "/v?/{id}/**".toList := by
    rintro ⟨before, name, behind, htext, -⟩
    have hcolon : ':' ∈ "/v?/{id}/**".toList := by simp [htext]
    exact absurd hcolon (by decide)
  have hmeans : Pattern.Means "/v?/{id}/**" "/v1/7/x/y" := by
    have hcut : (Pattern.unroot "/v?/{id}/**".toList).splitOn '/' =
        [['v', '?'], '\x7b' :: (['i', 'd'] ++ ['\x7d']), ['*', '*']] := by decide
    have hversion : Pattern.Stands ['v', '?'] ['v', '1'] :=
      .ordinary (by decide) (.anyChar (by decide) .done)
    have hid : Pattern.Stands ('\x7b' :: (['i', 'd'] ++ ['\x7d'])) (['7'] ++ []) :=
      .variable (by decide) (by decide) (by decide) .done
    have hrest : Pattern.Takes ['*', '*'] "/x/y".toList := .inr ⟨"x/y".toList, rfl, by decide⟩
    refine ⟨["/v1".toList, "/7".toList, "/x/y".toList], [], by decide, ?_, .inl rfl⟩
    rw [hcut]
    exact .cons ⟨_, rfl, hversion⟩ (.cons ⟨_, rfl, hid⟩ (.cons hrest .nil))
  obtain ⟨hmatch, hfound⟩ := isMatch_iff_means hparse hplain "/v1/7/x/y"
  exact ⟨compiled, hparse, hplain, hmatch.mpr hmeans, hfound.mpr hmeans⟩

end Switchyard
