import Switchyard.Proofs.Pattern.Meaning
import Switchyard.Proofs.Pattern.Verdict
/-!
# Sample paths of patterns

A pattern whose variables bring no expressions is taken apart into the texts between its slashes
(`PathPattern.exists_layout`). One path of it has the same character in the place of every variable,
`?` and `*`, and one text in the place of every `**` (`Layout.isMatch_sample`).
-/

namespace Switchyard

namespace Pattern

variable {pattern : String} {compiled : PathPattern} {s text part tail : List Char}
  {texts parts : List (List Char)} {row : List Token} {segments : List Segment} {d : Char}

/-- The texts between the slashes of a pattern. -/
def cuts (pattern : String) : List (List Char) := (unroot pattern.toList).splitOn '/'

/-- A path consists of a part for each text of a pattern, and perhaps one more slash. -/
def IsPath (pattern : String) (path : List Char) : Prop :=
  ∃ parts last, path = parts.flatten ++ last ∧ List.Forall₂ Takes (cuts pattern) parts ∧
    (last = [] ∨ last = ['/'] ∧ ¬ ['*', '*'] <:+ pattern.toList ∧ ¬ ['/'] <:+ pattern.toList)

private theorem means_iff_isPath (hne : pattern ≠ "") (path : String) :
    Means pattern path ↔ IsPath pattern path.toList := by
  by_cases hrooted : unroot pattern.toList = []
  · have hroot : pattern.toList = ['/'] := by
      unfold unroot at hrooted
      split at hrooted
      · next heq => rw [heq, hrooted]
      · exact absurd (String.toList_inj.mp (by simpa using hrooted)) hne
    have hcuts : cuts pattern = [[]] := by rw [cuts, hrooted]; rfl
    have hpath : Means pattern path ↔ path.toList = ['/'] := by
      simp [Means, hrooted, ← String.toList_inj]
    rw [hpath, IsPath, hcuts, hroot]
    constructor
    · intro h
      exact ⟨[['/']], [], h, .cons ⟨[], rfl, .done⟩ .nil, .inl rfl⟩
    · rintro ⟨parts, last, h, hparts, hlast⟩
      rcases hlast with rfl | ⟨-, -, hslash⟩
      · cases hparts with
        | cons hpart hrest =>
          cases hrest
          obtain ⟨rest, rfl, hrest⟩ := hpart
          cases hrest
          simpa using h
      · exact absurd List.suffix_rfl hslash
  · simp only [Means, IsPath, cuts, if_neg hrooted]

theorem Stands.slash_not_mem {a : List Char} (h : Stands s a) (hs : '/' ∉ s) : '/' ∉ a := by
  induction h with
  | done => exact hs
  | ordinary _ _ ih =>
    rw [List.mem_cons, not_or] at hs ⊢
    exact ⟨hs.1, ih hs.2⟩
  | anyChar hc _ ih =>
    rw [List.mem_cons, not_or] at hs ⊢
    exact ⟨Ne.symm hc, ih hs.2⟩
  | anyText ht _ ih =>
    rw [List.mem_cons, not_or] at hs
    rw [List.mem_append, not_or]
    exact ⟨ht, ih hs.2⟩
  | «variable» _ _ ht _ ih =>
    simp only [List.mem_cons, List.mem_append, not_or] at hs
    rw [List.mem_append, not_or]
    exact ⟨ht, ih hs.2.2.2⟩

theorem Takes.of_ne (h : Takes text part) (htext : text ≠ ['*', '*']) (hslash : '/' ∉ text) :
    ∃ rest, part = '/' :: rest ∧ '/' ∉ rest ∧ Stands text rest := by
  rw [Takes, if_neg htext] at h
  obtain ⟨rest, rfl, hrest⟩ := h
  exact ⟨rest, rfl, hrest.slash_not_mem hslash, hrest⟩

theorem Takes.subtree (h : Takes ['*', '*'] part) :
    part = [] ∨ ∃ rest, part = '/' :: rest ∧ '\n' ∉ rest := by
  rwa [Takes, if_pos rfl] at h

theorem flatten_eq_nil_or_slash (h : List.Forall₂ Takes texts parts) :
    parts.flatten = [] ∨ ∃ rest, parts.flatten = '/' :: rest := by
  induction h with
  | nil => exact .inl rfl
  | @cons text part texts parts hpart _ ih =>
    have hcases : part = [] ∨ ∃ rest, part = '/' :: rest := by
      rw [Takes] at hpart
      split at hpart
      · exact hpart.imp_right fun h => h.imp fun rest h => h.1
      · exact .inr (hpart.imp fun rest h => h.1)
    rcases hcases with rfl | ⟨rest, rfl⟩
    · exact ih
    · exact .inr ⟨_, rfl⟩

theorem not_bringsExpression (hcolon : ':' ∉ s) : ¬ BringsExpression s := by
  rintro ⟨before, name, behind, rfl, -⟩
  exact hcolon (by simp)

def Token.isOpen : Token → Bool
  | .literal _ => false
  | _ => true

/-- The character of a token in a sample. -/
def Token.sample (d : Char) : Token → Char
  | .literal c => c
  | _ => d

/-- The part of a segment in a sample. -/
def Segment.sample (tail : List Char) (d : Char) : Segment → List Char
  | .subtree => tail
  | .tokens row => '/' :: row.map (Token.sample d)

private theorem Spells.stands_sample (h : Spells s row) (hplain : ¬ row.any Token.isCustom)
    (hd : d ≠ '/') : Stands s (row.map (Token.sample d)) := by
  induction h with
  | done => exact .done
  | @sign c s row hopen hclose _ ih =>
    have hrest := ih fun h => hplain (by simp [h])
    by_cases hstar : c = '*'
    · subst hstar
      exact .anyText (t := [d]) (by simpa using Ne.symm hd) hrest
    by_cases hmark : c = '?'
    · subst hmark
      exact .anyChar hd hrest
    · rw [signToken, if_neg hstar, if_neg hmark]
      exact .ordinary (isPlainChar_iff.mpr ⟨hopen, hclose, hstar, hmark⟩) hrest
  | @«variable» body name s custom row hparts hname _ ih =>
    have hrest := ih fun h => hplain (by simp [h])
    cases custom with
    | some custom => exact absurd rfl hplain
    | none =>
      have hbody : '\x7d' ∉ body := fun h => (variableParts_none hparts hname _ h).2.1 rfl
      exact .variable (t := [d]) hbody (by simp) (by simpa using Ne.symm hd) hrest

theorem Spells.eq_sample (h : Spells s row) (hclosed : ∀ t ∈ row, t.isOpen = false) {a : List Char}
    (ha : Stands s a) : a = row.map (Token.sample d) := by
  induction h generalizing a with
  | done =>
    cases ha
    rfl
  | @sign c s row hopen hclose _ ih =>
    rw [List.forall_mem_cons] at hclosed
    obtain ⟨t, rest, rfl, ht, hrest⟩ := (stands_sign_iff hopen hclose).mp ha
    cases htoken : signToken c with
    | literal c' =>
      rw [htoken] at ht
      cases ht
      rw [ih hclosed.2 hrest]
      rfl
    | _ =>
      rw [htoken] at hclosed
      cases hclosed.1
  | «variable» => cases hclosed _ List.mem_cons_self

/-- A segment without expressions that is read from a text without slashes. -/
structure PlainFrom (text : List Char) (segment : Segment) : Prop where
  read : ReadFrom text segment
  plain : segment.isPlain
  slash : '/' ∉ text

private theorem plainFrom_of_readFrom (hreads : List.Forall₂ ReadFrom texts segments)
    (hplain : ∀ segment ∈ segments, segment.isPlain) (hslash : ∀ text ∈ texts, '/' ∉ text) :
    List.Forall₂ PlainFrom texts segments := by
  induction hreads with
  | nil => exact .nil
  | cons hsegment _ ih =>
    rw [List.forall_mem_cons] at hplain hslash
    exact .cons ⟨hsegment, hplain.1, hslash.1⟩ (ih hplain.2 hslash.2)

namespace PlainFrom

theorem ne_subtree (h : PlainFrom text (.tokens row)) : text ≠ ['*', '*'] := h.read.1

theorem spells (h : PlainFrom text (.tokens row)) : Spells text row := h.read.2

theorem not_isCustom (h : PlainFrom text (.tokens row)) : ¬ row.any Token.isCustom := by
  simpa [Segment.isPlain] using h.plain

theorem eq_subtree (h : PlainFrom text .subtree) : text = ['*', '*'] := h.read

private theorem stands_sample (h : PlainFrom text (.tokens row)) (hd : d ≠ '/') :
    Stands text (row.map (Token.sample d)) := h.spells.stands_sample h.not_isCustom hd

theorem slash_not_mem_sample (h : PlainFrom text (.tokens row)) (hd : d ≠ '/') :
    '/' ∉ row.map (Token.sample d) := (h.stands_sample hd).slash_not_mem h.slash

private theorem takes_sample {segment : Segment} (h : PlainFrom text segment)
    (htail : Takes ['*', '*'] tail) (hd : d ≠ '/') : Takes text (segment.sample tail d) := by
  cases segment with
  | subtree =>
    rw [h.eq_subtree]
    exact htail
  | tokens row =>
    rw [Takes, if_neg h.ne_subtree]
    exact ⟨_, rfl, h.stands_sample hd⟩

end PlainFrom

/-- A sample of segments, with a character chosen for each. -/
def sample (tail : List Char) (choose : Segment → Char) (segments : List Segment) : List Char :=
  segments.flatMap fun segment => segment.sample tail (choose segment)

theorem exists_parts_sample {choose : Segment → Char} (h : List.Forall₂ PlainFrom texts segments)
    (htail : Takes ['*', '*'] tail) (hchoose : ∀ segment, choose segment ≠ '/') :
    ∃ parts, List.Forall₂ Takes texts parts ∧ parts.flatten = sample tail choose segments := by
  induction h with
  | nil => exact ⟨[], .nil, rfl⟩
  | @cons text segment texts segments hsegment _ ih =>
    obtain ⟨parts, hparts, hflat⟩ := ih
    refine ⟨_, .cons (hsegment.takes_sample htail (hchoose segment)) hparts, ?_⟩
    rw [List.flatten_cons, hflat]
    rfl

/-- A compiled pattern and the segments that are read from the texts between its slashes, without
expressions. -/
structure Layout (pattern : String) (compiled : PathPattern) (segments : List Segment) : Prop where
  reads : List.Forall₂ PlainFrom (cuts pattern) segments
  raw : compiled.raw = pattern
  names : compiled.names = segments.flatMap Segment.names
  singleWildcards : compiled.singleWildcards = countSingle segments
  doubleWildcards : compiled.doubleWildcards = countSubtrees segments
  isMatch : ∀ path, compiled.isMatch path ↔ IsPath pattern path.toList

private theorem names_of_read {names : List String}
    (hread : Pattern.read pattern = .ok (segments, names)) :
    names = segments.flatMap Segment.names := by
  have hbalanced : Balanced 0 pattern.toList := by
    apply Classical.byContradiction
    intro h
    rw [read_of_not_balanced h] at hread
    cases hread
  have hne : pattern ≠ "" := by
    rintro rfl
    cases hread
  obtain ⟨bodies, hgroups⟩ := exists_outerGroups hbalanced
  obtain ⟨segments', -, hnames, hread'⟩ := read_of_outerGroups hne hgroups
  rw [hread'] at hread
  rcases readNames_cases pattern bodies with ⟨-, hcase⟩ | ⟨fault, -, hcase⟩
  · rw [hcase] at hread
    cases hread
    exact hnames.symm
  · rw [hcase] at hread
    cases hread

end Pattern

open Pattern

/-- A pattern whose variables bring no expressions has a layout. -/
theorem PathPattern.exists_layout {pattern : String} {compiled : PathPattern}
    (hparse : PathPattern.parse pattern = .ok compiled)
    (hplain : ¬ BringsExpression pattern.toList) : ∃ segments, Layout pattern compiled segments := by
  obtain ⟨segments, names, hread⟩ := parse_ok hparse
  obtain ⟨hsegments, hmeans⟩ := rowTakes_rootedPieces hread hplain
  have hne : pattern ≠ "" := by
    rintro rfl
    cases hread
  have hcompiled := parse_eq_of_read hread hsegments
  rw [hparse, Except.ok.injEq] at hcompiled
  have hmatch (path : String) : compiled.isMatch path ↔ IsPath pattern path.toList := by
    rw [← means_iff_isPath hne, ← hmeans, hcompiled]
    exact isMatch_row_iff (isInner_rootedPieces hsegments) path.toList
  by_cases hrooted : unroot pattern.toList = []
  · have hcuts : cuts pattern = [[]] := by rw [cuts, hrooted]; rfl
    obtain ⟨rfl, rfl⟩ := read_root hread hrooted
    exact ⟨[.tokens []], {
      reads := by
        rw [hcuts]
        exact .cons ⟨⟨by simp, .done⟩, rfl, by simp⟩ .nil
      raw := by rw [hcompiled]
      names := by rw [hcompiled]; rfl
      singleWildcards := by rw [hcompiled]; rfl
      doubleWildcards := by rw [hcompiled]; rfl
      isMatch := hmatch }⟩
  · obtain ⟨hreads, -, hslash⟩ := readFrom_of_read hread hrooted hplain
    exact ⟨segments, {
      reads := plainFrom_of_readFrom hreads hsegments hslash
      raw := by rw [hcompiled]
      names := by rw [hcompiled]; exact names_of_read hread
      singleWildcards := by rw [hcompiled]
      doubleWildcards := by rw [hcompiled]
      isMatch := hmatch }⟩

namespace Pattern.Layout

variable {pattern : String} {compiled : PathPattern} {segments : List Segment} {tail : List Char}
  {choose : Segment → Char}

/-- A sample is a path of the pattern. -/
theorem isMatch_sample (h : Layout pattern compiled segments) (htail : Takes ['*', '*'] tail)
    (hchoose : ∀ segment, choose segment ≠ '/') :
    compiled.isMatch (String.ofList (sample tail choose segments)) := by
  rw [h.isMatch, String.toList_ofList]
  obtain ⟨parts, hparts, hflat⟩ := exists_parts_sample h.reads htail hchoose
  exact ⟨parts, [], by rw [hflat, List.append_nil], hparts, .inl rfl⟩

end Pattern.Layout

end Switchyard
