import Switchyard.Proofs.Attempt
import Switchyard.Proofs.Pattern.Samples
import Switchyard.Proofs.Text.Items
/-!
# One more slash

A pattern that does not end in a slash matches its paths with one slash more, unless its last segment
ends in `**` without being `**` (`PathPattern.isMatch_slash_iff`). In that case the sample that has a
line feed wherever the pattern leaves a choice is not matched with one slash more: a `**` in front
would have to take up one segment of the sample, so that all behind it move up by one place, and only
segments without a choice can do so.
-/

namespace Switchyard

namespace Pattern

variable {s r : List Char} {texts parts : List (List Char)} {row : List Token}
  {segments : List Segment} {d : Char}

/-- The sample with a line feed in each place that is left open. -/
def lineSample (segments : List Segment) : List Char := sample [] (fun _ => '\n') segments

private theorem isOpen_of_not_mem (h : d ∉ row.map (Token.sample d)) :
    ∀ t ∈ row, t.isOpen = false := by
  intro t ht
  cases t with
  | literal c => rfl
  | _ => exact absurd (List.mem_map.mpr ⟨_, ht, rfl⟩) h

private theorem cons_slash_lineSample (segments : List Segment) :
    ∃ rest, lineSample segments ++ ['/'] = '/' :: rest := by
  induction segments with
  | nil => exact ⟨[], rfl⟩
  | cons segment segments ih =>
    cases segment with
    | subtree => exact ih
    | tokens row => exact ⟨_, rfl⟩

private theorem countP_le_count_slash (h : List.Forall₂ Takes texts parts) :
    texts.countP (· ≠ ['*', '*']) ≤ parts.flatten.count '/' := by
  induction h with
  | nil => simp
  | @cons text part texts parts hpart _ ih =>
    rw [List.countP_cons, List.flatten_cons, List.count_append]
    by_cases htext : text = ['*', '*']
    · rw [if_neg (by simpa using htext)]
      omega
    · rw [Takes, if_neg htext] at hpart
      obtain ⟨rest, rfl, -⟩ := hpart
      rw [if_pos (by simpa using htext), List.count_cons_self]
      omega

private theorem count_slash_lineSample (h : List.Forall₂ PlainFrom texts segments) :
    (lineSample segments).count '/' = texts.countP (· ≠ ['*', '*']) := by
  induction h with
  | nil => rfl
  | @cons text segment texts segments hsegment _ ih =>
    rw [List.countP_cons, ← ih]
    cases segment with
    | subtree =>
      rw [hsegment.eq_subtree]
      rfl
    | tokens row =>
      have hnone := List.count_eq_zero.mpr (hsegment.slash_not_mem_sample (d := '\n') (by decide))
      change List.count '/' ('/' :: row.map (Token.sample '\n') ++ lineSample segments) = _
      rw [List.count_append, List.count_cons_self, hnone, if_pos (by simpa using hsegment.ne_subtree)]
      omega

/-- If the texts behind a `**` take up the sample moved by one place, with a segment without line feeds
in front, then none of its segments has a line feed. -/
private theorem line_not_mem_of_moved (h : List.Forall₂ PlainFrom texts segments)
    (htakes : List.Forall₂ Takes texts parts) (hline : '\n' ∉ r) (hslash : '/' ∉ r)
    (heq : '/' :: (r ++ parts.flatten) = lineSample segments ++ ['/']) :
    '\n' ∉ lineSample segments := by
  induction h generalizing parts r with
  | nil => exact List.not_mem_nil
  | @cons text segment texts segments hsegment hsegments ih =>
    cases htakes with
    | @cons _ part _ parts hpart hparts =>
      rw [List.flatten_cons] at heq
      cases segment with
      | subtree =>
        rw [hsegment.eq_subtree] at hpart
        change '/' :: (r ++ (part ++ parts.flatten)) = lineSample segments ++ ['/'] at heq
        rcases hpart.subtree with rfl | ⟨rest, rfl, -⟩
        · exact ih hparts hline hslash heq
        · -- one slash of the sample for each text, and two are taken up in front of these
          have hcount := congrArg (List.count '/') heq
          have hle := countP_le_count_slash hparts
          simp only [List.count_append, List.count_cons_self, List.cons_append,
            count_slash_lineSample hsegments, List.count_nil] at hcount
          omega
      | tokens row =>
        obtain ⟨rest, rfl, hrest, hstands⟩ := hpart.of_ne hsegment.ne_subtree hsegment.slash
        obtain ⟨more, hmore⟩ := cons_slash_lineSample segments
        change '/' :: (r ++ '/' :: (rest ++ parts.flatten)) =
          '/' :: row.map (Token.sample '\n') ++ lineSample segments ++ ['/'] at heq
        rw [List.append_assoc, hmore, List.cons_append, List.cons.injEq] at heq
        obtain ⟨rfl, hmoved⟩ := append_cons_inj hslash
          (hsegment.slash_not_mem_sample (by decide)) heq.2
        have hsame := hsegment.spells.eq_sample (d := '\n') (isOpen_of_not_mem hline) hstands
        have htail := ih hparts (hsame ▸ hline) hrest (by rw [hmore, hmoved])
        change '\n' ∉ '/' :: row.map (Token.sample '\n') ++ lineSample segments
        simp [hline, htail]

/-- The last segment is a row of tokens with a choice. -/
def EndsOpen (segments : List Segment) : Prop :=
  ∃ row, segments.getLast? = some (.tokens row) ∧ ∃ t ∈ row, t.isOpen

private theorem EndsOpen.line_mem (h : EndsOpen segments) : '\n' ∈ lineSample segments := by
  obtain ⟨row, hlast, t, ht, hopen⟩ := h
  have hsample : t.sample '\n' = '\n' := by
    cases t with
    | literal c => cases hopen
    | _ => rfl
  rw [lineSample, sample, List.mem_flatMap]
  refine ⟨_, List.mem_of_getLast? hlast, ?_⟩
  exact List.mem_cons_of_mem _ (List.mem_map.mpr ⟨t, ht, hsample⟩)

theorem EndsOpen.of_cons {segment : Segment} (h : EndsOpen (segment :: segments))
    (hne : segments ≠ []) : EndsOpen segments := by
  obtain ⟨row, hlast, hrow⟩ := h
  rw [List.getLast?_cons_of_ne_nil hne] at hlast
  exact ⟨row, hlast, hrow⟩

private theorem slash_not_suffix_lineSample (h : List.Forall₂ PlainFrom texts segments)
    (hopen : EndsOpen segments) : ¬ ['/'] <:+ lineSample segments := by
  rw [List.singleton_suffix_iff_getLast?_eq_some]
  induction h with
  | nil =>
    obtain ⟨row, hlast, -⟩ := hopen
    cases hlast
  | @cons text segment texts segments hsegment _ ih =>
    by_cases hne : segments = []
    · obtain ⟨row, hlast, t, ht, -⟩ := hopen
      subst hne
      cases hlast
      have hrow : row.map (Token.sample '\n') ≠ [] := List.ne_nil_of_mem (List.mem_map_of_mem ht)
      change ('/' :: row.map (Token.sample '\n') ++ []).getLast? ≠ some '/'
      rw [List.append_nil, List.getLast?_cons_of_ne_nil hrow]
      intro hslash
      exact hsegment.slash_not_mem_sample (by decide) (List.mem_of_getLast? hslash)
    · have hrest := hopen.of_cons hne
      change (segment.sample [] '\n' ++ lineSample segments).getLast? ≠ some '/'
      rw [List.getLast?_append_of_ne_nil _ (List.ne_nil_of_mem hrest.line_mem)]
      exact ih hrest

private theorem flatten_ne_lineSample (h : List.Forall₂ PlainFrom texts segments)
    (htakes : List.Forall₂ Takes texts parts) (hopen : EndsOpen segments) :
    parts.flatten ≠ lineSample segments ++ ['/'] := by
  induction h generalizing parts with
  | nil =>
    obtain ⟨row, hlast, -⟩ := hopen
    cases hlast
  | @cons text segment texts segments hsegment hsegments ih =>
    intro heq
    cases htakes with
    | @cons _ part _ parts hpart hparts =>
      rw [List.flatten_cons] at heq
      cases segment with
      | subtree =>
        have hne : segments ≠ [] := by
          rintro rfl
          obtain ⟨row, hlast, -⟩ := hopen
          cases hlast
        rw [hsegment.eq_subtree] at hpart
        change part ++ parts.flatten = lineSample segments ++ ['/'] at heq
        rcases hpart.subtree with rfl | ⟨r, rfl, hline⟩
        · exact ih hparts (hopen.of_cons hne) heq
        · have hslash : '/' ∉ r := by
            have hcount := congrArg (List.count '/') heq
            have hle := countP_le_count_slash hparts
            simp only [List.count_append, List.count_cons_self, List.cons_append,
              count_slash_lineSample hsegments, List.count_nil] at hcount
            exact List.count_eq_zero.mp (by omega)
          exact line_not_mem_of_moved hsegments hparts hline hslash heq
            (hopen.of_cons hne).line_mem
      | tokens row =>
        obtain ⟨rest, rfl, hslash, -⟩ := hpart.of_ne hsegment.ne_subtree hsegment.slash
        obtain ⟨more, hmore⟩ := cons_slash_lineSample segments
        change '/' :: (rest ++ parts.flatten) =
          '/' :: row.map (Token.sample '\n') ++ lineSample segments ++ ['/'] at heq
        rw [List.append_assoc, hmore, List.cons_append, List.cons.injEq] at heq
        rcases flatten_eq_nil_or_slash hparts with hnil | ⟨more', hmore'⟩
        · rw [hnil, List.append_nil] at heq
          rw [heq.2] at hslash
          exact hslash (by simp)
        · rw [hmore'] at heq
          obtain ⟨-, rfl⟩ := append_cons_inj hslash
            (hsegment.slash_not_mem_sample (by decide)) heq.2
          have hne : segments ≠ [] := by
            rintro rfl
            cases hsegments
            cases hparts
            cases hmore'
          exact ih hparts (hopen.of_cons hne) (hmore'.trans hmore.symm)

private theorem Spells.exists_isOpen (h : Spells s row) (hstar : s.getLast? = some '*') :
    ∃ t ∈ row, t.isOpen := by
  induction h with
  | done => cases hstar
  | @sign c s row _ _ hrest ih =>
    by_cases hs : s = []
    · subst hs
      cases hstar
      exact ⟨_, List.mem_cons_self, rfl⟩
    · rw [List.getLast?_cons_of_ne_nil hs] at hstar
      obtain ⟨t, ht, hopen⟩ := ih hstar
      exact ⟨t, List.mem_cons_of_mem _ ht, hopen⟩
  | «variable» => exact ⟨_, List.mem_cons_self, rfl⟩

private theorem getLast?_intercalate (hlast : texts.getLast? = some s) (hne : s ≠ []) :
    (['/'].intercalate texts).getLast? = s.getLast? := by
  induction texts with
  | nil => cases hlast
  | cons text texts ih =>
    cases texts with
    | nil =>
      cases hlast
      simp
    | cons text' texts =>
      rw [List.getLast?_cons_cons] at hlast
      have hlast := ih hlast
      have hrest : ['/'].intercalate (text' :: texts) ≠ [] := by
        intro hnil
        rw [hnil, List.getLast?_nil, eq_comm, List.getLast?_eq_none_iff] at hlast
        exact hne hlast
      rw [List.intercalate_cons_cons, List.getLast?_append_of_ne_nil _ hrest, hlast]

private theorem getLast?_of_forall₂ {α β : Type} {R : α → β → Prop} {as : List α} {bs : List β}
    (h : List.Forall₂ R as bs) {a : α} (ha : as.getLast? = some a) :
    ∃ b, bs.getLast? = some b ∧ R a b := by
  induction h with
  | nil => cases ha
  | @cons x y xs ys hxy hrest ih =>
    cases hrest with
    | nil =>
      cases ha
      exact ⟨y, rfl, hxy⟩
    | cons hxy' hrest' =>
      rw [List.getLast?_cons_cons] at ha ⊢
      exact ih ha

def lastCut (pattern : String) : Option (List Char) := (cuts pattern).getLast?

private theorem lastCut_of_star {pattern : String}
    (hstar : (unroot pattern.toList).getLast? = some '*') :
    ∃ text, lastCut pattern = some text ∧ text.getLast? = some '*' := by
  have hne := List.splitOn_ne_nil '/' (unroot pattern.toList)
  have hjoin : ['/'].intercalate ((unroot pattern.toList).splitOn '/') = unroot pattern.toList :=
    List.intercalate_splitOn '/'
  have hlast := List.getLast?_eq_some_getLast hne
  refine ⟨_, hlast, ?_⟩
  rw [← hjoin] at hstar
  rw [← hstar, getLast?_intercalate hlast]
  intro hnil
  have hpinned := (slash_suffix_intercalate_iff (fun _ => not_mem_of_mem_splitOn) ?_).mpr
    (hnil ▸ hlast)
  · rw [List.singleton_suffix_iff_getLast?_eq_some, hstar] at hpinned
    cases hpinned
  · intro hempty
    rw [hempty] at hstar
    cases hstar

private theorem Layout.endsOpen {pattern : String} {compiled : PathPattern}
    (h : Layout pattern compiled segments) (hstars : ['*', '*'] <:+ pattern.toList)
    (hlast : lastCut pattern ≠ some ['*', '*']) : EndsOpen segments := by
  have hstar : (unroot pattern.toList).getLast? = some '*' := by
    obtain ⟨front, hfront⟩ := (suffix_unroot_iff (by simp)).mpr hstars
    rw [← hfront, List.getLast?_append_of_ne_nil _ (by simp)]
    rfl
  obtain ⟨text, htext, hend⟩ := lastCut_of_star hstar
  obtain ⟨segment, hsegment, hread⟩ := getLast?_of_forall₂ h.reads htext
  cases segment with
  | subtree =>
    rw [htext, hread.eq_subtree] at hlast
    exact absurd rfl hlast
  | tokens row => exact ⟨row, hsegment, hread.spells.exists_isOpen hend⟩

private theorem exists_parts_slash (h : List.Forall₂ Takes texts parts)
    (hlast : texts.getLast? = some ['*', '*']) :
    ∃ parts', List.Forall₂ Takes texts parts' ∧ parts'.flatten = parts.flatten ++ ['/'] := by
  induction h with
  | nil => cases hlast
  | @cons text part texts parts hpart hparts ih =>
    cases hparts with
    | nil =>
      cases hlast
      refine ⟨[part ++ ['/']], .cons ?_ .nil, by simp⟩
      rw [Takes, if_pos rfl]
      rcases hpart.subtree with rfl | ⟨rest, rfl, hrest⟩
      · exact .inr ⟨[], rfl, by simp⟩
      · exact .inr ⟨rest ++ ['/'], rfl, by simp [hrest]⟩
    | cons hpart' hparts' =>
      rw [List.getLast?_cons_cons] at hlast
      obtain ⟨parts', hparts', hflat⟩ := ih hlast
      refine ⟨part :: parts', .cons hpart hparts', ?_⟩
      rw [List.flatten_cons, hflat, ← List.append_assoc, ← List.flatten_cons]

end Pattern

open Pattern

namespace PathPattern

variable {pattern : String} {compiled : PathPattern}

/-- A pattern without expressions and without a slash at its end matches its paths with one slash more
exactly if it does not end in `**`, or its last segment is `**`. Its expression is the one that is
read of its written form, if that is not too large (`Pattern.parse_written`). -/
theorem isMatch_slash_iff (hparse : PathPattern.parse pattern = .ok compiled)
    (hplain : ¬ BringsExpression pattern.toList) (hslash : ¬ ['/'] <:+ pattern.toList) :
    (∀ path : String, ¬ ['/'] <:+ path.toList → compiled.isMatch path →
      compiled.isMatch (path ++ "/")) ↔
    (['*', '*'] <:+ pattern.toList → lastCut pattern = some ['*', '*']) := by
  obtain ⟨segments, hlayout⟩ := exists_layout hparse hplain
  constructor
  · intro hlaw hstars
    apply Classical.byContradiction
    intro hlast
    have hopen := hlayout.endsOpen hstars hlast
    have hmatch : compiled.isMatch (String.ofList (lineSample segments)) :=
      hlayout.isMatch_sample (.inl rfl) fun _ => by decide
    have hend : ¬ ['/'] <:+ (String.ofList (lineSample segments)).toList := by
      rw [String.toList_ofList]
      exact slash_not_suffix_lineSample hlayout.reads hopen
    have hmore := hlaw _ hend hmatch
    rw [hlayout.isMatch] at hmore
    obtain ⟨parts, last, hpath, hparts, rfl | ⟨-, hnone, -⟩⟩ := hmore
    · refine flatten_ne_lineSample hlayout.reads hparts hopen ?_
      simpa using hpath.symm
    · exact hnone hstars
  · intro hends path hpath hmatch
    rw [hlayout.isMatch] at hmatch ⊢
    obtain ⟨parts, last, heq, hparts, hlast⟩ := hmatch
    obtain rfl : last = [] := by
      rcases hlast with rfl | ⟨rfl, -, -⟩
      · rfl
      · exact absurd ⟨_, heq.symm⟩ hpath
    rw [String.toList_append, heq, List.append_nil]
    by_cases hstars : ['*', '*'] <:+ pattern.toList
    · obtain ⟨parts', hparts', hflat⟩ := exists_parts_slash hparts (hends hstars)
      exact ⟨parts', [], by rw [hflat, List.append_nil]; rfl, hparts', .inl rfl⟩
    · exact ⟨parts, ['/'], rfl, hparts, .inr ⟨rfl, hstars, hslash⟩⟩

theorem isMatch_slash_iff_files : ∃ compiled, PathPattern.parse "/files/**" = .ok compiled ∧
    ¬ BringsExpression "/files/**".toList ∧ ¬ ['/'] <:+ "/files/**".toList ∧
    compiled.isMatch ("/files/a/b" ++ "/") := by
  have hfiles : (PathPattern.parse "/files/**").toOption.any (·.isMatch "/files/a/b") := by
    decide +kernel
  obtain ⟨compiled, hparse, hmatch⟩ := exists_ok_of_any hfiles
  have hplain : ¬ BringsExpression "/files/**".toList := not_bringsExpression (by decide)
  have hslash : ¬ ['/'] <:+ "/files/**".toList := by decide
  have hlaw := (isMatch_slash_iff hparse hplain hslash).mpr fun _ => by decide
  exact ⟨compiled, hparse, hplain, hslash, hlaw "/files/a/b" (by decide) hmatch⟩

/-- Two stars at the end of a longer segment keep a slash out, though none of them takes up any. -/
theorem stars_refuse_slash : ∃ compiled, PathPattern.parse "/a**" = .ok compiled ∧
    ¬ BringsExpression "/a**".toList ∧ ¬ ['/'] <:+ "/a**".toList ∧ ¬ ['/'] <:+ "/a".toList ∧
    compiled.isMatch "/a" ∧ ¬ compiled.isMatch ("/a" ++ "/") := by
  have hstars : (PathPattern.parse "/a**").toOption.any fun compiled =>
      compiled.isMatch "/a" && !compiled.isMatch ("/a" ++ "/") := by
    decide +kernel
  obtain ⟨compiled, hparse, hboth⟩ := exists_ok_of_any hstars
  obtain ⟨hmatch, hmore⟩ := Bool.and_eq_true_iff.mp hboth
  refine ⟨compiled, hparse, not_bringsExpression (by decide), by decide, by decide, hmatch, ?_⟩
  simpa using hmore

end PathPattern

end Switchyard
