import Mathlib.Data.List.Induction
import Mathlib.Data.List.TakeWhile
import Switchyard.Proofs.Pattern.Writing
/-!
# The verdict on patterns

Whether a pattern is refused, and for what, is told by its outermost groups: the first that names no
variable, or one that an earlier group names, decides (`PathPattern.parse_verdict`). Only expressions
that variables bring can be refused beyond that.
-/

namespace Switchyard

namespace Pattern

variable {pattern : String} {seen : List String} {s text body : List Char}
  {texts bodies : List (List Char)} {rows : List (List (List Char))}

/-- The name in a group: what is in front of the first colon, trimmed. -/
def groupName (body : List Char) : List Char := Text.trim (body.takeWhile (· != ':'))

def groupNames (bodies : List (List Char)) : List String :=
  bodies.map fun body => String.ofList (groupName body)

/-- A group brings an expression behind a colon. -/
def IsCustom (body : List Char) : Prop := ':' ∈ body

private theorem variableParts_eq (body : List Char) : variableParts body =
    (groupName body, (Text.cutFirst ':' body).map (·.2)) := by
  rw [variableParts, groupName]
  cases hcut : Text.cutFirst ':' body with
  | none =>
    have hnone : ':' ∉ body := by
      rw [← Text.isSome_cutFirst, hcut]
      exact Bool.false_ne_true
    rw [List.takeWhile_eq_self_iff.mpr]
    · rfl
    · intro c hc
      rw [bne_iff_ne]
      rintro rfl
      exact hnone hc
  | some cut =>
    obtain ⟨name, custom⟩ := cut
    have hname := Text.not_mem_of_cutFirst hcut
    rw [Text.eq_of_cutFirst hcut, List.takeWhile_append_of_pos, List.takeWhile_cons_of_neg (by simp),
      List.append_nil]
    · rfl
    · intro c hc
      rw [bne_iff_ne]
      rintro rfl
      exact hname hc

def groupToken (body : List Char) : Token :=
  .variable (String.ofList (groupName body)) (variableParts body).2

private theorem isCustom_of_groupToken (h : (groupToken body).isCustom) : IsCustom body := by
  rw [groupToken, variableParts_eq] at h
  cases hcut : Text.cutFirst ':' body with
  | none => simp [hcut, Token.isCustom] at h
  | some cut => rw [IsCustom, ← Text.isSome_cutFirst, hcut]; rfl

/-- Takes up the names of groups behind those before; the first that is no name, or is there already,
is at fault. -/
def readNames (pattern : String) (seen : List String) :
    List (List Char) → Except PatternFault (List String)
  | [] => .ok seen
  | body :: rest =>
    if !isVariableName (groupName body) then
      .error (.badName pattern (String.ofList (groupName body)))
    else if seen.contains (String.ofList (groupName body)) then
      .error (.repeatedName pattern (String.ofList (groupName body)))
    else readNames pattern (seen ++ [String.ofList (groupName body)]) rest

private theorem readNames_append (bodies more : List (List Char)) :
    readNames pattern seen (bodies ++ more) =
      (readNames pattern seen bodies).bind fun names => readNames pattern names more := by
  induction bodies generalizing seen with
  | nil => rfl
  | cons body bodies ih =>
    rw [List.cons_append, readNames, readNames]
    split
    · rfl
    · split
      · rfl
      · exact ih

private theorem readNames_ne_unbalanced (pattern other : String) (seen : List String)
    (bodies : List (List Char)) : readNames pattern seen bodies ≠ .error (.unbalanced other) := by
  induction bodies generalizing seen with
  | nil => exact nofun
  | cons body bodies ih =>
    rw [readNames]
    split
    · exact nofun
    · split
      · exact nofun
      · exact ih _

private theorem names_signToken (c : Char) : (signToken c).names = [] := by
  unfold signToken
  split_ifs <;> rfl

private theorem isCustom_signToken (c : Char) : (signToken c).isCustom = false := by
  unfold signToken
  split_ifs <;> rfl

private theorem exists_row_of_outerGroups (h : OuterGroups s bodies) : ∃ row,
    ((∀ body ∈ bodies, ¬ IsCustom body) → ¬ row.any Token.isCustom) ∧
      row.flatMap Token.names = groupNames bodies ∧
      ∀ pattern seen, readTokens pattern seen s =
        (readNames pattern seen bodies).map fun names => (row, names) := by
  induction h with
  | nil => exact ⟨[], by simp, rfl, fun pattern seen => by rw [readTokens]; rfl⟩
  | @sign c s bodies hopen hclose _ ih =>
    obtain ⟨row, hplain, hnames, hread⟩ := ih
    refine ⟨signToken c :: row, ?_, ?_, ?_⟩
    · simpa [isCustom_signToken] using hplain
    · rw [List.flatMap_cons, names_signToken, hnames, List.nil_append]
    · intro pattern seen
      rw [readTokens, if_neg hopen, if_neg hclose, hread]
      cases readNames pattern seen bodies <;> rfl
  | @group body s bodies hbody _ ih =>
    obtain ⟨row, hplain, hnames, hread⟩ := ih
    refine ⟨groupToken body :: row, ?_, ?_, ?_⟩
    · intro hcustom
      rw [List.forall_mem_cons] at hcustom
      rw [List.any_cons, Bool.or_eq_true, not_or]
      exact ⟨fun h => hcustom.1 (isCustom_of_groupToken h), hplain hcustom.2⟩
    · rw [List.flatMap_cons, hnames]
      rfl
    · intro pattern seen
      rw [readTokens, if_pos rfl]
      split
      · next hnone =>
        rw [takeBody_append hbody] at hnone
        cases hnone
      · next body' after htake =>
        rw [takeBody_append hbody] at htake
        cases htake
        have hname : (variableParts body).1 = groupName body :=
          congrArg Prod.fst (variableParts_eq body)
        rw [readNames, ← hname]
        dsimp only
        split
        · rfl
        · split
          · rfl
          · rw [hread, groupToken, ← hname]
            cases readNames pattern (seen ++ [String.ofList (variableParts body).1]) bodies <;> rfl

private theorem exists_segments_of_outerGroups (h : List.Forall₂ OuterGroups texts rows) :
    ∃ segments, ((∀ body ∈ rows.flatten, ¬ IsCustom body) → ∀ segment ∈ segments, segment.isPlain) ∧
      segments.flatMap Segment.names = groupNames rows.flatten ∧
      ∀ pattern seen, readSegments pattern seen texts =
        (readNames pattern seen rows.flatten).map fun names => (segments, names) := by
  induction h with
  | nil => exact ⟨[], by simp, rfl, fun pattern seen => rfl⟩
  | @cons text bodies texts rows htext _ ih =>
    obtain ⟨segments, hplain, hnames, hread⟩ := ih
    by_cases hsubtree : text = ['*', '*']
    · subst hsubtree
      have hnone : OuterGroups ['*', '*'] [] :=
        .sign (by decide) (by decide) (.sign (by decide) (by decide) .nil)
      cases htext.unique hnone
      refine ⟨.subtree :: segments, ?_, hnames, ?_⟩
      · intro hcustom
        rw [List.forall_mem_cons]
        exact ⟨rfl, hplain hcustom⟩
      · intro pattern seen
        rw [readSegments, if_pos rfl, hread]
        change _ = (readNames pattern seen rows.flatten).map _
        cases readNames pattern seen rows.flatten <;> rfl
    · obtain ⟨row, hrow, hrowNames, hreadRow⟩ := exists_row_of_outerGroups htext
      refine ⟨.tokens row :: segments, ?_, ?_, ?_⟩
      · intro hcustom
        rw [List.flatten_cons, List.forall_mem_append] at hcustom
        rw [List.forall_mem_cons]
        exact ⟨by simpa [Segment.isPlain] using hrow hcustom.1, hplain hcustom.2⟩
      · rw [List.flatMap_cons, Segment.names, hrowNames, hnames, List.flatten_cons, groupNames,
          groupNames, groupNames, List.map_append]
      · intro pattern seen
        rw [readSegments, if_neg hsubtree, hreadRow, List.flatten_cons, readNames_append]
        cases readNames pattern seen bodies with
        | error fault => rfl
        | ok names =>
          change (readSegments pattern names texts >>= _) =
            (readNames pattern names rows.flatten).map _
          rw [hread]
          cases readNames pattern names rows.flatten <;> rfl

private theorem unroot_of_ne {c : Char} (hslash : c ≠ '/') (s : List Char) :
    unroot (c :: s) = c :: s := by
  rw [unroot]
  rintro s' ⟨⟩
  exact hslash rfl

theorem OuterGroups.unroot (h : OuterGroups s bodies) : OuterGroups (unroot s) bodies := by
  cases h with
  | nil => exact .nil
  | @sign c s _ hopen hclose rest =>
    by_cases hslash : c = '/'
    · subst hslash
      exact rest
    · rw [unroot_of_ne hslash]
      exact .sign hopen hclose rest
  | group hbody rest => exact .group hbody rest

private theorem balanced_unroot : Balanced 0 (unroot s) ↔ Balanced 0 s := by
  cases s with
  | nil => rfl
  | cons c s =>
    by_cases hslash : c = '/'
    · subst hslash
      exact (balanced_sign (by decide) (by decide)).symm
    · rw [unroot_of_ne hslash]

theorem read_of_outerGroups (hne : pattern ≠ "") (h : OuterGroups pattern.toList bodies) :
    ∃ segments, ((∀ body ∈ bodies, ¬ IsCustom body) → ∀ segment ∈ segments, segment.isPlain) ∧
      segments.flatMap Segment.names = groupNames bodies ∧
      Pattern.read pattern = (readNames pattern [] bodies).map fun names => (segments, names) := by
  have hgroups := h.unroot
  rw [Pattern.read, if_neg (by simpa using hne)]
  split
  · next hroot =>
    rw [hroot] at hgroups
    cases hgroups
    exact ⟨[], by simp, rfl, rfl⟩
  · obtain ⟨texts, hsplit⟩ :=
      Option.isSome_iff_exists.mp (isSome_splitSegments.mpr hgroups.balanced)
    obtain ⟨rows, hrows, rfl⟩ := exists_rows_of_splitSegments hgroups hsplit
    obtain ⟨segments, hplain, hnames, hread⟩ := exists_segments_of_outerGroups hrows
    refine ⟨segments, hplain, hnames, ?_⟩
    rw [hsplit]
    exact hread pattern []

theorem read_of_not_balanced (h : ¬ Balanced 0 pattern.toList) :
    Pattern.read pattern = .error (.unbalanced pattern) := by
  have hne : ¬ pattern.isEmpty := by
    rw [String.isEmpty_iff]
    rintro rfl
    exact h (by simp)
  rw [← balanced_unroot, ← isSome_splitSegments, Option.not_isSome_iff_eq_none] at h
  rw [Pattern.read, if_neg hne]
  split
  · next hroot =>
    rw [hroot] at h
    cases h
  · rw [h]

/-- Each group names a variable, and no two the same. -/
structure Named (bodies : List (List Char)) : Prop where
  valid : ∀ body ∈ bodies, isVariableName (groupName body)
  distinct : (groupNames bodies).Nodup

/-- The first group that names no variable, or one that is named before. -/
inductive Misnamed (pattern : String) (bodies : List (List Char)) : PatternFault → Prop where
  | badName (before : List (List Char)) (body : List Char) (after : List (List Char))
      (hbodies : bodies = before ++ body :: after) (hbefore : Named before)
      (hname : ¬ isVariableName (groupName body)) :
      Misnamed pattern bodies (.badName pattern (String.ofList (groupName body)))
  | repeatedName (before : List (List Char)) (body : List Char) (after : List (List Char))
      (hbodies : bodies = before ++ body :: after) (hbefore : Named before)
      (hname : isVariableName (groupName body))
      (hknown : String.ofList (groupName body) ∈ groupNames before) :
      Misnamed pattern bodies (.repeatedName pattern (String.ofList (groupName body)))

theorem Misnamed.append {fault : PatternFault} (h : Misnamed pattern bodies fault)
    (more : List (List Char)) : Misnamed pattern (bodies ++ more) fault := by
  cases h with
  | badName before body after hbodies hbefore hname =>
    exact .badName before body (after ++ more) (by simp [hbodies]) hbefore hname
  | repeatedName before body after hbodies hbefore hname hknown =>
    exact .repeatedName before body (after ++ more) (by simp [hbodies]) hbefore hname hknown

private theorem Named.concat (h : Named bodies) (hname : isVariableName (groupName body))
    (hnew : String.ofList (groupName body) ∉ groupNames bodies) : Named (bodies ++ [body]) where
  valid := by simpa [or_imp, forall_and] using ⟨h.valid, hname⟩
  distinct := by
    rw [groupNames, List.map_append, List.map_singleton, List.nodup_append]
    refine ⟨h.distinct, by simp, ?_⟩
    rintro name hname _ hlast rfl
    rw [List.mem_singleton.mp hlast] at hname
    exact hnew hname

theorem readNames_cases (pattern : String) (bodies : List (List Char)) :
    (Named bodies ∧ readNames pattern [] bodies = .ok (groupNames bodies)) ∨
      ∃ fault, Misnamed pattern bodies fault ∧ readNames pattern [] bodies = .error fault := by
  induction bodies using List.reverseRecOn with
  | nil => exact .inl ⟨⟨by simp, List.nodup_nil⟩, rfl⟩
  | append_singleton bodies body ih =>
    rw [readNames_append]
    rcases ih with ⟨hnamed, hread⟩ | ⟨fault, hfault, hread⟩
    · rw [hread]
      change _ ∧ readNames pattern (groupNames bodies) [body] = _ ∨
        ∃ fault, _ ∧ readNames pattern (groupNames bodies) [body] = _
      rw [readNames]
      split
      · next hname =>
        exact .inr ⟨_, .badName bodies body [] rfl hnamed (by simpa using hname), rfl⟩
      · next hname =>
        have hname : isVariableName (groupName body) := by simpa using hname
        split
        · next hknown =>
          exact .inr ⟨_, .repeatedName bodies body [] rfl hnamed hname (by simpa using hknown), rfl⟩
        · next hnew =>
          refine .inl ⟨hnamed.concat hname (by simpa using hnew), ?_⟩
          rw [readNames, groupNames, groupNames, List.map_append, List.map_singleton]
    · rw [hread]
      exact .inr ⟨fault, hfault.append [body], rfl⟩

private theorem Misnamed.not_named {fault : PatternFault} (h : Misnamed pattern bodies fault) :
    ¬ Named bodies := by
  intro hnamed
  cases h with
  | badName before body after hbodies _ hname =>
    exact hname (hnamed.valid body (by simp [hbodies]))
  | repeatedName before body after hbodies _ _ hknown =>
    have hdistinct := hnamed.distinct
    rw [hbodies, groupNames, List.map_append, List.map_cons] at hdistinct
    exact (List.nodup_append.mp hdistinct).2.2 _ hknown _ List.mem_cons_self rfl

private theorem Named.readNames_eq (h : Named bodies) (pattern : String) :
    readNames pattern [] bodies = .ok (groupNames bodies) := by
  rcases readNames_cases pattern bodies with ⟨-, hread⟩ | ⟨_, hfault, -⟩
  · exact hread
  · exact absurd h hfault.not_named

/-- The written form of a pattern that is read as segments. -/
def written (pattern : String) (segments : List Segment) : List Char :=
  (pieces (Text.endsWith ['*', '*'] (unroot pattern.toList)) segments).flatMap Piece.source

/-- If no group brings an expression, the pattern has the one that is read of its written form. -/
theorem parse_written (hne : pattern ≠ "")
    (hgroups : OuterGroups pattern.toList bodies) (hnamed : Named bodies)
    (hplain : ∀ body ∈ bodies, ¬ IsCustom body) :
    ∃ compiled segments, PathPattern.parse pattern = .ok compiled ∧
      Pattern.read pattern = .ok (segments, groupNames bodies) ∧
      Regex.parse (written pattern segments) =
        if compiled.regex.size ≤ Regex.sizeLimit then .ok compiled.regex else .error .tooLarge := by
  obtain ⟨segments, hsegments, hnames, hread⟩ := read_of_outerGroups hne hgroups
  rw [hnamed.readNames_eq] at hread
  refine ⟨_, segments, parse_eq_of_read hread (hsegments hplain), hread, ?_⟩
  rw [written, ← pieces_eq]
  have hpieces := names_pieces (Text.endsWith ['*', '*'] (unroot pattern.toList)) segments
  rw [hnames] at hpieces
  apply parse_source
  · simpa using not_isCustom_pieces (hsegments hplain)
  · rw [hpieces, groupNames, List.forall_mem_map]
    simpa using hnamed.valid
  · rw [hpieces]
    exact hnamed.distinct

end Pattern

namespace PathPattern

open Pattern

/-- What becomes of a pattern whose braces balance, by its outermost groups: a fault of the first
group that is misnamed, a fault of an expression that a group brings, or the pattern with its
variables. -/
inductive Verdict (pattern : String) (bodies : List (List Char)) :
    Except PatternFault PathPattern → Prop where
  | misnamed {fault : PatternFault} (h : Misnamed pattern bodies fault) :
      Verdict pattern bodies (.error fault)
  | badRegex (hnamed : Named bodies) (hcustom : ∃ body ∈ bodies, IsCustom body)
      (fault : Regex.Fault) : Verdict pattern bodies (.error (.badRegex pattern fault))
  | accepted (hnamed : Named bodies) {compiled : PathPattern} (hraw : compiled.raw = pattern)
      (hnames : compiled.names = groupNames bodies) : Verdict pattern bodies (.ok compiled)

private theorem verdict_of_outerGroups {pattern : String} {bodies : List (List Char)}
    (hne : pattern ≠ "")
    (h : OuterGroups pattern.toList bodies) : Verdict pattern bodies (parse pattern) := by
  obtain ⟨segments, hplain, -, hread⟩ := read_of_outerGroups hne h
  rcases readNames_cases pattern bodies with ⟨hnamed, hnames⟩ | ⟨fault, hfault, hnames⟩
  · rw [hnames] at hread
    by_cases hcustom : ∃ body ∈ bodies, IsCustom body
    · rw [parse, hread]
      dsimp only [Except.map, bind, Except.bind]
      split
      · exact .badRegex hnamed hcustom _
      · exact .accepted hnamed rfl rfl
    · simp only [not_exists, not_and] at hcustom
      rw [parse_eq_of_read hread (hplain hcustom)]
      exact .accepted hnamed rfl rfl
  · rw [hnames] at hread
    have hparse : parse pattern = .error fault := by rw [parse, hread]; rfl
    rw [hparse]
    exact .misnamed hfault

private theorem Verdict.fault_ne {pattern : String} {bodies : List (List Char)}
    {fault : PatternFault} (h : Verdict pattern bodies (.error fault)) :
    fault ≠ .empty ∧ ∀ other, fault ≠ .unbalanced other := by
  cases h with
  | misnamed h => cases h <;> exact ⟨nofun, nofun⟩
  | badRegex => exact ⟨nofun, nofun⟩

private theorem parse_eq_empty_iff (pattern : String) :
    parse pattern = .error .empty ↔ pattern = "" := by
  constructor
  · intro hparse
    by_contra hne
    by_cases hbalanced : Balanced 0 pattern.toList
    · obtain ⟨bodies, hgroups⟩ := exists_outerGroups hbalanced
      have hverdict := verdict_of_outerGroups hne hgroups
      rw [hparse] at hverdict
      exact hverdict.fault_ne.1 rfl
    · rw [parse, read_of_not_balanced hbalanced] at hparse
      cases hparse
  · rintro rfl
    rfl

private theorem parse_eq_unbalanced_iff (pattern : String) :
    parse pattern = .error (.unbalanced pattern) ↔ ¬ Balanced 0 pattern.toList := by
  constructor
  · intro hparse hbalanced
    by_cases hne : pattern = ""
    · rw [(parse_eq_empty_iff pattern).mpr hne] at hparse
      cases hparse
    · obtain ⟨bodies, hgroups⟩ := exists_outerGroups hbalanced
      have hverdict := verdict_of_outerGroups hne hgroups
      rw [hparse] at hverdict
      exact hverdict.fault_ne.2 pattern rfl
  · intro hbalanced
    rw [parse, read_of_not_balanced hbalanced]
    rfl

private theorem readTokens_ne_unbalanced {s text : List Char} {texts : List (List Char)}
    (hsplit : splitSegments 0 s = some texts) (htext : text ∈ texts) (pattern other : String)
    (seen : List String) : readTokens pattern seen text ≠ .error (.unbalanced other) := by
  obtain ⟨bodies, hgroups⟩ := exists_outerGroups (balanced_of_mem_splitSegments hsplit text htext)
  obtain ⟨row, -, -, hread⟩ := exists_row_of_outerGroups hgroups
  have hnames := readNames_ne_unbalanced pattern other seen bodies
  rw [hread]
  cases hcases : readNames pattern seen bodies with
  | ok names => exact nofun
  | error fault =>
    rw [hcases] at hnames
    rintro ⟨⟩
    exact hnames rfl

/-- A pattern is empty, or its braces do not balance, or its outermost groups decide. If these bring no
expressions, the written form of the pattern can be read. -/
theorem parse_verdict (pattern : String) :
    (parse pattern = .error .empty ↔ pattern = "") ∧
    (parse pattern = .error (.unbalanced pattern) ↔ ¬ Balanced 0 pattern.toList) ∧
    (Balanced 0 pattern.toList ↔ ∃ bodies, OuterGroups pattern.toList bodies) ∧
    (∀ bodies, pattern ≠ "" → OuterGroups pattern.toList bodies →
      Verdict pattern bodies (parse pattern) ∧
      (Named bodies → (∀ body ∈ bodies, ¬ IsCustom body) → ∃ compiled segments,
        parse pattern = .ok compiled ∧
        Pattern.read pattern = .ok (segments, groupNames bodies) ∧
        Regex.parse (written pattern segments) =
          if compiled.regex.size ≤ Regex.sizeLimit then .ok compiled.regex
          else .error .tooLarge)) ∧
    (∀ texts, splitSegments 0 (unroot pattern.toList) = some texts → ∀ text ∈ texts, ∀ seen,
      readTokens pattern seen text ≠ .error (.unbalanced pattern)) := by
  refine ⟨parse_eq_empty_iff pattern, parse_eq_unbalanced_iff pattern,
    exists_outerGroups_iff.symm, ?_, ?_⟩
  · intro bodies hne hgroups
    refine ⟨verdict_of_outerGroups hne hgroups, ?_⟩
    intro hnamed hplain
    exact parse_written hne hgroups hnamed hplain
  · intro texts hsplit text htext seen
    exact readTokens_ne_unbalanced hsplit htext pattern pattern seen

-- the first misnamed group decides, unless the braces do not balance
example : parse "/\x7ba\x7d/\x7b1\x7d/\x7ba\x7d" =
    .error (.badName "/\x7ba\x7d/\x7b1\x7d/\x7ba\x7d" "1") := by cbv

example : parse "/\x7b1\x7d/\x7ba" = .error (.unbalanced "/\x7b1\x7d/\x7ba") := rfl

end PathPattern

end Switchyard
