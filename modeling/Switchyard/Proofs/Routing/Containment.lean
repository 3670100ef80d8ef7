import Mathlib.Algebra.GroupWithZero.Nat
import Switchyard.Proofs.Attempt
import Switchyard.Proofs.Pattern.Spread
import Switchyard.Proofs.Routing.Choice
/-!
# Choices between contained patterns

Specificity counts variables and wildcards, wherever they stand. A pattern that is contained in another
one therefore weighs no more than that, but for its surplus: what it has beyond one variable, `?` or
`*` in a segment and beyond one `**` (`PathPattern.specificityCmp_of_containment`). Against a more
general pattern it loses at most by this surplus, or with a shorter text.
-/

namespace Switchyard

namespace Pattern

variable {pattern : String} {compiled : PathPattern} {text : List Char} {texts : List (List Char)}
  {row : List Token} {segments : List Segment}

/-- The number of variables, `?` and `*` in a text. -/
def choices (text : List Char) : Nat := text.countP fun c => c = '\x7b' || c = '*' || c = '?'

/-- The weight of a text beyond one variable, `?` or `*`. -/
def surplusOf (texts : List (List Char)) : Nat :=
  ((texts.filter (· ≠ ['*', '*'])).map fun text => choices text - 1).sum +
    2 * (texts.count ['*', '*'] - 1)

/-- The weight of a pattern beyond one variable, `?` or `*` in each segment and one `**`. -/
def surplus (pattern : String) : Nat := surplusOf (cuts pattern)

private theorem choices_cons (c : Char) (text : List Char) : choices (c :: text) =
    choices text + if c = '\x7b' ∨ c = '*' ∨ c = '?' then 1 else 0 := by
  simp [choices, List.countP_cons, or_assoc]

private theorem choices_append (a b : List Char) : choices (a ++ b) = choices a + choices b :=
  List.countP_append

private theorem choices_body {body name : List Char} (hparts : variableParts body = (name, none))
    (hname : isVariableName name) : choices body = 0 := by
  rw [choices, List.countP_eq_zero]
  intro c hc hchoice
  have htrim : Text.trim body = name := by
    unfold variableParts at hparts
    split at hparts
    · cases hparts
    · cases hparts
      rfl
  simp only [Bool.or_eq_true, decide_eq_true_eq] at hchoice
  rcases Text.mem_trim_or_isBlank hc with h | h
  · have hchar := isNameChar_of_isVariableName hname c (htrim ▸ h)
    rcases hchoice with (rfl | rfl) | rfl <;> exact absurd hchar (by decide)
  · rcases hchoice with (rfl | rfl) | rfl <;> exact absurd h (by decide)

private theorem Spells.choices_eq (h : Spells text row) (hplain : ¬ row.any Token.isCustom) :
    choices text = row.countP Token.isOpen := by
  induction h with
  | done => rfl
  | @sign c s row hopen hclose _ ih =>
    rw [choices_cons, ih fun h => hplain (by simp [h]), List.countP_cons]
    congr 1
    by_cases hstar : c = '*'
    · simp [signToken, hstar, Token.isOpen]
    · by_cases hmark : c = '?'
      · simp [signToken, hmark, Token.isOpen]
      · simp [signToken, hstar, hmark, hopen, Token.isOpen]
  | @«variable» body name s custom row hparts hname _ ih =>
    cases custom with
    | some custom => exact absurd rfl hplain
    | none =>
      rw [choices_cons, choices_append, choices_body hparts hname, choices_cons,
        ih fun h => hplain (by simp [h]), List.countP_cons]
      simp [Token.isOpen]

def Segment.weight : Segment → Nat
  | .subtree => 2
  | .tokens row => row.countP Token.isOpen

private theorem length_names_add (row : List Token) :
    (row.flatMap Token.names).length + row.countP (fun t => t = .anyChar || t = .anyText) =
      row.countP Token.isOpen := by
  induction row with
  | nil => rfl
  | cons t row ih =>
    rw [List.flatMap_cons, List.length_append, List.countP_cons, List.countP_cons, ← ih]
    cases t <;> simp [Token.names, Token.isOpen] <;> omega

private theorem sum_weight (segments : List Segment) :
    (segments.flatMap Segment.names).length + countSingle segments + 2 * countSubtrees segments =
      (segments.map Segment.weight).sum := by
  induction segments with
  | nil => rfl
  | cons segment segments ih =>
    rw [List.map_cons, List.sum_cons, ← ih]
    cases segment with
    | subtree =>
      simp [countSingle, countSubtrees, Segment.names, Segment.weight]
      omega
    | tokens row =>
      have hrow := length_names_add row
      simp [countSingle, countSubtrees, Segment.names, Segment.weight] at hrow ⊢
      omega

private theorem Layout.weight_eq (h : Layout pattern compiled segments) :
    compiled.weight = (segments.map Segment.weight).sum := by
  rw [PathPattern.weight, h.names, h.singleWildcards, h.doubleWildcards, sum_weight]

/-- The weight that does not depend on how many choices there are in a segment. -/
def spread (segments : List Segment) : Nat :=
  segments.countP Segment.isOpen + if .subtree ∈ segments then 2 else 0

private theorem PlainFrom.weight_eq (h : PlainFrom text (.tokens row)) :
    (Segment.tokens row).weight = (Segment.tokens row).isOpen.toNat + (choices text - 1) := by
  rw [h.spells.choices_eq h.not_isCustom, Segment.weight, Segment.isOpen]
  by_cases hopen : row.any Token.isOpen
  · have hpos : 0 < row.countP Token.isOpen := by simpa [List.countP_pos_iff] using hopen
    rw [hopen, Bool.toNat_true]
    omega
  · have hnone : row.countP Token.isOpen = 0 := by simpa [List.countP_eq_zero] using hopen
    rw [Bool.not_eq_true] at hopen
    rw [hnone, hopen, Bool.toNat_false]

private theorem sum_weight_eq (h : List.Forall₂ PlainFrom texts segments) :
    (segments.map Segment.weight).sum = segments.countP Segment.isOpen +
      ((texts.filter (· ≠ ['*', '*'])).map fun text => choices text - 1).sum +
        2 * texts.count ['*', '*'] := by
  induction h with
  | nil => rfl
  | @cons text segment texts segments hsegment _ ih =>
    rw [List.map_cons, List.sum_cons, ih, List.countP_cons]
    cases segment with
    | subtree =>
      rw [hsegment.eq_subtree, List.count_cons_self]
      simp [Segment.weight, Segment.isOpen]
      omega
    | tokens row =>
      have hne : decide (text ≠ ['*', '*']) = true := by simpa using hsegment.ne_subtree
      rw [hsegment.weight_eq, List.count_cons_of_ne hsegment.ne_subtree,
        List.filter_cons, if_pos hne, List.map_cons, List.sum_cons]
      cases (Segment.tokens row).isOpen <;> simp <;> omega

private theorem countSubtrees_eq (h : List.Forall₂ PlainFrom texts segments) :
    countSubtrees segments = texts.count ['*', '*'] := by
  rw [countSubtrees]
  induction h with
  | nil => rfl
  | @cons text segment texts segments hsegment _ ih =>
    rw [List.countP_cons, List.count_cons, ih]
    cases segment with
    | subtree => simp [hsegment.eq_subtree]
    | tokens row => simp [hsegment.ne_subtree]

private theorem subtree_mem_iff (h : List.Forall₂ PlainFrom texts segments) :
    .subtree ∈ segments ↔ ['*', '*'] ∈ texts := by
  have htexts : ['*', '*'] ∈ texts ↔ 0 < countSubtrees segments := by
    rw [countSubtrees_eq h, List.count_pos_iff]
  rw [htexts, countSubtrees, List.countP_pos_iff]
  simp

private theorem spread_add_surplusOf (h : List.Forall₂ PlainFrom texts segments) :
    (segments.map Segment.weight).sum = spread segments + surplusOf texts := by
  rw [sum_weight_eq h, spread, surplusOf]
  by_cases hsubtree : .subtree ∈ segments
  · have hpos := List.count_pos_iff.mpr ((subtree_mem_iff h).mp hsubtree)
    rw [if_pos hsubtree]
    omega
  · have hzero := List.count_eq_zero.mpr fun hmem => hsubtree ((subtree_mem_iff h).mpr hmem)
    rw [if_neg hsubtree, hzero]
    omega

section

variable {a b : String} {A B : PathPattern} {segmentsA segmentsB : List Segment}

private theorem weight_le (hA : Layout a A segmentsA) (hB : Layout b B segmentsB)
    (hwithin : ∀ path, A.isMatch path → B.isMatch path) : A.weight ≤ B.weight + surplus a := by
  have hopen := countP_isOpen_le hA hB hwithin
  have hspread : spread segmentsA ≤ spread segmentsB := by
    rw [spread, spread]
    by_cases hsubtree : .subtree ∈ segmentsA
    · rw [if_pos hsubtree, if_pos (subtree_mem hA hB hwithin hsubtree)]
      omega
    · rw [if_neg hsubtree]
      omega
  rw [hA.weight_eq, hB.weight_eq, spread_add_surplusOf hA.reads, spread_add_surplusOf hB.reads,
    surplus]
  omega

private theorem doubleWildcards_le (hA : Layout a A segmentsA) (hB : Layout b B segmentsB)
    (hwithin : ∀ path, A.isMatch path → B.isMatch path) (hsurplus : surplus a = 0) :
    A.doubleWildcards ≤ B.doubleWildcards := by
  rw [hA.doubleWildcards, hB.doubleWildcards, countSubtrees_eq hA.reads, countSubtrees_eq hB.reads]
  rw [surplus, surplusOf] at hsurplus
  by_cases hsubtree : .subtree ∈ segmentsA
  · have hmem := subtree_mem hA hB hwithin hsubtree
    have hpos := List.count_pos_iff.mpr ((subtree_mem_iff hB.reads).mp hmem)
    omega
  · have hzero := List.count_eq_zero.mpr fun hmem => hsubtree ((subtree_mem_iff hA.reads).mpr hmem)
    omega

private theorem Takes.subtree_append {front rest : List Char} (hfront : Takes ['*', '*'] front)
    (hrest : Takes ['*', '*'] rest) : Takes ['*', '*'] (front ++ rest) := by
  rcases hfront.subtree with rfl | ⟨front, rfl, hline⟩
  · exact hrest
  · rw [Takes, if_pos rfl]
    refine .inr ⟨front ++ rest, rfl, ?_⟩
    rcases hrest.subtree with rfl | ⟨rest, rfl, hline'⟩ <;> simp_all

private theorem takes_flatten {parts : List (List Char)} (h : List.Forall₂ Takes texts parts)
    (hall : ∀ text ∈ texts, text = ['*', '*']) : Takes ['*', '*'] parts.flatten := by
  induction h with
  | nil => exact .inl rfl
  | cons hpart _ ih =>
    rw [List.forall_mem_cons] at hall
    exact (hall.1 ▸ hpart).subtree_append (ih hall.2)

private theorem eq_subtree_of_takes_nil {parts : List (List Char)}
    (h : List.Forall₂ Takes texts parts)
    (hnil : parts.flatten = []) : ∀ text ∈ texts, text = ['*', '*'] := by
  induction h with
  | nil => simp
  | @cons text part texts parts hpart _ ih =>
    rw [List.flatten_cons, List.append_eq_nil_iff] at hnil
    rw [List.forall_mem_cons]
    refine ⟨?_, ih hnil.2⟩
    apply Decidable.byContradiction
    intro hne
    rw [Takes, if_neg hne, hnil.1] at hpart
    obtain ⟨rest, hrest, -⟩ := hpart
    cases hrest

private theorem Layout.cuts_of_isCatchAll (h : Layout a A segmentsA) (hall : A.isCatchAll) :
    cuts a = [['*', '*']] := by
  rw [PathPattern.isCatchAll, h.raw, Bool.or_eq_true, beq_iff_eq, beq_iff_eq] at hall
  rcases hall with rfl | rfl <;> decide

private theorem isMatch_of_isCatchAll (hA : Layout a A segmentsA) (hB : Layout b B segmentsB)
    (hwithin : ∀ path, A.isMatch path → B.isMatch path) (hall : A.isCatchAll) {path : String}
    (hmatch : B.isMatch path) : A.isMatch path := by
  have hcuts := hA.cuts_of_isCatchAll hall
  have hempty : B.isMatch "" := by
    apply hwithin
    rw [hA.isMatch, IsPath, hcuts]
    exact ⟨[[]], [], rfl, .cons (.inl rfl) .nil, .inl rfl⟩
  rw [hB.isMatch] at hempty hmatch
  obtain ⟨parts, last, hnil, hparts, -⟩ := hempty
  have hstars := eq_subtree_of_takes_nil hparts (List.append_eq_nil_iff.mp hnil.symm).1
  obtain ⟨parts, last, hpath, hparts, hlast⟩ := hmatch
  have hone : Takes ['*', '*'] last := by
    rw [Takes, if_pos rfl]
    exact hlast.imp_right fun h => ⟨[], h.1, List.not_mem_nil⟩
  rw [hA.isMatch, IsPath, hcuts, hpath]
  exact ⟨[_], [], by simp, .cons ((takes_flatten hparts hstars).subtree_append hone) .nil, .inl rfl⟩

end

end Pattern

open Pattern

namespace PathPattern

variable {a b : String} {A B : PathPattern}

/-- More weight, or the same with a text that is not longer. -/
def Outweighs (a b : PathPattern) : Prop :=
  b.weight < a.weight ∨ a.weight = b.weight ∧ a.raw.utf8ByteSize ≤ b.raw.utf8ByteSize

private theorem isLiteral_iff (p : PathPattern) : p.isLiteral ↔ p.weight = 0 := by
  simp only [isLiteral, weight, Bool.and_eq_true, List.isEmpty_iff, beq_iff_eq,
    ← List.length_eq_zero_iff]
  omega

private theorem of_compare_not_eq_gt {x y : Bool} (h : compare (!x) (!y) = .gt) : ¬ x ∧ y := by
  revert x y
  decide

private theorem outweighs_of_specificityCmp (hA : ¬ A.isCatchAll) (hB : B.isCatchAll → B.weight ≠ 0)
    (h : A.specificityCmp B ≠ .lt) : ¬ B.isCatchAll ∧ Outweighs A B := by
  rw [Bool.not_eq_true] at hA
  simp only [specificityCmp_eq, hA, ne_eq, Ordering.then_eq_lt, not_or, not_and, Nat.compare_eq_lt,
    Nat.compare_eq_eq] at h
  cases hliteral : compare (!A.isLiteral) (!B.isLiteral) with
  | lt => exact absurd hliteral h.1
  | gt =>
    have hboth := of_compare_not_eq_gt hliteral
    rw [isLiteral_iff, isLiteral_iff] at hboth
    exact ⟨fun hall => hB hall hboth.2, .inl (by omega)⟩
  | eq =>
    have hrest := h.2 hliteral
    have hall : ¬ B.isCatchAll := by
      intro hall
      rw [hall] at hrest
      exact hrest.1 rfl
    rw [Bool.not_eq_true] at hall
    have hkeys := (hrest.2 (by rw [hall]; rfl)).1
    refine ⟨by simp [hall], ?_⟩
    unfold Outweighs
    omega

private theorem weight_eq_of_specificityCmp (hA : ¬ A.isCatchAll) (hweight : A.weight ≤ B.weight)
    (hdouble : A.doubleWildcards ≤ B.doubleWildcards) (h : A.specificityCmp B = .gt) :
    A.weight = B.weight ∧ A.raw.utf8ByteSize < B.raw.utf8ByteSize := by
  rw [Bool.not_eq_true] at hA
  simp only [specificityCmp_eq, hA, Ordering.then_eq_gt, Ordering.then_eq_eq, Nat.compare_eq_gt,
    Nat.compare_eq_eq] at h
  rcases h with hliteral | ⟨-, hall | ⟨-, hkeys⟩⟩
  · have hboth := of_compare_not_eq_gt hliteral
    rw [isLiteral_iff, isLiteral_iff] at hboth
    omega
  · cases hB : B.isCatchAll <;> rw [hB] at hall <;> cases hall
  · omega

/-- All paths of a pattern are paths of the other, which has more. -/
def StrictlyWithin (A B : PathPattern) : Prop :=
  (∀ path, A.isMatch path → B.isMatch path) ∧ ∃ path, B.isMatch path ∧ ¬ A.isMatch path

/-- Patterns of one segment each: the one is contained in the other if its text stands for no more. -/
private theorem strictlyWithin_of_stands {text text' : List Char} {sample : String}
    (hparse : PathPattern.parse a = .ok A) (hparse' : PathPattern.parse b = .ok B)
    (hplain : ¬ BringsExpression a.toList) (hplain' : ¬ BringsExpression b.toList)
    (hcuts : cuts a = [text]) (hcuts' : cuts b = [text'])
    (htext : text ≠ ['*', '*'] ∧ text' ≠ ['*', '*'])
    (hend : ¬ ['*', '*'] <:+ b.toList ∧ ¬ ['/'] <:+ b.toList)
    (hstands : ∀ rest, Stands text rest → Stands text' rest)
    (hsample : B.isMatch sample && !A.isMatch sample) : StrictlyWithin A B := by
  obtain ⟨segmentsA, hA⟩ := exists_layout hparse hplain
  obtain ⟨segmentsB, hB⟩ := exists_layout hparse' hplain'
  refine ⟨?_, sample, ?_⟩
  · intro path hpath
    rw [hA.isMatch, IsPath, hcuts] at hpath
    rw [hB.isMatch, IsPath, hcuts']
    obtain ⟨parts, last, hpath, hparts, hlast⟩ := hpath
    cases hparts with
    | cons hpart hnil =>
      cases hnil
      rw [Takes, if_neg htext.1] at hpart
      obtain ⟨rest, rfl, hrest⟩ := hpart
      refine ⟨['/' :: rest], last, hpath, .cons ?_ .nil, hlast.imp_right fun h => ⟨h.1, hend⟩⟩
      rw [Takes, if_neg htext.2]
      exact ⟨rest, rfl, hstands rest hrest⟩
  · simpa using hsample

/-- A pattern without expressions that is contained in a more general one weighs no more than that
but for its surplus, and is not less specific unless it outweighs it. So the more general one is
routed to only if it is outweighed, and never if it is the pattern of all paths. -/
theorem specificityCmp_of_containment (hparse : PathPattern.parse a = .ok A)
    (hparse' : PathPattern.parse b = .ok B) (hplain : ¬ BringsExpression a.toList)
    (hplain' : ¬ BringsExpression b.toList) (hwithin : StrictlyWithin A B) :
    A.weight ≤ B.weight + surplus a ∧
    (A.specificityCmp B ≠ .lt → ¬ B.isCatchAll ∧ Outweighs A B) ∧
    (surplus a = 0 → A.specificityCmp B = .gt →
      A.weight = B.weight ∧ a.utf8ByteSize < b.utf8ByteSize) ∧
    ∀ {α : Type} (r : Router α) (m : Method) (path : String) (found : RouteMatch α)
      (other : Route α), r.route? m path = some found → found.route.pattern = B →
        other ∈ r.eligible m path → other.pattern = A → ¬ B.isCatchAll ∧ Outweighs A B := by
  obtain ⟨segmentsA, hA⟩ := exists_layout hparse hplain
  obtain ⟨segmentsB, hB⟩ := exists_layout hparse' hplain'
  obtain ⟨hwithin, path, hmatch, hmiss⟩ := hwithin
  have hnarrow : ¬ A.isCatchAll := by
    intro hall
    exact hmiss (isMatch_of_isCatchAll hA hB hwithin hall hmatch)
  have hwide : B.isCatchAll → B.weight ≠ 0 := by
    intro hall
    rw [weight, hB.doubleWildcards, countSubtrees_eq hB.reads, hB.cuts_of_isCatchAll hall]
    simp
  have hweight := weight_le hA hB hwithin
  have houtweighs := outweighs_of_specificityCmp hnarrow hwide
  refine ⟨hweight, houtweighs, ?_, ?_⟩
  · intro hsurplus hgt
    rw [hsurplus, Nat.add_zero] at hweight
    have hkeys := weight_eq_of_specificityCmp hnarrow hweight
      (doubleWildcards_le hA hB hwithin hsurplus) hgt
    rwa [hA.raw, hB.raw] at hkeys
  · rintro α r m path found other hroute hfound hother rfl
    obtain ⟨best, found', hroute', hbest, hfirst⟩ :=
      Router.route?_of_eligible (List.ne_nil_of_mem hother)
    rw [hroute, Option.some.injEq] at hroute'
    subst hroute'
    have hnot := hfirst.not_precedes hother
    rw [Router.Precedes, ← Router.route_of_captured hbest, hfound] at hnot
    exact houtweighs hnot

theorem specificityCmp_of_containment_me : ∃ A B, PathPattern.parse "/me" = .ok A ∧
    PathPattern.parse "/{id}" = .ok B ∧ ¬ BringsExpression "/me".toList ∧
    ¬ BringsExpression "/{id}".toList ∧ StrictlyWithin A B ∧ A.weight ≤ B.weight + surplus "/me" := by
  have hboth : (PathPattern.parse "/me").toOption.any (fun A =>
      (PathPattern.parse "/{id}").toOption.any fun B => B.isMatch "/us" && !A.isMatch "/us") := by
    decide +kernel
  obtain ⟨A, hparse, hboth⟩ := exists_ok_of_any hboth
  obtain ⟨B, hparse', hsample⟩ := exists_ok_of_any hboth
  have hplain : ¬ BringsExpression "/me".toList := not_bringsExpression (by decide)
  have hplain' : ¬ BringsExpression "/{id}".toList := not_bringsExpression (by decide)
  have hstands (rest : List Char) (h : Stands ['m', 'e'] rest) : Stands "{id}".toList rest := by
    cases h with
    | ordinary _ h =>
      cases h with
      | ordinary _ h =>
        cases h
        exact @Stands.variable ['i', 'd'] [] ['m', 'e'] [] (by decide) (by decide) (by decide) .done
  have hwithin := strictlyWithin_of_stands hparse hparse' hplain hplain' (by decide) (by decide)
    (by decide) (by decide) hstands hsample
  exact ⟨A, B, hparse, hparse', hplain, hplain', hwithin,
    (specificityCmp_of_containment hparse hparse' hplain hplain' hwithin).1⟩

/-- A more general pattern precedes one with two variables in a segment, and one with a shorter
text. -/
theorem more_general_precedes :
    (∃ A B, PathPattern.parse "/{a}{b}" = .ok A ∧ PathPattern.parse "/{x}" = .ok B ∧
      ¬ BringsExpression "/{a}{b}".toList ∧ ¬ BringsExpression "/{x}".toList ∧
      StrictlyWithin A B ∧ A.specificityCmp B = .gt) ∧
    ∃ A B, PathPattern.parse "/?" = .ok A ∧ PathPattern.parse "/{id}" = .ok B ∧
      ¬ BringsExpression "/?".toList ∧ ¬ BringsExpression "/{id}".toList ∧
      StrictlyWithin A B ∧ A.specificityCmp B = .gt := by
  constructor
  · have hboth : (PathPattern.parse "/{a}{b}").toOption.any (fun A =>
        (PathPattern.parse "/{x}").toOption.any fun B =>
          (B.isMatch "/u" && !A.isMatch "/u") && A.specificityCmp B == .gt) := by
      decide +kernel
    obtain ⟨A, hparse, hboth⟩ := exists_ok_of_any hboth
    obtain ⟨B, hparse', hboth⟩ := exists_ok_of_any hboth
    obtain ⟨hsample, hgt⟩ := Bool.and_eq_true_iff.mp hboth
    have hplain : ¬ BringsExpression "/{a}{b}".toList := not_bringsExpression (by decide)
    have hplain' : ¬ BringsExpression "/{x}".toList := not_bringsExpression (by decide)
    have hstands (rest : List Char) (h : Stands "{a}{b}".toList rest) :
        Stands "{x}".toList rest := by
      obtain ⟨t, rest, rfl, ⟨hne, hslash⟩, h⟩ := (@stands_variable_iff ['a'] _ _ (by decide)).mp h
      obtain ⟨t', rest, rfl, ⟨-, hslash'⟩, h⟩ := (@stands_variable_iff ['b'] [] _ (by decide)).mp h
      cases h
      rw [← List.append_assoc]
      exact @Stands.variable ['x'] [] (t ++ t') [] (by decide) (by simp [hne])
        (by simp [hslash, hslash']) .done
    exact ⟨A, B, hparse, hparse', hplain, hplain',
      strictlyWithin_of_stands hparse hparse' hplain hplain' (by decide) (by decide) (by decide)
        (by decide) hstands hsample, beq_iff_eq.mp hgt⟩
  · have hboth : (PathPattern.parse "/?").toOption.any (fun A =>
        (PathPattern.parse "/{id}").toOption.any fun B =>
          (B.isMatch "/us" && !A.isMatch "/us") && A.specificityCmp B == .gt) := by
      decide +kernel
    obtain ⟨A, hparse, hboth⟩ := exists_ok_of_any hboth
    obtain ⟨B, hparse', hboth⟩ := exists_ok_of_any hboth
    obtain ⟨hsample, hgt⟩ := Bool.and_eq_true_iff.mp hboth
    have hplain : ¬ BringsExpression "/?".toList := not_bringsExpression (by decide)
    have hplain' : ¬ BringsExpression "/{id}".toList := not_bringsExpression (by decide)
    have hstands (rest : List Char) (h : Stands ['?'] rest) : Stands "{id}".toList rest := by
      cases h with
      | ordinary hc => cases hc
      | @anyChar c _ _ hc h =>
        cases h
        exact @Stands.variable ['i', 'd'] [] [c] [] (by decide) (by simp) (by simpa using hc.symm)
          .done
    exact ⟨A, B, hparse, hparse', hplain, hplain',
      strictlyWithin_of_stands hparse hparse' hplain hplain' (by decide) (by decide) (by decide)
        (by decide) hstands hsample, beq_iff_eq.mp hgt⟩

end PathPattern

end Switchyard
