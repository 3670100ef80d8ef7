import Switchyard.Pattern.Basic
import Switchyard.Proofs.Attempt
import Switchyard.Proofs.Pattern.Braces
/-!
# The reading of patterns

What a pattern that is read says about its text: the text is cut at slashes into the texts of
segments (`intercalate_of_splitSegments`), and each of these spells the tokens of its segment
(`readSegments_readFrom`).
-/

namespace Switchyard

namespace Pattern

/-- True for a character that means itself in a pattern. -/
def isPlainChar (c : Char) : Bool := c != '\x7b' && c != '\x7d' && c != '*' && c != '?'

theorem isPlainChar_iff {c : Char} :
    isPlainChar c ↔ c ≠ '\x7b' ∧ c ≠ '\x7d' ∧ c ≠ '*' ∧ c ≠ '?' := by
  simp [isPlainChar, and_assoc]

/-- True for a character that may stand in the name of a variable. -/
def isNameChar (c : Char) : Bool := c.isAlphanum || c = '_'

theorem isBlank_of_isNameChar {c : Char} (hc : isNameChar c) : Text.isBlank c = false := by
  apply Text.isBlank_of_isTokenChar
  rw [isNameChar, Bool.or_eq_true, decide_eq_true_eq] at hc
  rw [Text.isTokenChar, Bool.or_eq_true]
  rcases hc with h | rfl
  · exact .inl h
  · exact .inr (by decide)

theorem isPlain_of_isNameChar {c : Char} (hc : isNameChar c) :
    c ≠ '\x7b' ∧ c ≠ '\x7d' ∧ c ≠ '/' ∧ c ≠ ':' := by
  refine ⟨?_, ?_, ?_, ?_⟩ <;>
  · intro h
    subst h
    exact absurd hc (by decide)

theorem isNameChar_of_isVariableName {name : List Char} (hname : isVariableName name) :
    ∀ c ∈ name, isNameChar c := by
  cases name with
  | nil => cases hname
  | cons c rest =>
    simp only [isVariableName, Bool.and_eq_true, Bool.or_eq_true, List.all_eq_true] at hname
    rw [List.forall_mem_cons]
    refine ⟨?_, ?_⟩
    · simp only [isNameChar, Char.isAlphanum, Bool.or_eq_true]
      cases hname.1 with
      | inl h => exact .inl (.inl h)
      | inr h => exact .inr h
    · intro d hd
      simpa [isNameChar] using hname.2 d hd

private theorem not_special_of_name {s : List Char} (hname : isVariableName (Text.trim s)) :
    ∀ c ∈ s, c ≠ '\x7b' ∧ c ≠ '\x7d' ∧ c ≠ '/' := by
  intro c hc
  rcases Text.mem_trim_or_isBlank hc with h | h
  · obtain ⟨hopen, hclose, hslash, -⟩ :=
      isPlain_of_isNameChar (isNameChar_of_isVariableName hname c h)
    exact ⟨hopen, hclose, hslash⟩
  · refine ⟨?_, ?_, ?_⟩ <;>
    · rintro rfl
      exact absurd h (by decide)

theorem variableParts_of_bare {name : List Char} (hcolon : ':' ∉ name)
    (hblank : ∀ c ∈ name, Text.isBlank c = false) : variableParts name = (name, none) := by
  have hcut : Text.cutFirst ':' name = none := by
    rw [← Option.not_isSome_iff_eq_none, Text.isSome_cutFirst]
    exact hcolon
  rw [variableParts, hcut, Text.trim_eq_self hblank]

theorem variableParts_some {body name custom : List Char}
    (hparts : variableParts body = (name, some custom)) (hname : isVariableName name) :
    ∃ front, body = front ++ ':' :: custom ∧ '\x7d' ∉ front := by
  unfold variableParts at hparts
  split at hparts
  · next front custom' hcut =>
    cases hparts
    refine ⟨front, Text.eq_of_cutFirst hcut, ?_⟩
    intro h
    exact (not_special_of_name hname _ h).2.1 rfl
  · cases hparts

theorem variableParts_none {body name : List Char}
    (hparts : variableParts body = (name, none)) (hname : isVariableName name) :
    ∀ c ∈ body, c ≠ '\x7b' ∧ c ≠ '\x7d' ∧ c ≠ '/' := by
  unfold variableParts at hparts
  split at hparts
  · cases hparts
  · cases hparts
    exact not_special_of_name hname

private theorem splitSegments_cons {depth : Nat} {c : Char} {s : List Char}
    {texts : List (List Char)} (h : splitSegments depth (c :: s) = some texts) :
    (depth = 0 ∧ c = '/' ∧ ∃ rest, splitSegments 0 s = some rest ∧ texts = [] :: rest) ∨
      ∃ depth' text rest, splitSegments depth' s = some (text :: rest) ∧
        texts = (c :: text) :: rest ∧
        ∀ t, splitSegments depth' t = some [t] → splitSegments depth (c :: t) = some [c :: t] := by
  have step {depth' : Nat} (h : (splitSegments depth' s).map (Text.consHead c) = some texts)
      (heq : ∀ t, splitSegments depth (c :: t) = (splitSegments depth' t).map (Text.consHead c)) :
      ∃ depth' text rest, splitSegments depth' s = some (text :: rest) ∧
        texts = (c :: text) :: rest ∧
        ∀ t, splitSegments depth' t = some [t] → splitSegments depth (c :: t) = some [c :: t] := by
    obtain ⟨pieces, hs, rfl⟩ := Option.map_eq_some_iff.mp h
    cases pieces with
    | nil => exact absurd rfl (splitSegments_ne_nil hs)
    | cons text rest =>
      refine ⟨depth', text, rest, hs, rfl, ?_⟩
      intro t ht
      rw [heq, ht]
      rfl
  unfold splitSegments at h
  split at h
  · next hopen => exact .inr (step h fun t => by simp [splitSegments, hopen])
  · next hopen =>
    split at h
    · next hclose =>
      split at h
      · cases h
      · next hdepth => exact .inr (step h fun t => by simp [splitSegments, hclose, hdepth])
    · next hclose =>
      split at h
      · next hslash =>
        simp only [Bool.and_eq_true, decide_eq_true_eq] at hslash
        obtain ⟨rest, hs, rfl⟩ := Option.map_eq_some_iff.mp h
        exact .inl ⟨hslash.2, hslash.1, rest, hslash.2 ▸ hs, rfl⟩
      · next hslash =>
        refine .inr (step h fun t => ?_)
        rw [splitSegments, if_neg hopen, if_neg hclose, if_neg hslash]

theorem splitSegments_plain {c : Char} (hc : isPlainChar c) (hslash : c ≠ '/') (s : List Char) :
    splitSegments 0 (c :: s) = (splitSegments 0 s).map (Text.consHead c) := by
  obtain ⟨hopen, hclose, -, -⟩ := isPlainChar_iff.mp hc
  rw [splitSegments, if_neg hopen, if_neg hclose, if_neg (by simp [hslash])]

theorem intercalate_of_splitSegments {depth : Nat} {s : List Char} {texts : List (List Char)}
    (h : splitSegments depth s = some texts) : ['/'].intercalate texts = s := by
  induction s generalizing depth texts with
  | nil =>
    rw [splitSegments] at h
    split at h
    · cases h
      rfl
    · cases h
  | cons c s ih =>
    rcases splitSegments_cons h with ⟨-, rfl, rest, hrest, rfl⟩ | ⟨depth', text, rest, hs, rfl, -⟩
    · cases rest with
      | nil => exact absurd rfl (splitSegments_ne_nil hrest)
      | cons text rest => rw [List.intercalate_cons_cons, ih hrest]; rfl
    · rw [← ih hs]
      have hne : text :: rest ≠ [] := List.cons_ne_nil _ _
      exact Text.intercalate_consHead hne

theorem splitSegments_piece {depth : Nat} {s text : List Char} {rest : List (List Char)}
    (h : splitSegments depth s = some (text :: rest)) :
    splitSegments depth text = some [text] ∧ ∀ t ∈ rest, splitSegments 0 t = some [t] := by
  induction s generalizing depth text rest with
  | nil =>
    rw [splitSegments] at h
    split at h
    · next hdepth =>
      cases h
      exact ⟨by simp [splitSegments, hdepth], by simp⟩
    · cases h
  | cons c s ih =>
    rcases splitSegments_cons h with
      ⟨rfl, rfl, pieces, hs, heq⟩ | ⟨depth', text', rest', hs, heq, hcons⟩
    · cases heq
      cases rest with
      | nil => exact absurd rfl (splitSegments_ne_nil hs)
      | cons text rest =>
        obtain ⟨htext, hrest⟩ := ih hs
        exact ⟨by simp [splitSegments], by simpa using ⟨htext, hrest⟩⟩
    · cases heq
      obtain ⟨htext, hrest⟩ := ih hs
      exact ⟨hcons _ htext, hrest⟩

def signToken (c : Char) : Token :=
  if c = '*' then .anyText else if c = '?' then .anyChar else .literal c

/-- A text that spells tokens. -/
inductive Spells : List Char → List Token → Prop
  | done : Spells [] []
  | sign {c : Char} {s : List Char} {row : List Token} (hopen : c ≠ '\x7b') (hclose : c ≠ '\x7d')
      (rest : Spells s row) : Spells (c :: s) (signToken c :: row)
  | «variable» {body name s : List Char} {custom : Option (List Char)} {row : List Token}
      (hparts : variableParts body = (name, custom)) (hname : isVariableName name)
      (rest : Spells s row) :
      Spells ('\x7b' :: (body ++ '\x7d' :: s)) (.variable (String.ofList name) custom :: row)

private theorem spells_of_readTokens {pattern : String} {seen names : List String} {s : List Char}
    {row : List Token} (h : readTokens pattern seen s = .ok (row, names)) : Spells s row := by
  fun_induction readTokens pattern seen s generalizing row names with
  | case1 seen =>
    cases h
    exact .done
  | case2 | case3 | case4 | case6 => cases h
  | case5 seen rest body after hbody name custom hparts hname _ ih =>
    obtain ⟨answer, hafter, h⟩ := except_map_ok h
    cases h
    rw [eq_of_takeBody hbody]
    exact .variable hparts (by simpa using hname) (ih hafter)
  | case7 seen c rest hopen hclose token =>
    rename_i ih
    obtain ⟨answer, hrest, h⟩ := except_map_ok h
    cases h
    exact .sign hopen hclose (ih hrest)

theorem Spells.eq_nil_iff {s : List Char} {row : List Token} (h : Spells s row) :
    row = [] ↔ s = [] := by
  cases h <;> simp

/-- A segment that is read from a text: the subtree, or the tokens that the text spells. -/
def ReadFrom (text : List Char) : Segment → Prop
  | .subtree => text = ['*', '*']
  | .tokens row => text ≠ ['*', '*'] ∧ Spells text row

theorem readSegments_readFrom {pattern : String} {seen names : List String}
    {texts : List (List Char)} {segments : List Segment}
    (h : readSegments pattern seen texts = .ok (segments, names)) :
    List.Forall₂ ReadFrom texts segments := by
  induction texts generalizing seen segments names with
  | nil =>
    cases h
    exact .nil
  | cons text texts ih =>
    rw [readSegments] at h
    split at h
    · next hsubtree =>
      obtain ⟨answer, hrest, h⟩ := except_map_ok h
      cases h
      exact .cons hsubtree (ih hrest)
    · next hsubtree =>
      obtain ⟨⟨row, seen'⟩, hrow, h⟩ := except_bind_ok h
      obtain ⟨answer', hrest, h⟩ := except_bind_ok h
      cases h
      exact .cons ⟨hsubtree, spells_of_readTokens hrow⟩ (ih hrest)

theorem readSegments_ne_nil {pattern : String} {seen names : List String}
    {texts : List (List Char)} {segments : List Segment} (hne : texts ≠ [])
    (h : readSegments pattern seen texts = .ok (segments, names)) : segments ≠ [] := by
  rintro rfl
  cases readSegments_readFrom h
  exact hne rfl

theorem read_root {pattern : String} {segments : List Segment} {names : List String}
    (h : Pattern.read pattern = .ok (segments, names)) (hrooted : unroot pattern.toList = []) :
    segments = [] ∧ names = [] := by
  unfold Pattern.read at h
  rw [hrooted] at h
  split at h <;> cases h
  exact ⟨rfl, rfl⟩

theorem read_ok {pattern : String} {segments : List Segment} {names : List String}
    (h : Pattern.read pattern = .ok (segments, names)) (hrooted : unroot pattern.toList ≠ []) :
    ∃ texts, splitSegments 0 (unroot pattern.toList) = some texts ∧
      readSegments pattern [] texts = .ok (segments, names) := by
  unfold Pattern.read at h
  split at h
  · cases h
  · split at h
    · next hempty => exact absurd hempty hrooted
    · split at h
      · cases h
      · next texts hsplit => exact ⟨texts, hsplit, h⟩

theorem parse_ok {pattern : String} {compiled : PathPattern}
    (h : PathPattern.parse pattern = .ok compiled) :
    ∃ segments names, Pattern.read pattern = .ok (segments, names) := by
  cases hread : Pattern.read pattern with
  | error e =>
    simp only [PathPattern.parse, hread] at h
    cases h
  | ok answer => exact ⟨answer.1, answer.2, rfl⟩

end Pattern

end Switchyard
