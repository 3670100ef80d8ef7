import Switchyard.Regex.Parser
import Switchyard.Text.Cut
/-!
# Path pattern syntax

A path pattern is a list of segments between slashes. The segment `**` stands for a whole
subtree; any other is a row of tokens: characters that stand for themselves, `?` and `*` inside a
segment, and variables `{name}` or `{name:expression}`. Slashes inside braces do not cut.
-/

namespace Switchyard

/-- Why a path pattern is refused. -/
inductive PatternFault where
  | empty
  | unbalanced (pattern : String)
  | badName (pattern name : String)
  | repeatedName (pattern name : String)
  | badRegex (pattern : String) (fault : Regex.Fault)
  deriving DecidableEq, Repr

def PatternFault.kind : PatternFault → String
  | empty => "Empty"
  | unbalanced _ => "UnclosedVariable"
  | badName .. => "InvalidVariableName"
  | repeatedName .. => "DuplicateVariable"
  | badRegex .. => "InvalidRegex"

def PatternFault.message : PatternFault → String
  | empty => "path pattern must not be empty"
  | unbalanced p => "unbalanced '\x7b' or '\x7d' in path pattern '" ++ p ++ "'"
  | badName p n =>
    "invalid variable name '" ++ n ++ "' in path pattern '" ++ p ++
      "' (expected [A-Za-z_][A-Za-z0-9_]*)"
  | repeatedName p n => "variable '" ++ n ++ "' appears more than once in path pattern '" ++ p ++ "'"
  | badRegex p f => "path pattern '" ++ p ++ "' does not compile: " ++ f.message

namespace Pattern

/-- One token of a segment. -/
inductive Token where
  | literal (c : Char)
  | anyChar
  | anyText
  | variable (name : String) (custom : Option (List Char))
  deriving DecidableEq, Repr

/-- One segment between slashes. -/
inductive Segment where
  | subtree
  | tokens (row : List Token)
  deriving DecidableEq, Repr

/-- Cuts at slashes outside braces; `none` when the braces do not balance. `depth` braces are open. -/
def splitSegments : Nat → List Char → Option (List (List Char))
  | depth, [] => if depth = 0 then some [[]] else none
  | depth, c :: rest =>
    if c = '\x7b' then (splitSegments (depth + 1) rest).map (Text.consHead c)
    else if c = '\x7d' then
      if depth = 0 then none else (splitSegments (depth - 1) rest).map (Text.consHead c)
    else if c = '/' && depth = 0 then (splitSegments depth rest).map ([] :: ·)
    else (splitSegments depth rest).map (Text.consHead c)

/-- The text up to the brace that closes the open ones, and the text behind it. -/
def takeBody : Nat → List Char → Option (List Char × List Char)
  | _, [] => none
  | depth, c :: rest =>
    if c = '\x7b' then (takeBody (depth + 1) rest).map fun (b, r) => (c :: b, r)
    else if c = '\x7d' then
      if depth = 0 then some ([], rest) else (takeBody (depth - 1) rest).map fun (b, r) => (c :: b, r)
    else (takeBody depth rest).map fun (b, r) => (c :: b, r)

theorem eq_of_takeBody {depth : Nat} {s body after : List Char}
    (h : takeBody depth s = some (body, after)) : s = body ++ '\x7d' :: after := by
  induction s generalizing depth body with
  | nil => simp [takeBody] at h
  | cons c s ih =>
    have step {d : Nat} (h : (takeBody d s).map (Prod.map (c :: ·) id) = some (body, after)) :
        c :: s = body ++ '\x7d' :: after := by
      obtain ⟨⟨body', after'⟩, hs, heq⟩ := Option.map_eq_some_iff.mp h
      cases heq
      rw [ih hs]
      rfl
    unfold takeBody at h
    split at h
    · exact step h
    · next hopen =>
      split at h
      · next hclose =>
        split at h
        · cases h
          rw [hclose]
          rfl
        · exact step h
      · exact step h

private theorem takeBody_length {depth : Nat} {s b r : List Char}
    (h : takeBody depth s = some (b, r)) : r.length < s.length := by
  rw [eq_of_takeBody h, List.length_append, List.length_cons]
  omega

/-- Names of variables: an ASCII letter or low line, then letters, digits and low lines. -/
def isVariableName : List Char → Bool
  | [] => false
  | c :: rest => (c.isAlpha || c = '_') && rest.all fun d => d.isAlphanum || d = '_'

/-- The name of a variable and its expression, if it brings one. -/
def variableParts (body : List Char) : List Char × Option (List Char) :=
  match Text.cutFirst ':' body with
  | some (name, custom) => (Text.trim name, some custom)
  | none => (Text.trim body, none)

/-- Reads the tokens of a segment. `seen` holds the variables so far, of this segment and those
before it; the names it brings are added in order. -/
def readTokens (pattern : String) (seen : List String) (s : List Char) :
    Except PatternFault (List Token × List String) :=
  match s with
  | [] => .ok ([], seen)
  | c :: rest =>
    if c = '\x7b' then
      match _h : takeBody 0 rest with
      | none => .error (.unbalanced pattern)
      | some (body, after) =>
        let (name, custom) := variableParts body
        if !isVariableName name then .error (.badName pattern (String.ofList name))
        else if seen.contains (String.ofList name) then
          .error (.repeatedName pattern (String.ofList name))
        else
          (readTokens pattern (seen ++ [String.ofList name]) after).map fun (row, names) =>
            (.variable (String.ofList name) custom :: row, names)
    else if c = '\x7d' then .error (.unbalanced pattern)
    else
      let token : Token := if c = '*' then .anyText else if c = '?' then .anyChar else .literal c
      (readTokens pattern seen rest).map fun (row, names) => (token :: row, names)
termination_by s.length
decreasing_by
  · have := takeBody_length _h
    simp only [List.length_cons]
    omega
  · simp

def readSegments (pattern : String) : List String → List (List Char) →
    Except PatternFault (List Segment × List String)
  | seen, [] => .ok ([], seen)
  | seen, s :: rest =>
    if s = ['*', '*'] then
      (readSegments pattern seen rest).map fun (segments, names) => (.subtree :: segments, names)
    else do
      let (row, seen) ← readTokens pattern seen s
      let (segments, names) ← readSegments pattern seen rest
      return (.tokens row :: segments, names)

def unroot : List Char → List Char
  | '/' :: rest => rest
  | s => s

/-- Reads a pattern: its segments, none for the root, and its variables in order. -/
def read (pattern : String) : Except PatternFault (List Segment × List String) :=
  if pattern.isEmpty then .error .empty
  else
    match unroot pattern.toList with
    | [] => .ok ([], [])
    | rooted =>
      match splitSegments 0 rooted with
      | none => .error (.unbalanced pattern)
      | some segments => readSegments pattern [] segments

end Pattern

end Switchyard
