import Switchyard.Pattern.Syntax
/-!
# Path patterns

A path pattern compiled to a regular expression that has to match the whole path, and the order
that tells which of two patterns is the more specific. A pattern that does not end in a slash or
in `**` also matches its paths with one slash more.
-/

namespace Switchyard

namespace Pattern

/-- The parts from which the regular expression of a pattern is put together. -/
inductive Piece where
  | start
  | stop
  | slash
  | optionalSlash
  | optionalTail
  | token (t : Token)
  deriving DecidableEq, Repr

def nonSlash : CharSet := ⟨[(0, 0x2E), (0x30, CharSet.maxCode)]⟩

def nonLineFeed : CharSet := ⟨[(0, 9), (11, CharSet.maxCode)]⟩

/-- The expression of a piece whose variable brings none of its own. -/
def Piece.node : Piece → Regex
  | start => .assert .textStart
  | stop => .assert .textEnd
  | slash => .char '/'
  | optionalSlash => .optional true (.char '/')
  | optionalTail => .optional true (.seq (.char '/') (.star true (.set nonLineFeed)))
  | token (.literal c) => .char c
  | token .anyChar => .set nonSlash
  | token .anyText => .star true (.set nonSlash)
  | token (.variable name _) => .group name (.plus true (.set nonSlash))

/-- The written form of a piece, with a variable's own expression as it stands. -/
def Piece.source : Piece → List Char
  | start => ['^']
  | stop => ['$']
  | slash => ['/']
  | optionalSlash => ['/', '?']
  | optionalTail => "(?:/.*)?".toList
  | token (.literal c) => Regex.escape [c]
  | token .anyChar => "[^/]".toList
  | token .anyText => "[^/]*".toList
  | token (.variable name custom) =>
    "(?P<".toList ++ name.toList ++ ['>'] ++ custom.getD "[^/]+".toList ++ [')']

def Token.isCustom : Token → Bool
  | .variable _ (some _) => true
  | _ => false

def Piece.isCustom : Piece → Bool
  | token t => t.isCustom
  | _ => false

/-- The pieces of segments. A last empty segment pins its slash; otherwise a slash may follow
unless the pattern's text ends in `**`. -/
def segmentPieces (openEnd : Bool) : List Segment → List Piece
  | [] => if openEnd then [.stop] else [.optionalSlash, .stop]
  | .subtree :: rest => .optionalTail :: segmentPieces openEnd rest
  | [.tokens []] => [.slash, .stop]
  | .tokens row :: rest => .slash :: row.map .token ++ segmentPieces openEnd rest

def pieces (openEnd : Bool) : List Segment → List Piece
  | [] => [.start, .slash, .stop]
  | segments => .start :: segmentPieces openEnd segments

/-- The expression of a row of pieces. An expression that a variable brings is read together with
all around it, so that its groups and alternatives reach as far as they do in writing. Without one
reading would give the same expression, if that is not too large, so there is no need to read. -/
def compile (row : List Piece) : Except Regex.Fault Regex :=
  if row.any Piece.isCustom then Regex.parse (row.flatMap Piece.source)
  else .ok (Regex.seqs (row.map Piece.node))

def countSingle (segments : List Segment) : Nat :=
  let tokens := segments.flatMap fun
    | .subtree => []
    | .tokens row => row
  tokens.countP fun t => t = .anyChar || t = .anyText

def countSubtrees (segments : List Segment) : Nat := segments.countP (· = .subtree)

end Pattern

/-- A compiled path pattern. -/
structure PathPattern where
  raw : String
  regex : Regex
  /-- The names of the variables, in order. -/
  names : List String
  singleWildcards : Nat
  doubleWildcards : Nat
  deriving Repr, Inhabited

namespace PathPattern

/-- Compiles a pattern; one without a leading slash counts as rooted. -/
def parse (pattern : String) : Except PatternFault PathPattern := do
  let (segments, names) ← Pattern.read pattern
  let openEnd := Text.endsWith ['*', '*'] (Pattern.unroot pattern.toList)
  match Pattern.compile (Pattern.pieces openEnd segments) with
  | .error fault => throw (.badRegex pattern fault)
  | .ok regex =>
    return {
      raw := pattern
      regex
      names
      singleWildcards := Pattern.countSingle segments
      doubleWildcards := Pattern.countSubtrees segments }

instance : BEq PathPattern := ⟨fun a b => a.raw == b.raw⟩

def isLiteral (p : PathPattern) : Bool :=
  p.names.isEmpty && p.singleWildcards == 0 && p.doubleWildcards == 0

def isCatchAll (p : PathPattern) : Bool := p.raw == "/**" || p.raw == "**"

def isMatch (p : PathPattern) (path : String) : Bool := p.regex.isMatch path.toList

/-- The texts of the variables, in their order, when the pattern matches. A variable that took no
part in the match is left out. -/
def matchPath (p : PathPattern) (path : String) : Option (List (String × String)) :=
  (p.regex.search path.toList).map fun groups =>
    p.names.filterMap fun name => (groups.get? name).map fun text => (name, String.ofList text)

/-- How much a pattern leaves open: one for each variable and wildcard, two for each `**`. -/
def weight (p : PathPattern) : Nat :=
  p.names.length + p.singleWildcards + 2 * p.doubleWildcards

/-- The order of two patterns of one path, `lt` for the more specific: literal patterns come first
and the pattern of all paths last, then less weight, longer text and fewer `**`. -/
def specificityCmp (a b : PathPattern) : Ordering :=
  match a.isLiteral, b.isLiteral with
  | true, false => .lt
  | false, true => .gt
  | _, _ =>
    match a.isCatchAll, b.isCatchAll with
    | true, false => .gt
    | false, true => .lt
    | _, _ =>
      ((compare a.weight b.weight).then (compare b.raw.utf8ByteSize a.raw.utf8ByteSize)).then
        (compare a.doubleWildcards b.doubleWildcards)

end PathPattern

end Switchyard
