import Switchyard.Yaml.Token
/-!
# YAML layout

From the characters of a text to its tokens. Indentation opens and closes blocks, and a colon makes
a key of what stands before it on the same line: its place among the tokens is remembered until the
colon comes or can come no more.
-/

namespace Switchyard.Yaml

/-- A place where a key may have begun. One at the indentation of its block has to be a key. -/
structure PossibleKey where
  position : Nat
  isRequired : Bool
  index : Nat
  line : Nat
  column : Nat

/-- How far the tokens of a text are read. The open blocks are given by their indentations, and
there is one possible key for the block and one for each open bracket. -/
structure Layout where
  place : Place
  indent : Int := -1
  outer : List Int := []
  keyAllowed : Bool := true
  keys : List (Option PossibleKey) := [none]
  /-- The tokens so far, the last one first. -/
  tokens : List Token := []
  count : Nat := 0

namespace Layout

def inFlow (s : Layout) : Bool := s.keys.length > 1

def emit (s : Layout) (t : Token) : Layout :=
  { s with tokens := t :: s.tokens, count := s.count + 1 }

def insertAt (s : Layout) (position : Nat) (ts : List Token) : Layout :=
  let later := s.count - position
  { s with
    tokens := s.tokens.take later ++ ts.reverse ++ s.tokens.drop later
    count := s.count + ts.length }

/-- Leaves the blocks that are indented beyond a column: their number, and what remains. -/
def leave (column : Int) : Int → List Int → Nat × Int × List Int
  | indent, [] => (0, indent, [])
  | indent, next :: outer =>
    if indent ≤ column then (0, indent, next :: outer)
    else
      let (n, rest) := leave column next outer
      (n + 1, rest)

def unroll (s : Layout) (column : Int) : Layout :=
  if s.inFlow then s
  else
    let (n, indent, outer) := leave column s.indent s.outer
    { s with
      indent, outer
      tokens := List.replicate n .blockEnd ++ s.tokens
      count := s.count + n }

/-- Opens a block at a column that is indented beyond the current one. Returns the token that opens
it, if there is one to open. -/
def roll (s : Layout) (column : Nat) (opening : Token) : List Token × Layout :=
  if s.inFlow || column ≤ s.indent then ([], s)
  else ([opening], { s with indent := column, outer := s.indent :: s.outer })

/-- Gives the innermost possible key up, unless it has to be one. -/
def dropKey (s : Layout) : Option Layout :=
  match s.keys with
  | some k :: rest => if k.isRequired then none else some { s with keys := none :: rest }
  | _ => some s

def noteKey (s : Layout) : Option Layout :=
  if !s.keyAllowed then some s
  else do
    let s ← s.dropKey
    let key : PossibleKey := {
      position := s.count
      isRequired := !s.inFlow && s.indent = s.place.column
      index := s.place.index
      line := s.place.line
      column := s.place.column }
    return { s with keys := some key :: s.keys.tail }

/-- The length up to which a key without a question mark is recognised. -/
def longestKey : Nat := 1024

/-- Gives up the possible keys that are too far back: on an earlier line or too long. -/
def dropStale (s : Layout) : Option Layout := do
  let keys ← s.keys.mapM fun
    | none => some none
    | some k =>
      if s.place.line ≤ k.line && s.place.index ≤ k.index + longestKey then some (some k)
      else if k.isRequired then none
      else some none
  return { s with keys }

/-- Skips blanks, comments and breaks. Tabs may not stand where a key may begin. -/
def skipGaps : Nat → Layout → Layout
  | 0, s => s
  | fuel + 1, s =>
    let isSkipped (c : Char) : Bool := c = ' ' || (c = '\t' && (s.inFlow || !s.keyAllowed))
    let p := s.place.dropWhile isSkipped
    let p := if p.sees (· = '#') then p.dropWhile (!isBreak ·) else p
    if p.sees isBreak then
      skipGaps fuel { s with place := p.takeBreak.2, keyAllowed := s.keyAllowed || !s.inFlow }
    else { s with place := p }

def sign (s : Layout) (width : Nat) (t : Token) : Layout :=
  { s with place := s.place.skip width }.emit t

/-- Reads a token that may begin a key and ends none. -/
def keyable (s : Layout) (read : Place → Option (Token × Place)) : Option Layout := do
  let s ← s.noteKey
  let (token, place) ← read s.place
  return { s with place, keyAllowed := false }.emit token

/-- Closes all blocks in front of a directive or a marker. -/
def closeAll (s : Layout) : Option Layout := do
  return { ← (s.unroll (-1)).dropKey with keyAllowed := false }

def openBracket (s : Layout) (t : Token) : Option Layout := do
  let s ← s.noteKey
  return { s with keys := none :: s.keys, keyAllowed := true }.sign 1 t

def closeBracket (s : Layout) (t : Token) : Option Layout := do
  let s ← s.dropKey
  let keys := if s.inFlow then s.keys.tail else s.keys
  return { s with keys, keyAllowed := false }.sign 1 t

/-- Reads the sign of an entry or of a key, which may open a block at its column. -/
def blockSign (s : Layout) (opening t : Token) (keyAllowed : Bool) : Option Layout := do
  if !s.inFlow && !s.keyAllowed then none
  let (opened, s) := s.roll s.place.column opening
  let s ← (s.insertAt s.count opened).dropKey
  return { s with keyAllowed }.sign 1 t

def valueSign (s : Layout) : Option Layout := do
  match s.keys with
  | some k :: rest =>
    let (opened, s) := { s with keys := none :: rest }.roll k.column .blockMapping
    return { s.insertAt k.position (opened ++ [Token.key]) with keyAllowed := false }.sign 1 .value
  | _ =>
    if !s.inFlow && !s.keyAllowed then none
    let (opened, s) := s.roll s.place.column .blockMapping
    return { s.insertAt s.count opened with keyAllowed := !s.inFlow }.sign 1 .value

def blockScalar (s : Layout) (style : Style) : Option Layout := do
  let s ← s.dropKey
  let (text, place) ← blockText (style = .literal) s.indent s.place
  return { s with place, keyAllowed := true }.emit (.scalar style (String.ofList text))

def plainScalar (s : Layout) : Option Layout := do
  let s ← s.noteKey
  let (text, place, isBroken) ← plainText s.inFlow (s.indent + 1).toNat s.place
  return { s with place, keyAllowed := isBroken }.emit (.scalar .plain (String.ofList text))

/-- The signs with which no plain scalar begins, unless the next character makes them part of it. -/
def isIndicator (c : Char) : Bool := "-?:,[]\x7b\x7d#&*!|>'\"%@`".toList.contains c

def beginsPlain (s : Layout) (c : Char) : Bool :=
  !(isGap c || isIndicator c) || (c = '-' && !s.place.rest[1]?.any isSpacing) ||
    (!s.inFlow && (c = '?' || c = ':') && !s.place.endsAt 1)

def token (s : Layout) (c : Char) : Option Layout :=
  let atLineStart := s.place.column = 0
  let ends := s.place.endsAt 1
  if atLineStart && c = '%' then do
    let s ← s.closeAll
    let (directive, place) ← Token.readDirective s.place
    return { s with place }.emit directive
  else if s.place.isMarker then do
    return (← s.closeAll).sign 3 (if c = '-' then .documentStart else .documentEnd)
  else if c = '[' then s.openBracket .flowSequence
  else if c = '\x7b' then s.openBracket .flowMapping
  else if c = ']' then s.closeBracket .flowSequenceEnd
  else if c = '\x7d' then s.closeBracket .flowMappingEnd
  else if c = ',' then do
    return { ← s.dropKey with keyAllowed := true }.sign 1 .flowEntry
  else if c = '-' && ends then s.blockSign .blockSequence .blockEntry true
  else if c = '?' && (s.inFlow || ends) then s.blockSign .blockMapping .key (!s.inFlow)
  else if c = ':' && (s.inFlow || ends) then s.valueSign
  else if c = '*' then
    s.keyable fun p => (Token.readName (p.skip 1)).map fun (name, q) => (.alias name, q)
  else if c = '&' then
    s.keyable fun p => (Token.readName (p.skip 1)).map fun (name, q) => (.anchor name, q)
  else if c = '!' then s.keyable (Token.readTag s.inFlow)
  else if c = '|' && !s.inFlow then s.blockScalar .literal
  else if c = '>' && !s.inFlow then s.blockScalar .folded
  else if c = '\'' || c = '"' then
    s.keyable fun p => (quotedText c p).map fun (text, q) =>
      (.scalar (if c = '"' then .double else .single) (String.ofList text), q)
  else if s.beginsPlain c then s.plainScalar
  else none

def run : Nat → Layout → Option Layout
  | 0, _ => none
  | fuel + 1, s => do
    let s ← (skipGaps (s.place.rest.length + 1) s).dropStale
    let s := s.unroll s.place.column
    match s.place.head? with
    | none => s.closeAll
    | some c => run fuel (← s.token c)

end Layout

/-- The tokens of a text, or none for a text that breaks the rules of characters or layout. A byte
order mark in front is skipped; it takes up a column. -/
def tokens? (text : List Char) : Option (List Token) :=
  let start : Place := { rest := text }
  let start := if start.sees (· = Char.ofNat 0xFEFF) then start.skip 1 else start
  if !text.all isAllowed then none
  else (Layout.run (text.length + 1) { place := start }).map (·.tokens.reverse)

end Switchyard.Yaml
