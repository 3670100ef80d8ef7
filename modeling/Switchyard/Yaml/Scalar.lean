import Switchyard.Text.Ascii
import Switchyard.Yaml.Place
/-!
# YAML scalars

The five ways to write a text: plain, in single or double quotes, and as a literal or folded block.
Each reader returns the text and the place behind it, or none for a text that breaks the rules.
Line breaks inside the first three fold: a lone break reads as a space, each further one as itself.
-/

namespace Switchyard.Yaml

/-- How a scalar was written. -/
inductive Style where
  | plain
  | single
  | double
  | literal
  | folded
  deriving DecidableEq, Repr

/-- The blanks and breaks between two words: blanks of one line, or the first break and the later
ones. -/
structure Gap where
  spaces : List Char := []
  isBroken : Bool := false
  first : List Char := []
  later : List Char := []

namespace Gap

def text (g : Gap) : List Char :=
  if !g.isBroken then g.spaces
  else if g.first ≠ ['\n'] then g.first ++ g.later
  else if g.later.isEmpty then [' ']
  else g.later

/-- Reads blanks and breaks. Tabs may not stand in the indentation, left of column `indent`. -/
def read (indent : Nat) : Nat → Gap → Place → Option (Gap × Place)
  | 0, g, p => some (g, p)
  | fuel + 1, g, p =>
    match p.head? with
    | none => some (g, p)
    | some c =>
      if isSpacing c then
        if !g.isBroken then read indent fuel { g with spaces := g.spaces ++ [c] } (p.skip 1)
        else if c = '\t' && p.column < indent then none
        else read indent fuel g (p.skip 1)
      else if isBreak c then
        let (mark, next) := p.takeBreak
        if g.isBroken then read indent fuel { g with later := g.later ++ mark } next
        else read indent fuel { isBroken := true, first := mark } next
      else some (g, p)

end Gap

/-- The brackets and the comma, which end plain scalars inside brackets. -/
def isFlowSign (c : Char) : Bool := [',', '[', ']', '{', '}'].contains c

/-- Reads up to the next gap or to a sign that ends a plain scalar. -/
def plainWord (inFlow : Bool) : Nat → Place → Option (List Char × Place)
  | 0, p => some ([], p)
  | fuel + 1, p =>
    match p.rest with
    | [] => some ([], p)
    | c :: after =>
      if isGap c then some ([], p)
      else if inFlow && c = ':' && after.head?.any (fun d => isFlowSign d || d = '?') then none
      else if c = ':' && p.endsAt 1 then some ([], p)
      else if inFlow && isFlowSign c then some ([], p)
      else do
        let (word, next) ← plainWord inFlow fuel (p.skip 1)
        return (c :: word, next)

/-- Reads words and the gaps between them. Outside brackets a line left of column `indent` ends the
scalar. The last result says whether a break was passed behind the last word. -/
def plainWords (inFlow : Bool) (indent : Nat) :
    Nat → Gap → List Char → Place → Option (List Char × Place × Bool)
  | 0, gap, text, p => some (text, p, gap.isBroken)
  | fuel + 1, gap, text, p =>
    if p.isMarker || p.sees (· = '#') then some (text, p, gap.isBroken)
    else do
      let (word, next) ← plainWord inFlow p.rest.length p
      let (text, gap) := if word.isEmpty then (text, gap) else (text ++ gap.text ++ word, {})
      if !next.sees isGap then return (text, next, gap.isBroken)
      let (gap, next) ← Gap.read indent next.rest.length {} next
      if !inFlow && next.column < indent then return (text, next, gap.isBroken)
      plainWords inFlow indent fuel gap text next

def plainText (inFlow : Bool) (indent : Nat) (p : Place) : Option (List Char × Place × Bool) :=
  plainWords inFlow indent p.rest.length {} [] p

def escape? : Char → Option Char
  | '0' => some (Char.ofNat 0)
  | 'a' => some (Char.ofNat 7)
  | 'b' => some (Char.ofNat 8)
  | 't' | '\t' => some '\t'
  | 'n' => some '\n'
  | 'v' => some (Char.ofNat 11)
  | 'f' => some (Char.ofNat 12)
  | 'r' => some '\r'
  | 'e' => some (Char.ofNat 27)
  | ' ' => some ' '
  | '"' => some '"'
  | '/' => some '/'
  | '\\' => some '\\'
  | 'N' => some (Char.ofNat 0x85)
  | '_' => some (Char.ofNat 0xA0)
  | 'L' => some (Char.ofNat 0x2028)
  | 'P' => some (Char.ofNat 0x2029)
  | _ => none

/-- The number of digits behind a letter that begins a numeric escape. -/
def escapeDigits : Char → Nat
  | 'x' => 2
  | 'u' => 4
  | 'U' => 8
  | _ => 0

/-- The character of a number, unless it is a surrogate or out of range. -/
def charOfNumber? (n : Nat) : Option Char := if n.isValidChar then some (Char.ofNat n) else none

/-- The character of an escape, and the number of characters that the escape has behind its
backslash. -/
def readEscape (after : List Char) : Option (Char × Nat) := do
  let letter ← after.head?
  match escapeDigits letter with
  | 0 => return (← escape? letter, 1)
  | width =>
    let digits := after.tail.take width
    if digits.length < width then none
    return (← charOfNumber? (← Text.hexadecimal? digits), width + 1)

/-- Reads up to the next gap or the closing quote. The last result says whether an escaped break
ended the word. -/
def quotedWord (quote : Char) : Nat → Place → Option (List Char × Place × Bool)
  | 0, p => some ([], p, false)
  | fuel + 1, p =>
    let more (c : Char) (width : Nat) : Option (List Char × Place × Bool) := do
      let (word, next, isBroken) ← quotedWord quote fuel (p.skip width)
      return (c :: word, next, isBroken)
    match p.rest with
    | [] => some ([], p, false)
    | c :: after =>
      if isGap c then some ([], p, false)
      else if c = quote then
        if quote = '\'' && after.head? = some '\'' then more c 2 else some ([], p, false)
      else if c = '\\' && quote = '"' then
        if after.head?.any isBreak then some ([], (p.skip 1).takeBreak.2, true)
        else do
          let (meant, width) ← readEscape after
          more meant (width + 1)
      else more c 1

def quotedWords (quote : Char) : Nat → Place → Option (List Char × Place)
  | 0, _ => none
  | fuel + 1, p =>
    if p.isMarker || p.rest.isEmpty then none
    else do
      let (word, next, isBroken) ← quotedWord quote p.rest.length p
      if next.head? = some quote then return (word, next.skip 1)
      let (gap, next) ← Gap.read 0 next.rest.length { isBroken } next
      let (rest, next) ← quotedWords quote fuel next
      return (word ++ gap.text ++ rest, next)

def quotedText (quote : Char) (p : Place) : Option (List Char × Place) :=
  quotedWords quote (p.rest.length + 1) (p.skip 1)

/-- What becomes of the breaks behind a block: all go, one stays, all stay. -/
inductive Chomping where
  | strip
  | clip
  | keep
  deriving DecidableEq, Repr

def readChomping (p : Place) : Option Chomping × Place :=
  match p.head? with
  | some '+' => (some .keep, p.skip 1)
  | some '-' => (some .strip, p.skip 1)
  | _ => (none, p)

/-- Reads the indentation digit, if it is next; zero is none. -/
def readIndentation (p : Place) : Option (Option Nat × Place) :=
  match p.head?.bind Text.decimalValue? with
  | some 0 => none
  | some n => some (some n, p.skip 1)
  | none => some (none, p)

def readHeader (p : Place) : Option (Chomping × Option Nat × Place) := do
  match readChomping p with
  | (some chomping, p) =>
    let (indentation, p) ← readIndentation p
    return (chomping, indentation, p)
  | (none, p) =>
    let (indentation, p) ← readIndentation p
    let (chomping, p) := if indentation.isSome then readChomping p else (none, p)
    return (chomping.getD .clip, indentation, p)

/-- Reads empty lines and the indentation of the next one. An indentation that is not known yet
takes all spaces; `widest` is the widest so far. -/
def blockBreaks (indent : Option Nat) : Nat → Nat → List Char → Place →
    Option (Nat × List Char × Place)
  | 0, widest, breaks, p => some (widest, breaks, p)
  | fuel + 1, widest, breaks, p =>
    let room := indent.map (· - p.column)
    let spaces := p.rest.takeWhile (· = ' ')
    let q := p.skip (match room with | some n => min n spaces.length | none => spaces.length)
    let widest := max widest q.column
    if indent.all (q.column < ·) && q.sees (· = '\t') then none
    else if q.sees isBreak then
      let (mark, next) := q.takeBreak
      blockBreaks indent fuel widest (breaks ++ mark) next
    else some (widest, breaks, q)

/-- The text of a block while it is read: what is settled, the break behind the last line, the
empty lines behind that, and whether the last line began with a blank. -/
structure Block where
  text : List Char := []
  lineBreak : List Char := []
  breaks : List Char := []
  isSpaced : Bool := false

/-- The text with the breaks before a further line. In a folded block a break between two lines
that begin with no blank folds. -/
def Block.joined (isLiteral : Bool) (b : Block) (isSpaced : Bool) : List Char :=
  if !isLiteral && b.lineBreak = ['\n'] && !b.isSpaced && !isSpaced then
    b.text ++ (if b.breaks.isEmpty then [' '] else b.breaks)
  else b.text ++ b.lineBreak ++ b.breaks

/-- Reads lines as long as they have the indentation of the block. -/
def blockLines (isLiteral : Bool) (indent : Nat) : Nat → Block → Place → Option (Block × Place)
  | 0, b, p => some (b, p)
  | fuel + 1, b, p =>
    if p.column ≠ indent || p.rest.isEmpty then some (b, p)
    else do
      let isSpaced := p.sees isSpacing
      let (line, next) := p.span (!isBreak ·)
      let (lineBreak, next) := next.takeBreak
      let (_, breaks, next) ← blockBreaks (some indent) (next.rest.length + 1) 0 [] next
      let text := b.joined isLiteral isSpaced ++ line
      blockLines isLiteral indent fuel { text, lineBreak, breaks, isSpaced } next

def Block.chomped (b : Block) : Chomping → List Char
  | .strip => b.text
  | .clip => b.text ++ b.lineBreak
  | .keep => b.text ++ b.lineBreak ++ b.breaks

/-- Reads a block scalar from its opening sign on, inside a block of indentation `parent`. -/
def blockText (isLiteral : Bool) (parent : Int) (p : Place) : Option (List Char × Place) := do
  let (chomping, indentation, p) ← readHeader (p.skip 1)
  let p := p.dropWhile isSpacing
  let p := if p.sees (· = '#') then p.dropWhile (!isBreak ·) else p
  if !p.rest.isEmpty && !p.sees isBreak then none
  let p := p.takeBreak.2
  let declared := indentation.map fun n => (max parent 0).toNat + n
  let (widest, breaks, p) ← blockBreaks declared (p.rest.length + 1) 0 [] p
  let indent := declared.getD (max (max widest (parent + 1).toNat) 1)
  let (block, p) ← blockLines isLiteral indent (p.rest.length + 1) { breaks } p
  return (block.chomped chomping, p)

end Switchyard.Yaml
