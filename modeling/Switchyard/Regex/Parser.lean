import Switchyard.Regex.Basic
import Switchyard.Text.Blank
/-!
# Reading regular expressions

The written form of regular expressions: alternatives, repetitions with counts, character
classes with set operations, named groups, inline flags, escapes and word boundaries. Look-around
and references back to groups are refused, since no expression here can express them.

Groups may nest to any depth. Of the properties of characters the general categories, some scripts
and the few of `CharSet.propertyNamed?` are known; others are refused. Whether an expression takes
too much room is judged by `Regex.size`, an estimate.
-/

namespace Switchyard.Regex

/-- What is wrong with a written expression. -/
inductive Fault where
  | nothingToRepeat
  | badCount
  | unclosedGroup
  | unopenedGroup
  | badGroupName
  | repeatedGroupName (name : String)
  | badFlag
  | lookAround
  | backReference
  | badEscape
  | unclosedClass
  | badClassRange
  | badClassEscape
  | unknownProperty
  | notText
  | tooDeep
  | tooLarge
  deriving DecidableEq, Repr

def Fault.message : Fault → String
  | nothingToRepeat => "repetition operator missing expression"
  | badCount => "invalid repetition count"
  | unclosedGroup => "unclosed group"
  | unopenedGroup => "unopened group"
  | badGroupName => "invalid group name"
  | repeatedGroupName name => "duplicate group name '" ++ name ++ "'"
  | badFlag => "invalid flags"
  | lookAround => "look-around is not supported"
  | backReference => "back-references are not supported"
  | badEscape => "invalid escape sequence"
  | unclosedClass => "unclosed character class"
  | badClassRange => "invalid character class range"
  | badClassEscape => "invalid escape sequence in character class"
  | unknownProperty => "unknown character property"
  | notText => "expression matches more than text"
  | tooDeep => "expression is nested too deeply"
  | tooLarge => "expression is too large"

/-- The inline flags in force. -/
structure Flags where
  ignoreCase : Bool
  multiLine : Bool
  dotAll : Bool
  swapGreed : Bool
  unicode : Bool
  crlf : Bool
  ignoreBlanks : Bool
  deriving DecidableEq, Repr

def Flags.default : Flags := ⟨false, false, false, false, true, false, false⟩

/-- A flag letter together with the way to switch that flag. -/
def Flags.switch? (on : Bool) (f : Flags) : Char → Option Flags
  | 'i' => some { f with ignoreCase := on }
  | 'm' => some { f with multiLine := on }
  | 's' => some { f with dotAll := on }
  | 'U' => some { f with swapGreed := on }
  | 'u' => some { f with unicode := on }
  | 'R' => some { f with crlf := on }
  | 'x' => some { f with ignoreBlanks := on }
  | _ => none

def isMeta (c : Char) : Bool := "\\.+*?()|[]^$#&-~".toList.contains c || c = '\x7b' || c = '\x7d'

/-- The characters that may be escaped: all ASCII signs except the angle brackets. -/
def isEscapable (c : Char) : Bool :=
  isMeta c || (c.toNat < 0x80 && !c.isAlphanum && c != '<' && c != '>')

def Flags.close (f : Flags) (s : CharSet) : CharSet :=
  if f.ignoreCase then if f.unicode then s.foldClosure else s.asciiFoldClosure else s

/-- The node for a set; without the Unicode flag only ASCII sets denote text. -/
def Flags.node (f : Flags) (s : CharSet) : Except Fault Regex :=
  if f.unicode || s.isAscii then .ok (set s) else .error .notText

def Flags.wordSet (f : Flags) : CharSet :=
  if f.unicode then CharSet.wordChars else CharSet.asciiWordChars

/-- The set of `\d`, `\s` or `\w`, or of its complement for a capital letter. -/
def Flags.perlSet? (f : Flags) (c : Char) : Option CharSet :=
  let digit := if f.unicode then CharSet.digits else CharSet.asciiDigits
  let blank := if f.unicode then CharSet.blanks else CharSet.asciiBlanks
  match c with
  | 'd' => some digit
  | 'D' => some digit.complement
  | 's' => some blank
  | 'S' => some blank.complement
  | 'w' => some f.wordSet
  | 'W' => some f.wordSet.complement
  | _ => none

/-- What an escape stands for. -/
inductive Escape where
  | literal (c : Char)
  | chars (s : CharSet)
  | assertion (a : Assertion)

def hexLiteral (digits : List Char) : Except Fault Char :=
  match Text.hexadecimal? digits with
  | none => .error .badEscape
  | some n =>
    if n < 0xD800 || (0xDFFF < n && n ≤ 0x10FFFF) then .ok (Char.ofNat n) else .error .badEscape

def cutBrace : List Char → Option (List Char × List Char)
  | [] => none
  | c :: rest =>
    if c = '\x7d' then some ([], rest)
    else (cutBrace rest).map fun (body, after) => (c :: body, after)

def hexEscape (width : Nat) (s : List Char) : Except Fault (Char × List Char) :=
  match s with
  | '\x7b' :: rest =>
    match cutBrace rest with
    | none => .error .badEscape
    | some (digits, after) => do return (← hexLiteral digits, after)
  | _ =>
    if s.length < width then .error .badEscape
    else do return (← hexLiteral (s.take width), s.drop width)

def cutAt (p : Char → Bool) (s : List Char) : Option (List Char × List Char) :=
  match s.span fun c => !p c with
  | (_, []) => none
  | (before, _ :: after) => some (before, after)

def cutUnequal : List Char → Option (List Char × List Char)
  | [] => none
  | '!' :: '=' :: rest => some ([], rest)
  | c :: rest => (cutUnequal rest).map fun (before, after) => (c :: before, after)

def namedProperty (body : List Char) : Except Fault CharSet :=
  let found : Option CharSet :=
    match cutUnequal body with
    | some (p, v) => (CharSet.namedValue? p v).map CharSet.complement
    | none =>
      match cutAt (fun c => c == ':' || c == '=') body with
      | some (p, v) => CharSet.namedValue? p v
      | none => CharSet.named? body
  match found with
  | some s => .ok s
  | none => .error .unknownProperty

/-- The name of a property, in braces unless it is one letter. -/
def propertyName : List Char → Except Fault (List Char × List Char)
  | [] => .error .badEscape
  | '\\' :: _ => .error .badEscape
  | '\x7b' :: rest =>
    match cutBrace rest with
    | none => .error .badEscape
    | some found => .ok found
  | c :: rest => .ok ([c], rest)

def propertyEscape (f : Flags) (negated : Bool) (s : List Char) :
    Except Fault (CharSet × List Char) :=
  if !f.unicode then .error .notText
  else do
    let (body, after) ← propertyName s
    let chars := f.close (← namedProperty body)
    return (if negated then chars.complement else chars, after)

def boundaryNames (w : CharSet) : List (List Char × Assertion) :=
  [("start\x7d".toList, .wordStart w), ("end\x7d".toList, .wordEnd w),
    ("start-half\x7d".toList, .wordStartHalf w), ("end-half\x7d".toList, .wordEndHalf w)]

def afterText : List Char → List Char → Option (List Char)
  | [], s => some s
  | _ :: _, [] => none
  | p :: ps, c :: cs => if p = c then afterText ps cs else none

/-- The boundary that a name behind an opening brace stands for. -/
def boundaryNamed? (w : CharSet) (s : List Char) : Option (Assertion × List Char) :=
  (boundaryNames w).findSome? fun (name, a) => (afterText name s).map fun r => (a, r)

def boundaryEscape (w : CharSet) : List Char → Except Fault (Escape × List Char)
  | '\x7b' :: rest =>
    match boundaryNamed? w rest with
    | some (a, after) => .ok (.assertion a, after)
    | none =>
      match rest with
      | [] => .error .badEscape
      | c :: _ =>
        if c.isAlpha || c = '-' then .error .badEscape
        else .ok (.assertion (.wordBoundary w), '\x7b' :: rest)
  | rest => .ok (.assertion (.wordBoundary w), rest)

def readEscape (f : Flags) : List Char → Except Fault (Escape × List Char)
  | [] => .error .badEscape
  | c :: rest =>
    match f.perlSet? c with
    | some s => .ok (.chars s, rest)
    | none =>
      match c with
      | 'x' => do
        let (d, after) ← hexEscape 2 rest
        if !f.unicode && rest.head? != some '\x7b' && 0x80 ≤ d.toNat then .error .notText
        else return (.literal d, after)
      | 'u' => do let (d, after) ← hexEscape 4 rest; return (.literal d, after)
      | 'U' => do let (d, after) ← hexEscape 8 rest; return (.literal d, after)
      | 'p' => do let (s, after) ← propertyEscape f false rest; return (.chars s, after)
      | 'P' => do let (s, after) ← propertyEscape f true rest; return (.chars s, after)
      | 'a' => .ok (.literal '\x07', rest)
      | 'f' => .ok (.literal '\x0c', rest)
      | 't' => .ok (.literal '\t', rest)
      | 'n' => .ok (.literal '\n', rest)
      | 'r' => .ok (.literal '\r', rest)
      | 'v' => .ok (.literal '\x0b', rest)
      | 'A' => .ok (.assertion .textStart, rest)
      | 'z' => .ok (.assertion .textEnd, rest)
      | 'b' => boundaryEscape f.wordSet rest
      | 'B' => .ok (.assertion (.noWordBoundary f.wordSet), rest)
      | '<' => .ok (.assertion (.wordStart f.wordSet), rest)
      | '>' => .ok (.assertion (.wordEnd f.wordSet), rest)
      | _ =>
        if c.isDigit then .error .backReference
        else if isEscapable c then .ok (.literal c, rest)
        else .error .badEscape

/-- Skips blanks and comments when the flags say that they mean nothing. -/
def skipIgnored (f : Flags) (s : List Char) : List Char :=
  if f.ignoreBlanks then go false s else s
where
  go : Bool → List Char → List Char
  | _, [] => []
  | true, c :: rest => if c = '\n' then go false rest else go true rest
  | false, c :: rest =>
    if Text.isBlank c then go false rest
    else if c = '#' then go true rest
    else c :: rest

def readCount (s : List Char) : Except Fault (Nat × List Char) :=
  let s := s.dropWhile Text.isBlank
  let ds := s.takeWhile Char.isDigit
  match Text.decimal? ds with
  | some n =>
    if n < UInt32.size then .ok (n, (s.drop ds.length).dropWhile Text.isBlank) else .error .badCount
  | none => .error .badCount

/-- Reads the greater count of a repetition, which may be left out, behind the comma. -/
def readMost (least : Nat) (s : List Char) : Except Fault (Nat × Option Nat × List Char) :=
  match s.dropWhile Text.isBlank with
  | '\x7d' :: after => return (least, none, after)
  | _ => do
    let (most, rest) ← readCount s
    match rest with
    | '\x7d' :: after => if least ≤ most then return (least, some most, after) else throw .badCount
    | _ => throw .badCount

def readCounts (s : List Char) : Except Fault (Nat × Option Nat × List Char) := do
  let (least, rest) ← readCount s
  match rest with
  | '\x7d' :: after => return (least, some least, after)
  | ',' :: rest => readMost least rest
  | _ => throw .badCount

/-- Reads flag letters up to the `:` or `)` behind them. -/
def readFlags (f : Flags) (s : List Char) : Except Fault (Flags × Bool × List Char) :=
  go f true [] false s
where
  go (f : Flags) (on : Bool) (seen : List Char) (dangling : Bool) :
      List Char → Except Fault (Flags × Bool × List Char)
  | [] => .error .badFlag
  | ':' :: rest => if dangling then .error .badFlag else .ok (f, true, rest)
  | ')' :: rest =>
    if dangling then .error .badFlag
    else if seen.isEmpty then .error .nothingToRepeat
    else .ok (f, false, rest)
  | '-' :: rest => if on then go f false seen true rest else .error .badFlag
  | c :: rest =>
    if seen.contains c then .error .badFlag
    else
      match f.switch? on c with
      | some f => go f on (c :: seen) false rest
      | none => .error .badFlag

def readGroupName (s : List Char) : Except Fault (String × List Char) :=
  match cutAt (· == '>') s with
  | none => .error .badGroupName
  | some ([], _) => .error .badGroupName
  | some (c :: cs, after) =>
    let first := c == '_' || c.isAlpha || CharSet.alphabetic.contains c
    let later (d : Char) := d == '_' || d == '.' || d == '[' || d == ']' || d.isAlphanum ||
      CharSet.alphabetic.contains d ||
      (match Text.category d with
        | .decimalNumber | .letterNumber | .otherNumber => true
        | _ => false)
    if first && cs.all later then .ok (String.ofList (c :: cs), after) else .error .badGroupName

inductive ClassItem where
  | literal (c : Char)
  | chars (s : CharSet)

def readClassItem (f : Flags) : List Char → Except Fault (ClassItem × List Char)
  | [] => .error .unclosedClass
  | '\\' :: rest => do
    match ← readEscape f rest with
    | (.literal c, after) => return (.literal c, after)
    | (.chars s, after) => return (.chars s, after)
    | (.assertion _, _) => throw .badClassEscape
  | c :: rest => .ok (.literal c, rest)

def itemSet (f : Flags) : ClassItem → Except Fault CharSet
  | .literal c => if f.unicode || c.toNat < 0x80 then .ok (CharSet.singleton c) else .error .notText
  | .chars s => .ok s

def rangeSet (f : Flags) : ClassItem → ClassItem → Except Fault CharSet
  | .literal a, .literal b =>
    if a ≤ b then
      if f.unicode || b.toNat < 0x80 then .ok (CharSet.ofRange a.toNat b.toNat) else .error .notText
    else .error .badClassRange
  | _, _ => .error .badClassRange

/-- Reads on behind an item and a hyphen, which stands for itself at the end and before another. -/
def readRangeEnd (f : Flags) (item : ClassItem) (s : List Char) :
    Except Fault (CharSet × List Char) :=
  match skipIgnored f s with
  | [] => .error .unclosedClass
  | c :: after =>
    if c = ']' ∨ c = '-' then do return (← itemSet f item, '-' :: s)
    else do
      let (last, after) ← readClassItem f (c :: after)
      return (← rangeSet f item last, after)

/-- Reads on behind an item, which may be the first of a range. -/
def readBehindItem (f : Flags) (item : ClassItem) (s : List Char) :
    Except Fault (CharSet × List Char) :=
  match skipIgnored f s with
  | [] => .error .unclosedClass
  | c :: after =>
    if c = '-' then readRangeEnd f item after else do return (← itemSet f item, c :: after)

def readClassRange (f : Flags) (s : List Char) : Except Fault (CharSet × List Char) := do
  let (item, rest) ← readClassItem f s
  readBehindItem f item rest

/-- Reads the name of a set up to the `:]` behind it, when there is one. -/
def readSetName (f : Flags) (negated : Bool) (s : List Char) : Option (CharSet × List Char) :=
  match cutAt (· == ':') s with
  | some (name, ']' :: after) =>
    (CharSet.asciiNamed? (String.ofList name)).map fun s =>
      (if negated then (f.close s).complement else f.close s, after)
  | _ => none

/-- Reads a bracketed name such as `:alpha:]`, when there is one, behind its bracket. -/
def readAsciiClass (f : Flags) : List Char → Option (CharSet × List Char)
  | ':' :: '^' :: rest => readSetName f true rest
  | ':' :: rest => readSetName f false rest
  | _ => none

inductive SetOp where
  | inter
  | diff
  | symmDiff

def SetOp.apply (f : Flags) (op : SetOp) (s t : CharSet) : CharSet :=
  match op with
  | inter => (f.close s).inter (f.close t)
  | diff => (f.close s).diff (f.close t)
  | symmDiff => (f.close s).symmDiff (f.close t)

def combine (f : Flags) : Option (CharSet × SetOp) → CharSet → CharSet
  | none, s => s
  | some (left, op), s => op.apply f left s

def openCaret (f : Flags) (s : List Char) : Bool × List Char :=
  match skipIgnored f s with
  | '^' :: rest => (true, skipIgnored f rest)
  | rest => (false, rest)

/-- Takes the leading hyphens of a class, or its leading `]`, which stand for themselves there. -/
def openItems (s : List Char) : CharSet × List Char :=
  let hyphens := s.takeWhile (· == '-')
  if hyphens.isEmpty then
    match s with
    | ']' :: rest => (CharSet.singleton ']', rest)
    | _ => (CharSet.empty, s)
  else (CharSet.singleton '-', s.drop hyphens.length)

def openClass (f : Flags) (s : List Char) : Bool × CharSet × List Char :=
  ((openCaret f s).1, openItems (openCaret f s).2)

/-- What comes next in a class: its end, an operator between two sets, a bracket, or an item. -/
inductive ClassSign where
  | close
  | operator (op : SetOp)
  | bracket
  | item

def classSign : List Char → ClassSign × List Char
  | ']' :: rest => (.close, rest)
  | '&' :: '&' :: rest => (.operator .inter, rest)
  | '-' :: '-' :: rest => (.operator .diff, rest)
  | '~' :: '~' :: rest => (.operator .symmDiff, rest)
  | '[' :: rest => (.bracket, rest)
  | s => (.item, s)

/-- Reads a class behind its items so far; `fuel` bounds the characters left. -/
def readClass (f : Flags) :
    Nat → Bool → Option (CharSet × SetOp) → CharSet → List Char →
    Except Fault (CharSet × List Char)
  | 0, _, _, _, _ => .error .unclosedClass
  | fuel + 1, negated, pending, items, s => do
    match classSign (skipIgnored f s) with
    | (.close, rest) =>
      let chars := f.close (combine f pending items)
      return (if negated then chars.complement else chars, rest)
    | (.operator op, rest) =>
      readClass f fuel negated (some (combine f pending items, op)) CharSet.empty rest
    | (.bracket, rest) =>
      match readAsciiClass f rest with
      | some (chars, after) => readClass f fuel negated pending (items.union chars) after
      | none =>
        let opened := openClass f rest
        let (chars, after) ← readClass f fuel opened.1 none opened.2.1 opened.2.2
        readClass f fuel negated pending (items.union chars) after
    | (.item, rest) =>
      let (chars, after) ← readClassRange f rest
      readClass f fuel negated pending (items.union chars) after

/-- The reader's state: flags in force and the group names used so far. -/
structure Reader where
  flags : Flags
  names : List String

def Reader.literal (r : Reader) (c : Char) : Except Fault Regex :=
  if r.flags.ignoreCase then r.flags.node (r.flags.close (CharSet.singleton c)) else .ok (char c)

def Reader.dot (r : Reader) : Except Fault Regex :=
  let excluded : CharSet :=
    if r.flags.dotAll then CharSet.empty
    else if r.flags.crlf then ⟨[(10, 10), (13, 13)]⟩
    else ⟨[(10, 10)]⟩
  r.flags.node excluded.complement

def Reader.caret (r : Reader) : Regex :=
  if r.flags.multiLine then
    assert (if r.flags.crlf then .lineStartCrlf else .lineStart)
  else assert .textStart

def Reader.dollar (r : Reader) : Regex :=
  if r.flags.multiLine then
    assert (if r.flags.crlf then .lineEndCrlf else .lineEnd)
  else assert .textEnd

def Reader.escape (r : Reader) (s : List Char) : Except Fault (Regex × List Char) := do
  match ← readEscape r.flags s with
  | (.literal c, after) => return (← r.literal c, after)
  | (.chars chars, after) => return (← r.flags.node chars, after)
  | (.assertion a, after) => return (assert a, after)

/-- The repetition that a mark stands for; a `?` behind it turns its greed. Once is as often as an
expression without width can tell. -/
def Reader.repetition (r : Reader) (body : Regex) (least : Nat) (most : Option Nat)
    (s : List Char) : Except Fault (Regex × List Char) :=
  let (least, most) :=
    if body.isZeroWidth then (min least 1, most.map (min · 1)) else (least, most)
  if sizeLimit < max least (most.getD 0) * body.size then .error .tooLarge
  else
    match skipIgnored r.flags s with
    | '?' :: rest => .ok (repeats r.flags.swapGreed body least most, rest)
    | _ => .ok (repeats (!r.flags.swapGreed) body least most, s)

/-- How a group opens: with flags for the rest of the group around it, or with a body. -/
inductive Opening where
  | flags (f : Flags)
  | body (f : Flags) (name : Option String)

def readOpening (f : Flags) (s : List Char) : Except Fault (Opening × List Char) :=
  match s with
  | '?' :: '=' :: _ => .error .lookAround
  | '?' :: '!' :: _ => .error .lookAround
  | '?' :: '<' :: '=' :: _ => .error .lookAround
  | '?' :: '<' :: '!' :: _ => .error .lookAround
  | '?' :: 'P' :: '<' :: rest => do
    let (name, after) ← readGroupName rest
    return (.body f (some name), after)
  | '?' :: '<' :: rest => do
    let (name, after) ← readGroupName rest
    return (.body f (some name), after)
  | '?' :: rest => do
    let (g, hasBody, after) ← readFlags f rest
    return (if hasBody then .body g none else .flags g, after)
  | _ => .ok (.body f none, s)

/-- What comes next in an expression: the end of the alternatives, a bar between two of them, a
group, a mark of repetition, or a part of its own. -/
inductive Sign where
  | close
  | bar
  | opening (o : Opening)
  | mark (least : Nat) (most : Option Nat)
  | part (r : Regex)

/-- Reads the sign that begins with a character. Braces count only behind something that can be
repeated. -/
def readSignAt (r : Reader) (repeatable : Bool) (c : Char) (rest : List Char) :
    Except Fault (Sign × List Char) := do
  match c with
  | ')' => return (.close, ')' :: rest)
  | '|' => return (.bar, rest)
  | '(' =>
    let (o, after) ← readOpening r.flags (skipIgnored r.flags rest)
    return (.opening o, after)
  | '*' => return (.mark 0 none, rest)
  | '+' => return (.mark 1 none, rest)
  | '?' => return (.mark 0 (some 1), rest)
  | '\x7b' =>
    if !repeatable then .error .nothingToRepeat
    else
      let (least, most, after) ← readCounts rest
      return (.mark least most, after)
  | '[' =>
    let opened := openClass r.flags rest
    let (chars, after) ←
      readClass r.flags (opened.2.2.length + 1) opened.1 none opened.2.1 opened.2.2
    return (.part (← r.flags.node chars), after)
  | '.' => return (.part (← r.dot), rest)
  | '^' => return (.part r.caret, rest)
  | '$' => return (.part r.dollar, rest)
  | '\\' =>
    let (node, after) ← r.escape rest
    return (.part node, after)
  | _ => return (.part (← r.literal c), rest)

def readSign (r : Reader) (repeatable : Bool) (s : List Char) : Except Fault (Sign × List Char) :=
  match skipIgnored r.flags s with
  | [] => .ok (.close, [])
  | c :: rest => readSignAt r repeatable c rest

def Reader.enter (r : Reader) (f : Flags) : Option String → Except Fault Reader
  | none => .ok ⟨f, r.names⟩
  | some n => if r.names.contains n then .error (.repeatedGroupName n) else .ok ⟨f, n :: r.names⟩

def named : Option String → Regex → Regex
  | none, r => r
  | some n, r => group n r

/-- The finished parts of an alternative, the last first; `none` marks a change of flags, which
cannot be repeated. -/
abbrev Parts := List (Option Regex)

def Parts.repeatable (parts : Parts) : Bool := (List.head? parts).any Option.isSome

def Parts.toRegex (parts : Parts) : Regex := seqs (List.filterMap id parts).reverse

def Reader.repeatLast (r : Reader) (least : Nat) (most : Option Nat) (s : List Char) :
    Parts → Except Fault (Parts × List Char)
  | some body :: parts => do
    let (node, after) ← r.repetition body least most s
    return (some node :: parts, after)
  | _ => .error .nothingToRepeat

/-- Reads alternatives up to an unmatched `)` or the end; `parts` is the current alternative. -/
def readAlternatives : Nat → Reader → List Regex → Parts → List Char →
    Except Fault (Regex × Reader × List Char)
  | 0, _, _, _, _ => .error .tooDeep
  | fuel + 1, r, branches, parts, s => do
    let (sign, rest) ← readSign r parts.repeatable s
    match sign with
    | .close => return (alts (parts.toRegex :: branches).reverse, r, rest)
    | .bar => readAlternatives fuel r (parts.toRegex :: branches) [] rest
    | .opening (.flags f) => readAlternatives fuel ⟨f, r.names⟩ branches (none :: parts) rest
    | .opening (.body f name) =>
      match ← readAlternatives fuel (← r.enter f name) [] [] rest with
      | (inner, inside, ')' :: after) =>
        readAlternatives fuel ⟨r.flags, inside.names⟩ branches (some (named name inner) :: parts) after
      | _ => throw .unclosedGroup
    | .mark least most =>
      let (parts, after) ← r.repeatLast least most rest parts
      readAlternatives fuel r branches parts after
    | .part node => readAlternatives fuel r branches (some node :: parts) rest

def parse (s : List Char) : Except Fault Regex := do
  match ← readAlternatives (s.length + 1) ⟨.default, []⟩ [] [] s with
  | (r, _, []) => if r.size ≤ sizeLimit then return r else throw .tooLarge
  | _ => throw .unopenedGroup

/-- The text of an expression that matches exactly the given text. -/
def escape (s : List Char) : List Char := s.flatMap fun c => if isMeta c then ['\\', c] else [c]

end Switchyard.Regex
