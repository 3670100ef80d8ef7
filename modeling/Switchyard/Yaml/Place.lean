import Switchyard.Text.Cut
/-!
# Places in a YAML text

The characters of YAML texts, and the place that a reader has reached in one. Columns matter: the
nesting of blocks is written by indentation.
-/

namespace Switchyard.Yaml

/-- Line breaks; a carriage return with a line feed behind it is one break. -/
def isBreak (c : Char) : Bool :=
  c = '\n' || c = '\r' || c.val = 0x85 || c.val = 0x2028 || c.val = 0x2029

def isSpacing (c : Char) : Bool := c = ' ' || c = '\t'

def isGap (c : Char) : Bool := isSpacing c || isBreak c

def isWord (c : Char) : Bool := c.isAlphanum || c = '_' || c = '-'

/-- The characters that may stand in a text at all: no control characters but tab and breaks. -/
def isAllowed (c : Char) : Bool :=
  c = '\t' || c = '\n' || c = '\r' || (0x20 ≤ c.val && c.val ≤ 0x7E) || c.val = 0x85 ||
    (0xA0 ≤ c.val && c.val ≤ 0xFFFD) || 0x10000 ≤ c.val

/-- What is still to be read, and where that begins. -/
structure Place where
  rest : List Char
  index : Nat := 0
  line : Nat := 0
  column : Nat := 0

namespace Place

def head? (p : Place) : Option Char := p.rest.head?

def sees (p : Place) (f : Char → Bool) : Bool := p.head?.any f

/-- True when a blank, a break or the end is `n` characters ahead. -/
def endsAt (p : Place) (n : Nat) : Bool := p.rest[n]?.all isGap

def skip (p : Place) (n : Nat) : Place :=
  { p with rest := p.rest.drop n, index := p.index + n, column := p.column + n }

/-- The characters up to the first that does not satisfy `f`, and the place there. -/
def span (p : Place) (f : Char → Bool) : List Char × Place :=
  let taken := p.rest.takeWhile f
  (taken, p.skip taken.length)

def dropWhile (p : Place) (f : Char → Bool) : Place := (p.span f).2

/-- Takes a line break. Breaks read as line feeds, apart from the two separators of Unicode. -/
def takeBreak (p : Place) : List Char × Place :=
  let next (rest : List Char) (width : Nat) : Place :=
    { rest, index := p.index + width, line := p.line + 1, column := 0 }
  match p.rest with
  | '\r' :: '\n' :: rest => (['\n'], next rest 2)
  | c :: rest =>
    if c = '\n' || c = '\r' || c.val = 0x85 then (['\n'], next rest 1)
    else if isBreak c then ([c], next rest 1)
    else ([], p)
  | [] => ([], p)

/-- True at the beginning of a line that marks the start or end of a document. -/
def isMarker (p : Place) : Bool :=
  p.column = 0 && p.endsAt 3 &&
    (Text.startsWith ['-', '-', '-'] p.rest || Text.startsWith ['.', '.', '.'] p.rest)

end Place

end Switchyard.Yaml
