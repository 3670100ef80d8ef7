import Switchyard.Yaml.Scalar
/-!
# YAML tokens

What a YAML text is made of, and the readers of those tokens that stand on their own: directives,
anchors and tags. Where blocks begin and end shows in the layout, not in signs.
-/

namespace Switchyard.Yaml

inductive Token where
  | version (major minor : Nat)
  | tagHandle (handle meaning : String)
  | documentStart
  | documentEnd
  | blockSequence
  | blockMapping
  | blockEnd
  | blockEntry
  | flowSequence
  | flowSequenceEnd
  | flowMapping
  | flowMappingEnd
  | flowEntry
  | key
  | value
  | alias (name : String)
  | anchor (name : String)
  | tag (handle suffix : String)
  | scalar (style : Style) (text : String)
  deriving DecidableEq, Repr

namespace Token

/-- Reads the name of an anchor or alias behind its sign. -/
def readName (p : Place) : Option (String × Place) :=
  let (name, p) := p.span isWord
  let ends := p.rest.head?.all fun c => isGap c || "?:,]\x7d%@`".toList.contains c
  if name.isEmpty || !ends then none else some (String.ofList name, p)

/-- The characters of tags beside those of words; brackets and commas only where a tag is closed by
an angle bracket. -/
def isTagChar (closed : Bool) (c : Char) : Bool :=
  isWord c || ";/?:@&=+$.%!~*'()".toList.contains c || (closed && ",[]".toList.contains c)

def unescapeTag : List Char → Option (List Char)
  | '%' :: a :: b :: rest => do
    let n ← Text.hexadecimal? [a, b]
    return Char.ofNat n :: (← unescapeTag rest)
  | '%' :: _ => none
  | c :: rest => return c :: (← unescapeTag rest)
  | [] => some []

/-- Reads the handle of a tag: one exclamation mark, or a word between two. -/
def readHandle (p : Place) : Option (List Char × Place) :=
  if !p.sees (· = '!') then none
  else
    let (word, q) := (p.skip 1).span isWord
    if q.sees (· = '!') then some ('!' :: word ++ ['!'], q.skip 1) else some ('!' :: word, q)

def readTagText (closed : Bool) (p : Place) : Option (List Char × Place) := do
  let (text, p) := p.span (isTagChar closed)
  return (← unescapeTag text, p)

/-- Reads a tag from its exclamation mark on. A tag without a handle has an empty one. -/
def readTag (inFlow : Bool) (p : Place) : Option (Token × Place) := do
  let (handle, suffix, p) ←
    if p.rest[1]? = some '<' then do
      let (text, p) ← readTagText true (p.skip 2)
      if text.isEmpty || !p.sees (· = '>') then none
      pure ([], text, p.skip 1)
    else do
      let (handle, p) ← readHandle p
      let (text, p) ← readTagText false p
      if handle.length > 1 && handle.getLast? = some '!' then
        if text.isEmpty then none
        pure (handle, text, p)
      else if handle.length = 1 && text.isEmpty then pure ([], ['!'], p)
      else pure (['!'], handle.tail ++ text, p)
  if !p.endsAt 0 && !(inFlow && p.sees (· = ',')) then none
  return (tag (String.ofList handle) (String.ofList suffix), p)

def readNumber (p : Place) : Option (Nat × Place) := do
  let (digits, p) := p.span Char.isDigit
  if digits.length > 9 then none
  return (← Text.decimal? digits, p)

def readDirectiveValue (name : List Char) (p : Place) : Option (Token × Place) := do
  match String.ofList name with
  | "YAML" =>
    let (major, p) ← readNumber (p.dropWhile isSpacing)
    if !p.sees (· = '.') then none
    let (minor, p) ← readNumber (p.skip 1)
    return (version major minor, p)
  | "TAG" =>
    let (handle, p) ← readHandle (p.dropWhile isSpacing)
    if handle.length > 1 && handle.getLast? ≠ some '!' then none
    if !p.sees isSpacing then none
    let (meaning, p) ← readTagText true (p.dropWhile isSpacing)
    if meaning.isEmpty || !p.endsAt 0 then none
    return (tagHandle (String.ofList handle) (String.ofList meaning), p)
  | _ => none

/-- Reads a directive from its percent sign on, with the rest of its line. -/
def readDirective (p : Place) : Option (Token × Place) := do
  let (name, p) := (p.skip 1).span isWord
  if name.isEmpty || !p.endsAt 0 then none
  let (token, p) ← readDirectiveValue name p
  let p := p.dropWhile isSpacing
  let p := if p.sees (· = '#') then p.dropWhile (!isBreak ·) else p
  if !p.rest.isEmpty && !p.sees isBreak then none
  return (token, p.takeBreak.2)

end Token

end Switchyard.Yaml
