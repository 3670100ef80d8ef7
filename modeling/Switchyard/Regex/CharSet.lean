import Switchyard.Text.Ascii
import Switchyard.Text.CaseFold
import Switchyard.Text.GeneralCategory
/-!
# Character sets

Sets of code points as lists of inclusive ranges. A set need not be sorted: membership is all
that a matcher asks of it, and complement and intersection sort first.
-/

namespace Switchyard

/-- A set of code points: the union of inclusive ranges. -/
structure CharSet where
  ranges : List (Nat × Nat)
  deriving Repr, DecidableEq, Inhabited

namespace CharSet

def maxCode : Nat := 0x10FFFF

def empty : CharSet := ⟨[]⟩

def all : CharSet := ⟨[(0, maxCode)]⟩

def ofRange (first last : Nat) : CharSet := ⟨[(first, last)]⟩

def singleton (c : Char) : CharSet := ⟨[(c.toNat, c.toNat)]⟩

def hasCode (s : CharSet) (n : Nat) : Bool :=
  s.ranges.any fun (first, last) => first ≤ n && n ≤ last

def contains (s : CharSet) (c : Char) : Bool := s.hasCode c.toNat

def union (s t : CharSet) : CharSet := ⟨s.ranges ++ t.ranges⟩

/-- Merges ranges that overlap or touch into the range from `a` to `b`, or into each other. They
are sorted by first code point and none begins before `a`. -/
def mergeFrom (a b : Nat) : List (Nat × Nat) → List (Nat × Nat)
  | [] => [(a, b)]
  | (c, d) :: rest =>
    if c ≤ b + 1 then mergeFrom a (max b d) rest else (a, b) :: mergeFrom c d rest

/-- The same set with its ranges sorted, apart and not touching. -/
def normalize (s : CharSet) : CharSet :=
  match s.ranges.mergeSort fun r r' => r.1 ≤ r'.1 with
  | [] => empty
  | (a, b) :: rest => ⟨mergeFrom a b rest⟩

def gaps (start : Nat) : List (Nat × Nat) → List (Nat × Nat)
  | [] => if start ≤ maxCode then [(start, maxCode)] else []
  | (a, b) :: rest => if start < a then (start, a - 1) :: gaps (b + 1) rest else gaps (b + 1) rest

def complement (s : CharSet) : CharSet := ⟨gaps 0 s.normalize.ranges⟩

def inter (s t : CharSet) : CharSet :=
  ⟨s.ranges.flatMap fun (a, b) => t.ranges.filterMap fun (c, d) =>
    if max a c ≤ min b d then some (max a c, min b d) else none⟩

def diff (s t : CharSet) : CharSet := s.inter t.complement

def symmDiff (s t : CharSet) : CharSet := (s.diff t).union (t.diff s)

/-- Adds every code point that equals a member up to case. -/
def foldClosure (s : CharSet) : CharSet :=
  let targets := Text.foldPairs.filter fun (n, f) => s.hasCode n || s.hasCode f
  let folds := targets.map (·.2)
  let others := Text.foldPairs.filter fun (_, f) => folds.contains f
  ⟨s.ranges ++ folds.map (fun n => (n, n)) ++ others.map (fun p => (p.1, p.1))⟩

def asciiFoldClosure (s : CharSet) : CharSet :=
  s.union ⟨s.ranges.flatMap fun (first, last) =>
    let shift (a b n : Nat) : List (Nat × Nat) :=
      if max first a ≤ min last b then [(max first a + n - 0x20, min last b + n - 0x20)] else []
    shift 0x41 0x5A 0x40 ++ shift 0x61 0x7A 0⟩

def isAscii (s : CharSet) : Bool := s.ranges.all fun (_, last) => last < 0x80

def digits : CharSet := ⟨Text.categoryRanges (· == .decimalNumber)⟩

def blanks : CharSet :=
  ⟨[(9, 13), (0x20, 0x20), (0x85, 0x85), (0xA0, 0xA0), (0x1680, 0x1680), (0x2000, 0x200A),
    (0x2028, 0x2029), (0x202F, 0x202F), (0x205F, 0x205F), (0x3000, 0x3000)]⟩

private def circledLetters : List (Nat × Nat) :=
  [(0x24B6, 0x24E9), (0x1F130, 0x1F149), (0x1F150, 0x1F169), (0x1F170, 0x1F189)]

/-- Letters of all scripts, with the marks that count as letters. -/
def alphabetic : CharSet :=
  ⟨circledLetters ++ Text.categoryRanges fun
    | .uppercaseLetter | .lowercaseLetter | .titlecaseLetter | .modifierLetter | .otherLetter
    | .letterNumber => true
    | _ => false⟩

/-- Characters of words: letters, marks, decimal digits, connectors and the two joiners. -/
def wordChars : CharSet :=
  ⟨[(0x200C, 0x200D)] ++ circledLetters ++ Text.categoryRanges fun
    | .uppercaseLetter | .lowercaseLetter | .titlecaseLetter | .modifierLetter | .otherLetter
    | .letterNumber | .nonspacingMark | .spacingMark | .enclosingMark | .decimalNumber
    | .connectorPunctuation => true
    | _ => false⟩

def asciiDigits : CharSet := ofRange 0x30 0x39

def asciiBlanks : CharSet := ⟨[(9, 13), (0x20, 0x20)]⟩

def asciiWordChars : CharSet := ⟨[(0x30, 0x39), (0x41, 0x5A), (0x5F, 0x5F), (0x61, 0x7A)]⟩

def asciiNamed? : String → Option CharSet
  | "alnum" => some ⟨[(0x30, 0x39), (0x41, 0x5A), (0x61, 0x7A)]⟩
  | "alpha" => some ⟨[(0x41, 0x5A), (0x61, 0x7A)]⟩
  | "ascii" => some ⟨[(0, 0x7F)]⟩
  | "blank" => some ⟨[(9, 9), (0x20, 0x20)]⟩
  | "cntrl" => some ⟨[(0, 0x1F), (0x7F, 0x7F)]⟩
  | "digit" => some asciiDigits
  | "graph" => some ⟨[(0x21, 0x7E)]⟩
  | "lower" => some ⟨[(0x61, 0x7A)]⟩
  | "print" => some ⟨[(0x20, 0x7E)]⟩
  | "punct" => some ⟨[(0x21, 0x2F), (0x3A, 0x40), (0x5B, 0x60), (0x7B, 0x7E)]⟩
  | "space" => some asciiBlanks
  | "upper" => some ⟨[(0x41, 0x5A)]⟩
  | "word" => some asciiWordChars
  | "xdigit" => some ⟨[(0x30, 0x39), (0x41, 0x46), (0x61, 0x66)]⟩
  | _ => none

/-- The general categories that a name stands for; the name has lower-case letters only. -/
def categoryNamed? (name : String) : Option (Text.Category → Bool) :=
  let major (c : Char) : Text.Category → Bool := fun k => k.letters.toList.head? == some c
  let exactly (k : Text.Category) : Text.Category → Bool := (· == k)
  match name with
  | "l" | "letter" => some (major 'L')
  | "lc" | "casedletter" => some fun
    | .uppercaseLetter | .lowercaseLetter | .titlecaseLetter => true
    | _ => false
  | "lu" | "uppercaseletter" => some (exactly .uppercaseLetter)
  | "ll" | "lowercaseletter" => some (exactly .lowercaseLetter)
  | "lt" | "titlecaseletter" => some (exactly .titlecaseLetter)
  | "lm" | "modifierletter" => some (exactly .modifierLetter)
  | "lo" | "otherletter" => some (exactly .otherLetter)
  | "m" | "mark" | "combiningmark" => some (major 'M')
  | "mn" | "nonspacingmark" => some (exactly .nonspacingMark)
  | "mc" | "spacingmark" => some (exactly .spacingMark)
  | "me" | "enclosingmark" => some (exactly .enclosingMark)
  | "n" | "number" => some (major 'N')
  | "nd" | "decimalnumber" | "digit" => some (exactly .decimalNumber)
  | "nl" | "letternumber" => some (exactly .letterNumber)
  | "no" | "othernumber" => some (exactly .otherNumber)
  | "p" | "punctuation" | "punct" => some (major 'P')
  | "pc" | "connectorpunctuation" => some (exactly .connectorPunctuation)
  | "pd" | "dashpunctuation" => some (exactly .dashPunctuation)
  | "ps" | "openpunctuation" => some (exactly .openPunctuation)
  | "pe" | "closepunctuation" => some (exactly .closePunctuation)
  | "pi" | "initialpunctuation" => some (exactly .initialPunctuation)
  | "pf" | "finalpunctuation" => some (exactly .finalPunctuation)
  | "po" | "otherpunctuation" => some (exactly .otherPunctuation)
  | "s" | "symbol" => some (major 'S')
  | "sm" | "mathsymbol" => some (exactly .mathSymbol)
  | "sc" | "currencysymbol" => some (exactly .currencySymbol)
  | "sk" | "modifiersymbol" => some (exactly .modifierSymbol)
  | "so" | "othersymbol" => some (exactly .otherSymbol)
  | "z" | "separator" => some (major 'Z')
  | "zs" | "spaceseparator" => some (exactly .spaceSeparator)
  | "zl" | "lineseparator" => some (exactly .lineSeparator)
  | "zp" | "paragraphseparator" => some (exactly .paragraphSeparator)
  | "c" | "other" => some (major 'C')
  | "cc" | "control" | "cntrl" => some (exactly .control)
  | "cf" | "format" => some (exactly .format)
  | "co" | "privateuse" => some (exactly .privateUse)
  | "cn" | "unassigned" => some (exactly .unassigned)
  | "assigned" => some (· != .unassigned)
  | _ => none

/-- The scripts that can be named, each with the ranges that hold its characters. -/
def scriptNamed? : String → Option CharSet
  | "latin" | "latn" => some ⟨[(0x41, 0x5A), (0x61, 0x7A), (0xAA, 0xAA), (0xBA, 0xBA), (0xC0, 0xD6),
      (0xD8, 0xF6), (0xF8, 0x2B8), (0x2E0, 0x2E4), (0x1D00, 0x1D25), (0x1D2C, 0x1D5C),
      (0x1D62, 0x1D65), (0x1D6B, 0x1D77), (0x1D79, 0x1DBE), (0x1E00, 0x1EFF), (0x2071, 0x2071),
      (0x207F, 0x207F), (0x2090, 0x209C), (0x212A, 0x212B), (0x2132, 0x2132), (0x214E, 0x214E),
      (0x2160, 0x2188), (0x2C60, 0x2C7F), (0xA722, 0xA787), (0xA78B, 0xA7CD), (0xA7D0, 0xA7D1),
      (0xA7D3, 0xA7D3), (0xA7D5, 0xA7DC), (0xA7F2, 0xA7FF), (0xAB30, 0xAB5A), (0xAB5C, 0xAB64),
      (0xAB66, 0xAB69), (0xFB00, 0xFB06), (0xFF21, 0xFF3A), (0xFF41, 0xFF5A), (0x10780, 0x10785),
      (0x10787, 0x107B0), (0x107B2, 0x107BA), (0x1DF00, 0x1DF1E), (0x1DF25, 0x1DF2A)]⟩
  | "greek" | "grek" => some ⟨[(0x370, 0x373), (0x375, 0x377), (0x37A, 0x37D), (0x37F, 0x37F),
      (0x384, 0x384), (0x386, 0x386), (0x388, 0x38A), (0x38C, 0x38C), (0x38E, 0x3A1),
      (0x3A3, 0x3E1), (0x3F0, 0x3FF), (0x1D26, 0x1D2A), (0x1D5D, 0x1D61), (0x1D66, 0x1D6A),
      (0x1DBF, 0x1DBF), (0x1F00, 0x1F15), (0x1F18, 0x1F1D), (0x1F20, 0x1F45), (0x1F48, 0x1F4D),
      (0x1F50, 0x1F57), (0x1F59, 0x1F59), (0x1F5B, 0x1F5B), (0x1F5D, 0x1F5D), (0x1F5F, 0x1F7D),
      (0x1F80, 0x1FB4), (0x1FB6, 0x1FC4), (0x1FC6, 0x1FD3), (0x1FD6, 0x1FDB), (0x1FDD, 0x1FEF),
      (0x1FF2, 0x1FF4), (0x1FF6, 0x1FFE), (0x2126, 0x2126), (0xAB65, 0xAB65), (0x10140, 0x1018E),
      (0x101A0, 0x101A0), (0x1D200, 0x1D245)]⟩
  | "cyrillic" | "cyrl" => some ⟨[(0x400, 0x484), (0x487, 0x52F), (0x1C80, 0x1C8A), (0x1D2B, 0x1D2B),
      (0x1D78, 0x1D78), (0x2DE0, 0x2DFF), (0xA640, 0xA69F), (0xFE2E, 0xFE2F), (0x1E030, 0x1E06D),
      (0x1E08F, 0x1E08F)]⟩
  | "hebrew" | "hebr" => some ⟨[(0x591, 0x5C7), (0x5D0, 0x5EA), (0x5EF, 0x5F4), (0xFB1D, 0xFB36),
      (0xFB38, 0xFB3C), (0xFB3E, 0xFB3E), (0xFB40, 0xFB41), (0xFB43, 0xFB44), (0xFB46, 0xFB4F)]⟩
  | "hiragana" | "hira" => some ⟨[(0x3041, 0x3096), (0x309D, 0x309F), (0x1B001, 0x1B11F),
      (0x1B132, 0x1B132), (0x1B150, 0x1B152), (0x1F200, 0x1F200)]⟩
  | "katakana" | "kana" => some ⟨[(0x30A1, 0x30FA), (0x30FD, 0x30FF), (0x31F0, 0x31FF),
      (0x32D0, 0x32FE), (0x3300, 0x3357), (0xFF66, 0xFF6F), (0xFF71, 0xFF9D), (0x1B000, 0x1B000)]⟩
  | "han" | "hani" => some ⟨[(0x2E80, 0x2E99), (0x2E9B, 0x2EF3), (0x2F00, 0x2FD5), (0x3005, 0x3005),
      (0x3007, 0x3007), (0x3021, 0x3029), (0x3038, 0x303B), (0x3400, 0x4DBF), (0x4E00, 0x9FFF),
      (0xF900, 0xFA6D), (0xFA70, 0xFAD9), (0x16FE2, 0x16FE3), (0x16FF0, 0x16FF1),
      (0x20000, 0x2A6DF), (0x2A700, 0x2B739), (0x2B740, 0x2B81D), (0x2B820, 0x2CEA1),
      (0x2CEB0, 0x2EBE0), (0x2EBF0, 0x2EE5D), (0x2F800, 0x2FA1D), (0x30000, 0x3134A),
      (0x31350, 0x323AF)]⟩
  | _ => none

def propertyNamed? : String → Option CharSet
  | "any" => some all
  | "ascii" => some ⟨[(0, 0x7F)]⟩
  | "alphabetic" | "alpha" => some alphabetic
  | "whitespace" | "space" | "wspace" => some blanks
  | "uppercase" | "upper" => some ⟨[(0x2160, 0x216F), (0x24B6, 0x24CF), (0x1F130, 0x1F149),
      (0x1F150, 0x1F169), (0x1F170, 0x1F189)] ++ Text.categoryRanges (· == .uppercaseLetter)⟩
  | "lowercase" | "lower" => some ⟨[(0xAA, 0xAA), (0xBA, 0xBA), (0x2B0, 0x2B8), (0x2C0, 0x2C1),
      (0x2E0, 0x2E4), (0x345, 0x345), (0x37A, 0x37A), (0x2071, 0x2071), (0x207F, 0x207F),
      (0x2170, 0x217F), (0x24D0, 0x24E9)] ++ Text.categoryRanges (· == .lowercaseLetter)⟩
  | _ => none

/-- Names are compared without blanks, hyphens, low lines and letter case. -/
def looseName (name : List Char) : String :=
  String.ofList ((name.map Char.toLower).filter fun c => c != ' ' && c != '_' && c != '-')

def named? (name : List Char) : Option CharSet :=
  let loose := looseName name
  (propertyNamed? loose).orElse fun _ =>
    ((categoryNamed? loose).map fun p => (⟨Text.categoryRanges p⟩ : CharSet)).orElse fun _ =>
      scriptNamed? loose

/-- The set of characters for which the named property has the named value. -/
def namedValue? (property value : List Char) : Option CharSet :=
  match looseName property with
  | "gc" | "generalcategory" =>
    (categoryNamed? (looseName value)).map fun p => ⟨Text.categoryRanges p⟩
  | "sc" | "script" | "scx" | "scriptextensions" => scriptNamed? (looseName value)
  | _ => none

end CharSet

end Switchyard
