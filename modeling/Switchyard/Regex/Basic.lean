import Switchyard.Regex.CharSet
/-!
# Regular expressions

Regular expressions with named groups, and how they match. Which places of a text can be reached
from others is computed for sets of places, so that no place is tried twice. Among the matches the
preferred one is found by trying alternatives from left to right and repetitions as their greed
says; it brings the texts of the named groups.
-/

namespace Switchyard

/-- A condition on a place in the text that uses up no character. -/
inductive Assertion where
  | textStart
  | textEnd
  | lineStart
  | lineEnd
  | lineStartCrlf
  | lineEndCrlf
  | wordBoundary (isWord : CharSet)
  | noWordBoundary (isWord : CharSet)
  | wordStart (isWord : CharSet)
  | wordEnd (isWord : CharSet)
  | wordStartHalf (isWord : CharSet)
  | wordEndHalf (isWord : CharSet)
  deriving DecidableEq, Repr

/-- A regular expression. Groups without a name do not occur: they leave no trace. -/
inductive Regex where
  | empty
  | set (chars : CharSet)
  | assert (condition : Assertion)
  | seq (first second : Regex)
  | alt (first second : Regex)
  | star (greedy : Bool) (body : Regex)
  | group (name : String) (body : Regex)
  deriving DecidableEq, Repr, Inhabited

/-- A text to be matched. A place in it is given by the number of characters before it. -/
abbrev Subject := Array Char

namespace Subject

def ofText (s : List Char) : Subject := s.toArray

def next? (t : Subject) (i : Nat) : Option Char := t[i]?

def last? (t : Subject) : Nat → Option Char
  | 0 => none
  | i + 1 => t[i]?

def between (t : Subject) (i j : Nat) : List Char := (t.extract i j).toList

def places (t : Subject) : List Nat := List.range (t.size + 1)

end Subject

/-- Whether a condition holds between two characters; at either end of the text one is missing. -/
def Assertion.holds : Assertion → Option Char → Option Char → Bool
  | textStart, last, _ => last.isNone
  | textEnd, _, next => next.isNone
  | lineStart, last, _ => last.all (· == '\n')
  | lineEnd, _, next => next.all (· == '\n')
  | lineStartCrlf, last, next => last.all (· == '\n') || (last == some '\r' && next != some '\n')
  | lineEndCrlf, last, next => next.all (· == '\r') || (next == some '\n' && last != some '\r')
  | wordBoundary w, last, next => last.any w.contains != next.any w.contains
  | noWordBoundary w, last, next => last.any w.contains == next.any w.contains
  | wordStart w, last, next => !last.any w.contains && next.any w.contains
  | wordEnd w, last, next => last.any w.contains && !next.any w.contains
  | wordStartHalf w, last, _ => !last.any w.contains
  | wordEndHalf w, _, next => !next.any w.contains

/-- The texts that the named groups matched, the latest for each name. -/
abbrev Groups := List (String × List Char)

namespace Groups

/-- Notes the text of a group in place of an earlier one. -/
def put (g : Groups) (name : String) (text : List Char) : Groups :=
  (name, text) :: g.filter fun p => p.1 != name

/-- The text of a group that took part in the match. -/
def get? (g : Groups) (name : String) : Option (List Char) :=
  (g.find? fun p => p.1 == name).map (·.2)

end Groups

namespace Regex

/-- The places that are not marked yet, each once, and all marks with them. -/
def unmarked (marks : Array Bool) : List Nat → List Nat × Array Bool
  | [] => ([], marks)
  | i :: rest =>
    if marks[i]? = some false then
      let (new, marks) := unmarked (marks.setIfInBounds i true) rest
      (i :: new, marks)
    else unmarked marks rest

/-- Marks for the places of a text, none of them set. -/
def noMarks (t : Subject) : Array Bool := Array.replicate (t.size + 1) false

/-- Repeats a step from the places that were found last until it finds no more. -/
def spread (step : List Nat → List Nat) : Nat → Array Bool → List Nat → List Nat
  | 0, _, found => found
  | fuel + 1, marks, found =>
    let (new, marks) := unmarked marks (step found)
    if new.isEmpty then found else found ++ spread step fuel marks new

/-- The places where an expression can end that begins at one of some places. -/
def ends (t : Subject) : Regex → List Nat → List Nat
  | empty, begins => begins
  | set chars, begins => (begins.filter fun i => (t.next? i).any chars.contains).map (· + 1)
  | assert condition, begins => begins.filter fun i => condition.holds (t.last? i) (t.next? i)
  | seq r s, begins => ends t s (ends t r begins)
  | alt r s, begins => (unmarked (noMarks t) (ends t r begins ++ ends t s begins)).1
  | star _ r, begins =>
    let (new, marks) := unmarked (noMarks t) begins
    spread (ends t r) (t.size + 1) marks new
  | group _ r, begins => ends t r begins

def isMatch (r : Regex) (s : List Char) : Bool :=
  let t := Subject.ofText s
  !(r.ends t t.places).isEmpty

/-- What remains to be matched, as a function of the place and the groups so far. -/
abbrev Rest := Nat → Groups → Option Groups

/-- Repeats a step until it makes no more progress; `fuel` bounds the number of repetitions. -/
def runStar (step : Nat → Groups → Rest → Option Groups) (greedy : Bool) :
    Nat → Nat → Groups → Rest → Option Groups
  | 0, i, g, k => k i g
  | fuel + 1, i, g, k =>
    let next : Rest := fun j g => if i < j then runStar step greedy fuel j g k else k j g
    if greedy then (step i g next).orElse fun _ => k i g
    else (k i g).orElse fun _ => step i g next

/-- Matches an expression at a place and then the rest, the preferred way first. -/
def run (t : Subject) : Regex → Nat → Groups → Rest → Option Groups
  | empty, i, g, k => k i g
  | set chars, i, g, k => if (t.next? i).any chars.contains then k (i + 1) g else none
  | assert condition, i, g, k => if condition.holds (t.last? i) (t.next? i) then k i g else none
  | seq r s, i, g, k => run t r i g fun j g => run t s j g k
  | alt r s, i, g, k => (run t r i g k).orElse fun _ => run t s i g k
  | star greedy r, i, g, k => runStar (run t r) greedy (t.size - i + 1) i g k
  | group name r, i, g, k => run t r i g fun j g => k j (g.put name (t.between i j))

/-- The groups of the preferred match at the leftmost place that has one. -/
def search (r : Regex) (s : List Char) : Option Groups :=
  let t := Subject.ofText s
  if r.isMatch s then t.places.findSome? fun i => r.run t i [] fun _ g => some g else none

def never : Regex := set CharSet.empty

def char (c : Char) : Regex := set (CharSet.singleton c)

def seqs : List Regex → Regex
  | [] => empty
  | [r] => r
  | r :: rest => seq r (seqs rest)

def alts : List Regex → Regex
  | [] => never
  | [r] => r
  | r :: rest => alt r (alts rest)

def optional (greedy : Bool) (r : Regex) : Regex := if greedy then alt r empty else alt empty r

def plus (greedy : Bool) (r : Regex) : Regex := seq r (star greedy r)

def exactly (r : Regex) : Nat → Regex
  | 0 => empty
  | 1 => r
  | n + 1 => seq r (exactly r n)

def atMost (greedy : Bool) (r : Regex) : Nat → Regex
  | 0 => empty
  | 1 => optional greedy r
  | n + 1 => optional greedy (seq r (atMost greedy r n))

def isZeroWidth : Regex → Bool
  | empty | assert _ => true
  | set _ => false
  | seq r s | alt r s => r.isZeroWidth && s.isZeroWidth
  | star _ r | group _ r => r.isZeroWidth

/-- The room that an expression takes, about that of its states in bytes. -/
def size : Regex → Nat
  | empty => 0
  | assert _ => 32
  | set chars => if chars.isAscii then 32 + 8 * chars.ranges.length else 400 + 64 * chars.ranges.length
  | seq r s => r.size + s.size
  | alt r s => r.size + s.size + 40
  | star _ r | group _ r => r.size + 64

def sizeLimit : Nat := 10 * 1024 * 1024

/-- From `least` to `most` occurrences, without an upper bound when `most` is missing. -/
def repeats (greedy : Bool) (r : Regex) (least : Nat) : Option Nat → Regex
  | none =>
    if least = 0 then star greedy r
    else if least = 1 then plus greedy r
    else seq (exactly r (least - 1)) (plus greedy r)
  | some most =>
    if least = 0 then atMost greedy r most
    else if most = least then exactly r least
    else seq (exactly r least) (atMost greedy r (most - least))

end Regex

end Switchyard
