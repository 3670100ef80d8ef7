import Switchyard.Http.Query
import Switchyard.Text.CaseFold
/-!
# Hosts

The host of an address: a domain name in its ASCII form, an IPv4 or IPv6 address, or, under a
scheme that is not special, a text left as it stands. A label that is in its ASCII form already is
kept; what one behind `xn--` stands for is not looked at.
-/

namespace Switchyard

/-- The host of an address. -/
inductive Host where
  | domain (name : String)
  | ipv4 (address : Nat)
  | ipv6 (pieces : List Nat)
  deriving DecidableEq, Repr

namespace Host

def same : Host → Host → Bool
  | domain a, domain b => Text.sameFold a b
  | a, b => a == b

/-- A part of an IPv4 address: octal behind `0`, hexadecimal behind `0x`, else decimal. -/
def ipv4Part? (s : List Char) : Option Nat :=
  match s with
  | [] => none
  | ['0'] => some 0
  | '0' :: x :: rest =>
    if x = 'x' || x = 'X' then if rest.isEmpty then some 0 else Text.hexadecimal? rest
    else Text.digits? (fun c => (Text.decimalValue? c).filter (· < 8)) 8 (x :: rest)
  | s => Text.decimal? s

/-- The parts between dots; a last empty part does not count. -/
def dotParts (s : List Char) : List (List Char) :=
  let parts := s.splitOn '.'
  if parts.getLast? = some [] then parts.dropLast else parts

/-- Whether the last part of a name is a number, so that the whole must be an IPv4 address. -/
def endsInNumber (s : List Char) : Bool :=
  match (s.splitOn '.').reverse with
  | [] => false
  | [[]] => false
  | [] :: last :: _ => isNumber last
  | last :: _ => isNumber last
where
  isNumber (last : List Char) : Bool :=
    (!last.isEmpty && last.all Char.isDigit) || (ipv4Part? last).isSome

/-- Reads an IPv4 address. The last part fills all bytes that the parts before it leave. -/
def ipv4? (s : List Char) : Option Nat := do
  let numbers ← (dotParts s).mapM ipv4Part?
  let last ← numbers.getLast?
  let bytes := numbers.dropLast
  if 3 < bytes.length || bytes.any (255 < ·) || 1 <<< (8 * (4 - bytes.length)) ≤ last then none
  else some (bytes.foldr (fun b n => (b <<< 24) + n / 256) 0 + last)

private def group? (s : List Char) : Option Nat :=
  if s.length ≤ 4 then Text.hexadecimal? s else none

private def dottedGroups? (s : List Char) : Option (List Nat) := do
  let bytes ← (s.splitOn '.').mapM fun part =>
    if 1 < part.length && part.head? = some '0' then none else (Text.decimal? part).filter (· < 256)
  match bytes with
  | [a, b, c, d] => some [a * 256 + b, c * 256 + d]
  | _ => none

/-- The groups of a row between colons; the last may be an IPv4 address where that is allowed. -/
private def groups? (atEnd : Bool) (s : List Char) : Option (List Nat) :=
  if s.isEmpty then some []
  else
    match (s.splitOn ':').reverse with
    | [] => some []
    | last :: before => do
      let tail ← if atEnd && last.contains '.' then dottedGroups? last
        else (group? last).map fun n => [n]
      return (← before.reverse.mapM group?) ++ tail

private def cutDoubleColon : List Char → Option (List Char × List Char)
  | [] => none
  | ':' :: ':' :: rest => some ([], rest)
  | c :: rest => (cutDoubleColon rest).map fun (before, after) => (c :: before, after)

/-- Reads an IPv6 address as eight groups; a double colon stands for one zero group or more. -/
def ipv6? (s : List Char) : Option (List Nat) :=
  match cutDoubleColon s with
  | none => (groups? true s).filter fun g => g.length = 8 && !s.isEmpty
  | some (before, after) => do
    let left ← groups? false before
    let right ← groups? true after
    if left.length + right.length ≤ 7 then
      some (left ++ List.replicate (8 - left.length - right.length) 0 ++ right)
    else none

def isForbiddenInDomain (c : Char) : Bool :=
  c.toNat ≤ 0x20 || c.toNat = 0x7F || "#/:<>?@[\\]^|%".toList.contains c

def isForbiddenInText (c : Char) : Bool :=
  c.toNat = 0 || "\t\n\r #/:<>?@[\\]^|".toList.contains c

/-- A character of a domain name in its normal form, or nothing for one that is left out. -/
def normalChar (c : Char) : List Char :=
  let n := c.toNat
  if n = 0xAD || n = 0x200B || n = 0x2060 || n = 0xFEFF then []
  else if n = 0x3002 || n = 0xFF0E || n = 0xFF61 then ['.']
  else if 0xFF01 ≤ n && n ≤ 0xFF5E then [(Char.ofNat (n - 0xFEE0)).toLower]
  else [Char.ofNat (Text.simpleFold n)]

private def punyDigit (n : Nat) : Char :=
  if n < 26 then Char.ofNat (97 + n) else Char.ofNat (22 + n)

/-- The bias for the next number, from the difference just written. -/
private def adapt (delta count : Nat) (first : Bool) : Nat :=
  let d := if first then delta / 700 else delta / 2
  go (d + d / count) 0 64
where
  go (d k : Nat) : Nat → Nat
    | 0 => k
    | fuel + 1 => if 455 < d then go (d / 35) (k + 36) fuel else k + 36 * d / (d + 38)

private def punyNumber (bias q k : Nat) : Nat → List Char
  | 0 => []
  | fuel + 1 =>
    let t := if k ≤ bias then 1 else if bias + 26 ≤ k then 26 else k - bias
    if q < t then [punyDigit q]
    else punyDigit (t + (q - t) % (36 - t)) :: punyNumber bias ((q - t) / (36 - t)) (k + 36) fuel

/-- The state of the encoder: next code point, difference, bias, characters done, text so far. -/
private structure Puny where
  n : Nat
  delta : Nat
  bias : Nat
  handled : Nat
  out : List Char

private def punyStep (basic : Nat) (label : List Nat) (p : Puny) : Puny :=
  match (label.filter (p.n ≤ ·)).min? with
  | none => p
  | some m =>
    let start := { p with delta := p.delta + (m - p.n) * (p.handled + 1), n := m }
    let done := label.foldl (fun p c =>
      if c < p.n then { p with delta := p.delta + 1 }
      else if c = p.n then
        { p with
          out := p.out ++ punyNumber p.bias p.delta 36 64
          bias := adapt p.delta (p.handled + 1) (p.handled == basic)
          delta := 0
          handled := p.handled + 1 }
      else p) start
    { done with delta := done.delta + 1, n := done.n + 1 }

/-- The ASCII form of a label that has characters beyond ASCII. -/
def punycode (label : List Char) : List Char :=
  let basic := label.filter fun c => c.toNat < 0x80
  let start : Puny :=
    ⟨0x80, 0, 72, basic.length, if basic.isEmpty then [] else basic ++ ['-']⟩
  (label.foldl (fun p _ => punyStep basic.length (label.map Char.toNat) p) start).out

def asciiLabel (label : List Char) : List Char :=
  if label.all fun c => c.toNat < 0x80 then label else "xn--".toList ++ punycode label

/-- The ASCII form of a domain name, refused when it holds a forbidden character. -/
def asciiDomain? (s : List Char) : Option (List Char) :=
  let bytes := Query.percentDecode (Text.utf8 s)
  let text := Text.ofUtf8 bytes
  if Text.utf8 text != bytes then none
  else
    let labels := (text.flatMap normalChar).splitOn '.'
    let name := ['.'].intercalate (labels.map asciiLabel)
    if name.any isForbiddenInDomain then none else some name

private def bracketed? (s : List Char) : Option Host :=
  match s.reverse with
  | ']' :: inner => (ipv6? inner.reverse).map ipv6
  | _ => none

def parse? : List Char → Option Host
  | '[' :: rest => bracketed? rest
  | s =>
    match asciiDomain? s with
    | none => none
    | some [] => none
    | some name =>
      if endsInNumber name then (ipv4? name).map ipv4 else some (domain (String.ofList name))

def parseText? : List Char → Option Host
  | '[' :: rest => bracketed? rest
  | s => if s.any isForbiddenInText then none else some (domain (String.ofList s))

end Host

end Switchyard
