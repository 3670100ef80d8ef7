import Switchyard.Text.Ascii
/-!
# Quality values

The quality of a media type is a number written in decimal and kept in double precision. A value
is its 64 bits; the order of all values, not-a-number included, is the total order on those bits.
-/

namespace Switchyard

/-- A double-precision number as its bits: sign, exponent and fraction. -/
structure Quality where
  bits : Nat
  deriving DecidableEq, Repr, Inhabited

namespace Quality

def signBit : Nat := 1 <<< 63

def infinity : Quality := ⟨0x7FF0000000000000⟩

def notANumber : Quality := ⟨0x7FF8000000000000⟩

def zero : Quality := ⟨0⟩

def one : Quality := ⟨0x3FF0000000000000⟩

def negate (q : Quality) : Quality :=
  ⟨if q.bits < signBit then q.bits + signBit else q.bits - signBit⟩

/-- The quotient of two numbers rounded to the nearest whole number, a half to the even one. -/
def roundDiv (num den : Nat) : Nat :=
  let q := num / den
  let r := num % den
  if 2 * r < den then q
  else if den < 2 * r then q + 1
  else if q % 2 = 0 then q else q + 1

/-- The double nearest to `num / den`, of two equally near ones the one with an even fraction. -/
def ofRatio (num den : Nat) : Quality :=
  if num = 0 then zero
  else
    let guess : Int := (Nat.log2 num : Int) - Nat.log2 den
    let reaches (e : Int) : Bool := if 0 ≤ e then den <<< e.toNat ≤ num else den ≤ num <<< (-e).toNat
    let exponent := if reaches guess then guess else guess - 1
    let shift : Int := min (52 - exponent) 1074
    let fraction :=
      if 0 ≤ shift then roundDiv (num <<< shift.toNat) den
      else roundDiv num (den <<< (-shift).toNat)
    let bits :=
      if exponent < -1022 then fraction
      else ((exponent + 1022).toNat <<< 52) + fraction
    if infinity.bits ≤ bits then infinity else ⟨bits⟩

/-- The double nearest to `digits * 10 ^ exponent`, where `digits` has `count` decimal digits. -/
def ofDecimal (digits count : Nat) (exponent : Int) : Quality :=
  if digits = 0 then zero
  else if (count : Int) + exponent > 400 then infinity
  else if (count : Int) + exponent < -400 then zero
  else if 0 ≤ exponent then ofRatio (digits * Nat.pow 10 exponent.toNat) 1
  else ofRatio digits (Nat.pow 10 (-exponent).toNat)

/-- Reads an exponent: a sign and digits that end the text. -/
private def exponent? : List Char → Option Int
  | '-' :: rest => (Text.decimal? rest).map fun n => -(n : Int)
  | '+' :: rest => (Text.decimal? rest).map fun n => (n : Int)
  | rest => (Text.decimal? rest).map fun n => (n : Int)

/-- Reads digits with at most one point among them and an optional exponent. -/
private def magnitude? (s : List Char) : Option Quality :=
  let whole := s.takeWhile Char.isDigit
  let rest := s.drop whole.length
  let (fraction, rest) := match rest with
    | '.' :: after =>
      let fraction := after.takeWhile Char.isDigit
      (fraction, after.drop fraction.length)
    | _ => ([], rest)
  match Text.decimal? (whole ++ fraction) with
  | none => none
  | some digits =>
    let count := (Nat.toDigits 10 digits).length
    match rest with
    | [] => some (ofDecimal digits count (-(fraction.length : Int)))
    | c :: rest =>
      if c = 'e' || c = 'E' then
        (exponent? rest).map fun e => ofDecimal digits count (e - fraction.length)
      else none

/-- Reads a number without its sign; `inf`, `infinity` and `nan` count in any letter case. -/
private def unsigned? (s : List Char) : Option Quality :=
  let word := s.map Char.toLower
  if word = "inf".toList || word = "infinity".toList then some infinity
  else if word = "nan".toList then some notANumber
  else magnitude? s

/-- Reads a number, with or without a sign, that takes up the whole text. -/
def parse? : List Char → Option Quality
  | '-' :: rest => (unsigned? rest).map negate
  | '+' :: rest => unsigned? rest
  | s => unsigned? s

/-- The place of a value in the total order: negative values lie below all others. -/
def rank (q : Quality) : Int :=
  if q.bits < signBit then q.bits else -((q.bits - signBit : Nat) : Int) - 1

/-- The total order: `-nan < -inf < … < -0 < 0 < … < inf < nan`. -/
def totalCmp (a b : Quality) : Ordering := compare a.rank b.rank

/-- The values that a quality may have: from zero, of either sign, to one. -/
def isUnit (q : Quality) : Bool := q.bits ≤ one.bits || q.bits = signBit

def hexBits (q : Quality) : String :=
  let digits := Text.hexDigits q.bits
  String.ofList (List.replicate (16 - digits.length) '0' ++ digits)

end Quality

end Switchyard
