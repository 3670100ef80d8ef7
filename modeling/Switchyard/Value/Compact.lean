import Switchyard.Text.Ascii
import Switchyard.Value
/-!
# Compact values

The JSON text of a value on one line. A text in it is escaped only where it has to be: quotes,
backslashes and control characters.
-/

namespace Switchyard

/-- Decimal digits, with as many behind the point as the number has places. -/
def Numeral.render (n : Numeral) : String :=
  let digits := Nat.toDigits 10 n.mantissa.natAbs
  let digits := List.replicate (n.places + 1 - digits.length) '0' ++ digits
  let (whole, fraction) := digits.splitAt (digits.length - n.places)
  String.ofList ((if n.mantissa < 0 then ['-'] else []) ++ whole ++
    if fraction.isEmpty then [] else '.' :: fraction)

namespace Value

def compactChar (c : Char) : List Char :=
  if c = '"' || c = '\\' then ['\\', c]
  else if c.toNat < 0x10 then ['\\', 'u', '0', '0', '0'] ++ Text.hexDigits c.toNat
  else if c.toNat < 0x20 then ['\\', 'u', '0', '0'] ++ Text.hexDigits c.toNat
  else [c]

def compactText (s : String) : String :=
  String.ofList ('"' :: s.toList.flatMap compactChar ++ ['"'])

mutual

def compact : Value → String
  | null => "null"
  | bool b => if b then "true" else "false"
  | number n => n.render
  | text s => compactText s
  | list items => "[" ++ String.intercalate "," (compactItems items) ++ "]"
  | object fields => "\x7b" ++ String.intercalate "," (compactFields fields) ++ "\x7d"

def compactItems : List Value → List String
  | [] => []
  | v :: rest => v.compact :: compactItems rest

def compactFields : List (String × Value) → List String
  | [] => []
  | (name, v) :: rest => (compactText name ++ ":" ++ v.compact) :: compactFields rest

end

end Value

end Switchyard
