import Switchyard.Text.Ascii
import Switchyard.Text.Cut
import Switchyard.Text.Utf8
/-!
# Query strings

Names and values of a query string: pieces between `&`, `+` for a blank, `%` before two
hexadecimal digits for a byte.
-/

namespace Switchyard.Query

/-- Replaces each `%` and two hexadecimal digits by the byte they write; other bytes stay. -/
def percentDecode : List Nat → List Nat
  | [] => []
  | b :: rest =>
    if b = 0x25 then
      match rest with
      | h :: l :: more =>
        match Text.hexValue? (Char.ofNat h), Text.hexValue? (Char.ofNat l) with
        | some x, some y => (x * 16 + y) :: percentDecode more
        | _, _ => b :: percentDecode (h :: l :: more)
      | short => b :: short
    else b :: percentDecode rest

def decode (s : List Char) : String :=
  let blanks := s.map fun c => if c = '+' then ' ' else c
  String.ofList (Text.ofUtf8 (percentDecode (Text.utf8 blanks)))

def pair (piece : List Char) : String × String :=
  match Text.cutFirst '=' piece with
  | some (name, value) => (decode name, decode value)
  | none => (decode piece, "")

/-- The names and values of a query string in their order. -/
def parse (s : List Char) : List (String × String) :=
  ((s.splitOn '&').filter (!·.isEmpty)).map pair

end Switchyard.Query
