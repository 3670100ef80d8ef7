import Switchyard.Text.Blank
import Switchyard.Text.Utf8
/-!
# Request identifiers

Identifiers of 128 bits in 26 digits of base 32. The alphabet leaves out `I`, `L`, `O` and `U`.
-/

namespace Switchyard

/-- A request identifier, a number of 128 bits. -/
structure RequestId where
  number : BitVec 128
  deriving DecidableEq, Repr

namespace RequestId

def header : String := "x-request-id"

/-- Why a text is no identifier. -/
inductive Fault where
  | badLength
  | badDigit
  deriving DecidableEq, Repr

def Fault.kind : Fault → String
  | badLength => "InvalidLength"
  | badDigit => "InvalidChar"

def width : Nat := 26

def alphabet : List Char := "0123456789ABCDEFGHJKMNPQRSTVWXYZ".toList

def digit? (c : Char) : Option Nat := alphabet.findIdx? (· == c.toUpper)

/-- Reads the digits; bits beyond the 128 are dropped. The length counts bytes. -/
def parse (s : List Char) : Except Fault RequestId :=
  if (Text.utf8 s).length != width then .error .badLength
  else
    match s.mapM digit? with
    | none => .error .badDigit
    | some digits => .ok ⟨BitVec.ofNat 128 (digits.foldl (fun n d => n * 32 + d) 0)⟩

def ofHeader (value : String) : Except Fault RequestId := parse (Text.trim value.toList)

def render (id : RequestId) : String :=
  String.ofList ((List.range width).reverse.map fun i =>
    alphabet.getD ((id.number.toNat >>> (5 * i)) % 32) '0')

end RequestId

end Switchyard
