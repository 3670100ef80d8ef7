/-!
# Bytes and characters

The UTF-8 form of texts, and the reading of bytes that need not be well-formed: what cannot be the
form of a character is read as U+FFFD.
-/

namespace Switchyard.Text

def utf8 (s : List Char) : List Nat := s.flatMap fun c => (String.utf8EncodeChar c).map UInt8.toNat

/-- The ranges of the bytes that may follow a first byte, with the bits that it contributes. -/
private def followers (b : Nat) : Option (Nat × List (Nat × Nat)) :=
  let tail : Nat × Nat := (0x80, 0xBF)
  if 0xC2 ≤ b && b ≤ 0xDF then some (b - 0xC0, [tail])
  else if b = 0xE0 then some (0, [(0xA0, 0xBF), tail])
  else if b = 0xED then some (0xD, [(0x80, 0x9F), tail])
  else if 0xE1 ≤ b && b ≤ 0xEF then some (b - 0xE0, [tail, tail])
  else if b = 0xF0 then some (0, [(0x90, 0xBF), tail, tail])
  else if 0xF1 ≤ b && b ≤ 0xF3 then some (b - 0xF0, [tail, tail, tail])
  else if b = 0xF4 then some (4, [(0x80, 0x8F), tail, tail])
  else none

def replacement : Char := '\ufffd'

/-- Reads bytes to the end. `pending` is the character under way: its bits so far and the ranges
of the bytes that have to follow. A byte outside its range ends the character in error and is
read again as a first byte. -/
def decodeFrom (pending : Option (Nat × List (Nat × Nat))) : List Nat → List Char
  | [] => if pending.isSome then [replacement] else []
  | b :: rest =>
    let first : List Char → List Char := fun before =>
      if b < 0x80 then before ++ Char.ofNat b :: decodeFrom none rest
      else
        match followers b with
        | none => before ++ replacement :: decodeFrom none rest
        | some p => before ++ decodeFrom (some p) rest
    match pending with
    | some (bits, (low, high) :: more) =>
      if low ≤ b && b ≤ high then
        let bits := bits * 64 + (b - 0x80)
        match more with
        | [] => Char.ofNat bits :: decodeFrom none rest
        | _ => decodeFrom (some (bits, more)) rest
      else first [replacement]
    | some (_, []) => first [replacement]
    | none => first []

def ofUtf8 (bytes : List Nat) : List Char := decodeFrom none bytes

end Switchyard.Text
