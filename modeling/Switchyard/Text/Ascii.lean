import Switchyard.Text.Blank
/-!
# ASCII letters

Letter case as header names, media types and host names see it: only `A` to `Z` fold.
-/

namespace Switchyard.Text

def lower (s : String) : String := String.ofList (s.toList.map Char.toLower)

theorem toLower_eq_self {c : Char} (h : ¬ (c.val ≥ 'A'.val ∧ c.val ≤ 'Z'.val)) : c.toLower = c :=
  dif_neg h

private theorem toLower_cases (c : Char) :
    c.toLower = c ∨ 'a'.val ≤ c.toLower.val ∧ c.toLower.val ≤ 'z'.val := by
  by_cases h : c.val ≥ 'A'.val ∧ c.val ≤ 'Z'.val
  · have hlower : c.toLower.val = c.val + ('a'.val - 'A'.val) := congrArg Char.val (dif_pos h)
    right
    rw [hlower]
    simp only [ge_iff_le, UInt32.le_iff_toNat_le, UInt32.toNat_add, Char.reduceVal,
      UInt32.reduceSub, UInt32.reduceToNat] at h ⊢
    omega
  · exact .inl (toLower_eq_self h)

private theorem toLower_toLower (c : Char) : c.toLower.toLower = c.toLower := by
  rcases toLower_cases c with h | h
  · rw [h, h]
  · apply toLower_eq_self
    simp only [ge_iff_le, UInt32.le_iff_toNat_le, Char.reduceVal, UInt32.reduceToNat] at h ⊢
    omega

theorem lower_lower (s : String) : lower (lower s) = lower s := by
  have hcomp : Char.toLower ∘ Char.toLower = Char.toLower := funext toLower_toLower
  rw [lower, lower, String.toList_ofList, List.map_map, hcomp]

theorem toLower_eq_iff {c d : Char} (hd : d.isAlpha = false) : c.toLower = d ↔ c = d := by
  have hranges : d.isAlpha = (decide (d.val ≥ 'A'.val ∧ d.val ≤ 'Z'.val) ||
      d.val ≥ 'a'.val && d.val ≤ 'z'.val) := rfl
  rw [hranges, ← Bool.not_eq_true] at hd
  simp only [Bool.or_eq_true, Bool.and_eq_true, decide_eq_true_eq, not_or] at hd
  constructor
  · rintro rfl
    exact ((toLower_cases c).resolve_right hd.2).symm
  · rintro rfl
    exact toLower_eq_self hd.1

theorem toLower_eq_slash {c : Char} : c.toLower = '/' ↔ c = '/' := toLower_eq_iff (by decide)

def upper (s : String) : String := String.ofList (s.toList.map Char.toUpper)

def sameFold (a b : String) : Bool := lower a == lower b

def isTokenChar (c : Char) : Bool :=
  c.isAlphanum || "!#$%&'*+-.^_`|~".toList.contains c

def isToken (s : List Char) : Bool := !s.isEmpty && s.all isTokenChar

theorem isTokenChar_toLower {c : Char} (hc : isTokenChar c) : isTokenChar c.toLower := by
  rcases toLower_cases c with h | h
  · rw [h]
    exact hc
  · have hranges : c.toLower.isAlphanum = ((c.toLower.isUpper ||
        c.toLower.val ≥ 'a'.val && c.toLower.val ≤ 'z'.val) || c.toLower.isDigit) := rfl
    have hletter : c.toLower.isAlphanum = true := by
      rw [hranges]
      simp only [Bool.or_eq_true, Bool.and_eq_true, decide_eq_true_eq]
      exact .inl (.inr h)
    rw [isTokenChar, hletter, Bool.true_or]

theorem isBlank_of_isTokenChar {c : Char} (hc : isTokenChar c) : isBlank c = false := by
  have hranges : c.isAlphanum = ((decide (c.val ≥ 65 ∧ c.val ≤ 90) || c.val ≥ 97 && c.val ≤ 122) ||
      (c.val ≥ 48 && c.val ≤ 57)) := rfl
  rw [isTokenChar, Bool.or_eq_true] at hc
  rcases hc with h | h
  · simp only [hranges, Bool.or_eq_true, Bool.and_eq_true, decide_eq_true_eq, ge_iff_le,
      UInt32.le_iff_toNat_le] at h
    simp only [UInt32.reduceToNat] at h
    apply isBlank_of_graphic
    · rw [UInt32.lt_iff_toNat_lt]
      simp only [UInt32.reduceToNat]
      omega
    · rw [UInt32.lt_iff_toNat_lt]
      simp only [UInt32.reduceToNat]
      omega
  · have hall : ("!#$%&'*+-.^_`|~".toList.all fun d => !isBlank d) = true := by rfl
    simpa using List.all_eq_true.mp hall c (List.contains_iff_mem.mp h)

theorem trimmed_of_isToken {name : String} (h : isToken name.toList) : trimmed name = name := by
  rw [isToken, Bool.and_eq_true, List.all_eq_true] at h
  rw [trimmed, trim_eq_self fun c hc => isBlank_of_isTokenChar (h.2 c hc), String.ofList_toList]

def hexValue? (c : Char) : Option Nat :=
  if c.isDigit then some (c.toNat - '0'.toNat)
  else if 'a' ≤ c && c ≤ 'f' then some (c.toNat - 'a'.toNat + 10)
  else if 'A' ≤ c && c ≤ 'F' then some (c.toNat - 'A'.toNat + 10)
  else none

/-- Reads a whole text as digits of the given base, the most significant first. -/
def digits? (digit : Char → Option Nat) (base : Nat) (s : List Char) : Option Nat :=
  if s.isEmpty then none
  else s.foldl (fun acc c => do return (← acc) * base + (← digit c)) (some 0)

def decimalValue? (c : Char) : Option Nat :=
  if c.isDigit then some (c.toNat - '0'.toNat) else none

def decimal? (s : List Char) : Option Nat := digits? decimalValue? 10 s

def hexadecimal? (s : List Char) : Option Nat := digits? hexValue? 16 s

def hexDigits (n : Nat) : List Char := Nat.toDigits 16 n

end Switchyard.Text
