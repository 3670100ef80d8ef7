/-!
# Values

The data that bodies, models and configurations are made of.
-/

namespace Switchyard

/-- A number `mantissa / 10 ^ places`; whole numbers have no places. -/
structure Numeral where
  mantissa : Int
  places : Nat
  deriving DecidableEq, Repr, Inhabited

/-- A value as bodies and models hold it. -/
inductive Value where
  | null
  | bool (b : Bool)
  | number (n : Numeral)
  | text (s : String)
  | list (items : List Value)
  | object (fields : List (String × Value))
  deriving Repr, Inhabited

namespace Value

def ofNat (n : Nat) : Value := number ⟨n, 0⟩

def texts (items : List String) : Value := list (items.map text)

def field? : Value → String → Option Value
  | object fields, name => (fields.find? fun p => p.1 == name).map (·.2)
  | _, _ => none

end Value

end Switchyard
