import Switchyard.Text.Ascii
/-!
# Request methods

A method is a token; letter case matters.
-/

namespace Switchyard

/-- A request method. -/
structure Method where
  name : String
  deriving DecidableEq, Repr, Inhabited

namespace Method

def get : Method := ⟨"GET"⟩

def head : Method := ⟨"HEAD"⟩

def post : Method := ⟨"POST"⟩

def options : Method := ⟨"OPTIONS"⟩

def ofName? (name : String) : Option Method :=
  if Text.isToken name.toList then some ⟨name⟩ else none

end Method

end Switchyard
