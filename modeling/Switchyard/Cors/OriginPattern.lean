import Switchyard.Cors.Fault
import Switchyard.Regex.Parser
import Switchyard.Text.Cut
import Switchyard.Text.Quoted
/-!
# Origin patterns

Patterns of origins, in which `*` stands for any text without line feeds and all else for itself in
either letter case. A pattern is matched by the regular expression that it is written out to.
-/

namespace Switchyard

namespace OriginPattern

def withoutSlashes (s : List Char) : List Char := Text.dropEndWhile (· = '/') s

def source (raw : List Char) : List Char :=
  "(?i)^".toList ++ ".*".toList.intercalate ((raw.splitOn '*').map Regex.escape) ++ ['$']

end OriginPattern

/-- A pattern of origins, without the blanks around it and the slashes at its end, and the expression
that is read of it. -/
structure OriginPattern where
  raw : String
  regex : Regex
  compiles : Regex.parse (OriginPattern.source raw.toList) = .ok regex
  deriving Repr

namespace OriginPattern

theorem eq_of_raw {p q : OriginPattern} (h : p.raw = q.raw) : p = q := by
  cases p with
  | mk raw regex compiles =>
    cases q with
    | mk raw' regex' compiles' =>
      cases h
      cases compiles.symm.trans compiles'
      rfl

instance : DecidableEq OriginPattern := fun p q =>
  decidable_of_iff (p.raw = q.raw) ⟨eq_of_raw, congrArg raw⟩

/-- Compiles a text without blanks around it and slashes at its end. -/
def compile (raw : String) : Except Regex.Fault OriginPattern :=
  match h : Regex.parse (source raw.toList) with
  | .ok regex => .ok ⟨raw, regex, h⟩
  | .error fault => .error fault

def parse (text : String) : Except CorsFault OriginPattern :=
  (compile (String.ofList (withoutSlashes (Text.trim text.toList)))).mapError
    fun fault => .badOriginPattern text fault.message

def isMatch (p : OriginPattern) (origin : List Char) : Bool := p.regex.isMatch origin

def describe (p : OriginPattern) : String := "OriginPattern(" ++ Text.quoted p.raw ++ ")"

end OriginPattern

end Switchyard
