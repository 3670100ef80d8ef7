/-!
# Failures with their causes

What went wrong while a configuration was read or put to use: the outermost circumstance first, the
innermost cause last.
-/

namespace Switchyard.Config

/-- One link of a failure: a sentence, or a cause that lies outside of the configuration's rules. -/
inductive Cause where
  | sentence (text : String)
  | malformedYaml
  | unreadableFile
  deriving DecidableEq, Repr

abbrev Failure := List Cause

def Cause.text : Cause → String
  | sentence t => t
  | malformedYaml => "malformed YAML"
  | unreadableFile => "file cannot be read"

def because (text : String) : Failure := [.sentence text]

def within {α : Type} (text : String) (part : Except Failure α) : Except Failure α :=
  part.mapError (.sentence text :: ·)

/-- Reads the failure of a part from its message and sets it into a circumstance. -/
def checked {α ε : Type} (text : String) (message : ε → String) (part : Except ε α) :
    Except Failure α :=
  within text (part.mapError fun e => because (message e))

end Switchyard.Config
