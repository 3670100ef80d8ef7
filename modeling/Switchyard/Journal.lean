import Switchyard.Text.Quoted
/-!
# Journal

The events that the pipeline reports while it works, each with a level, a message and facts.
-/

namespace Switchyard

/-- How much an event matters. -/
inductive Level where
  | debug
  | info
  | warn
  | error
  deriving DecidableEq, Repr

def Level.name : Level → String
  | debug => "DEBUG"
  | info => "INFO"
  | warn => "WARN"
  | error => "ERROR"

/-- What an event reports beside its message. -/
inductive Fact where
  | text (s : String)
  | number (n : Int)
  | flag (b : Bool)
  deriving DecidableEq, Repr

/-- One entry of the journal. -/
structure Event where
  level : Level
  message : String
  facts : List (String × Fact)
  deriving DecidableEq, Repr

namespace Event

def debug (message : String) (facts : List (String × Fact)) : Event := ⟨.debug, message, facts⟩

def info (message : String) (facts : List (String × Fact)) : Event := ⟨.info, message, facts⟩

def warn (message : String) (facts : List (String × Fact)) : Event := ⟨.warn, message, facts⟩

def error (message : String) (facts : List (String × Fact)) : Event := ⟨.error, message, facts⟩

end Event

end Switchyard
