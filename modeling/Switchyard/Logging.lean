import Switchyard.Text.Ascii
import Switchyard.Text.Blank
/-!
# Logging settings

How the journal is written out, as the environment says.
-/

namespace Switchyard

/-- The form of an event: a line of JSON, or a text to read. -/
inductive LogFormat where
  | json
  | pretty
  deriving DecidableEq, Repr

def LogFormat.name : LogFormat → String
  | json => "Json"
  | pretty => "Pretty"

/-- The format of a name in any letter case; all names but one mean JSON. -/
def LogFormat.parse (name : String) : LogFormat :=
  if Text.lower name == "pretty" then pretty else json

/-- Logging settings. -/
structure LogSettings where
  level : String := "info"
  format : LogFormat := .json
  /-- Whether events are written in the background. -/
  isAsync : Bool := false
  /-- Further filters, as they are written. -/
  targets : Option String := none
  /-- Whether events tell where in the program they come from. -/
  showsLocation : Bool := false
  deriving DecidableEq, Repr

namespace LogSettings

/-- True for the words that switch something on, in any letter case and with blanks around them. -/
def isOn (word : String) : Bool :=
  ["1", "true", "yes", "on"].contains (Text.lower (Text.trimmed word))

/-- The settings of an environment, which gives the values of its variables. -/
def ofEnvironment (setting? : String → Option String) : LogSettings where
  level := (setting? "BRRTD_LOG_LEVEL").getD "info"
  format := LogFormat.parse ((setting? "BRRTD_LOG_FORMAT").getD "json")
  isAsync := (setting? "BRRTD_LOG_ASYNC").any isOn
  targets := setting? "BRRTD_LOG_TARGETS"
  showsLocation := (setting? "BRRTD_LOG_LOCATION").any isOn

def forDevelopment : LogSettings :=
  { level := "debug", format := .pretty, showsLocation := true }

end LogSettings

end Switchyard
