import Switchyard.CommandLine.Report
/-!
# The inspection tool

Reads the arguments and the configuration file, and prints the report.
-/

namespace Switchyard

open CommandLine

def usageText : String :=
  "Usage: brrtdispatch routes --config <CONFIG>\n" ++
  "       brrtdispatch resolve --config <CONFIG> [--method <METHOD>] --path <PATH> " ++
    "[-H <HEADER>]...\n"

def CommandLine.Usage.message : Usage → String
  | .help | .helpInsteadOfCommand => ""
  | .unknownCommand => "error: unrecognized subcommand\n\n"
  | .unknownArgument => "error: unexpected argument found\n\n"
  | .missingArgument => "error: the required arguments were not provided\n\n"
  | .repeatedArgument => "error: an argument cannot be used multiple times\n\n"
  | .badValue => "error: a value is required for an argument but none was supplied\n\n"
  | .needlessValue => "error: unexpected value for an argument found\n\n"

/-- The text of a failure: its outermost circumstance, then the causes. -/
def failureText (f : Config.Failure) : String :=
  match f.map Config.Cause.text with
  | [] => "Error\n"
  | first :: causes =>
    "Error: " ++ first ++ "\n" ++
      if causes.isEmpty then ""
      else "\nCaused by:\n" ++ String.join (causes.map fun c => "    " ++ c ++ "\n")

/-- The contents of a file, if it can be read as text. -/
def contents? (path : String) : IO (Option String) := do
  try
    return some (← IO.FS.readFile path)
  catch _ => return none

def runCommand (command : Command) : IO UInt32 := do
  let contents ← contents? command.config
  let (result, world) := (command.execute contents).run.run { app := #[] }
  for line in world.app do IO.println line
  match result with
  | .ok () => return 0
  | .error f =>
    IO.eprint (failureText f)
    return 1

end Switchyard

open Switchyard in
def main (args : List String) : IO UInt32 := do
  match CommandLine.Command.parse (← IO.getEnv Config.fileVariable) args with
  | .ok command => runCommand command
  | .error .help =>
    IO.print usageText
    return 0
  | .error usage =>
    IO.eprint (usage.message ++ usageText)
    return 2
