import Switchyard.Text.Cut
/-!
# Arguments

The commands of the inspection tool and how they are read from arguments. An option stands as
`--name value`, `--name=value`, `-n value` or `-nvalue`; behind `--` nothing is an option.
-/

namespace Switchyard.CommandLine

/-- What the tool is asked to do. -/
inductive Command where
  | routes (config : String)
  | resolve (config method path : String) (headers : List String)
  deriving DecidableEq, Repr

/-- Why arguments are not carried out, apart from being asked for help. -/
inductive Usage where
  | help
  | helpInsteadOfCommand
  | unknownCommand
  | unknownArgument
  | missingArgument
  | repeatedArgument
  | badValue
  | needlessValue
  deriving DecidableEq, Repr

def Usage.kind : Usage → String
  | help => "DisplayHelp"
  | helpInsteadOfCommand => "DisplayHelpOnMissingArgumentOrSubcommand"
  | unknownCommand => "InvalidSubcommand"
  | unknownArgument => "UnknownArgument"
  | missingArgument => "MissingRequiredArgument"
  | repeatedArgument => "ArgumentConflict"
  | badValue => "InvalidValue"
  | needlessValue => "TooManyValues"

/-- The options of the commands. -/
inductive Opt where
  | config
  | method
  | path
  | header
  deriving DecidableEq, Repr

namespace Opt

def long : Opt → String
  | config => "config"
  | method => "method"
  | path => "path"
  | header => "header"

def short : Opt → Char
  | config => 'c'
  | method => 'm'
  | path => 'p'
  | header => 'H'

def isRepeatable (o : Opt) : Bool := o == header

/-- Whether a value is one for the option: the name of a file is not empty. -/
def admits (o : Opt) (value : String) : Bool := o != config || value != ""

end Opt

abbrev Given := List (Opt × String)

/-- The last option that was named, with its value if that has come. -/
abbrev Awaited := Option (Opt × Option String)

namespace Given

def add (g : Given) (o : Opt) (value : String) : Except Usage Given :=
  if !o.isRepeatable && List.any g fun e => e.1 == o then .error .repeatedArgument
  else if !o.admits value then .error .badValue
  else .ok (g ++ [(o, value)])

/-- Adds the option that was awaited; its value has to be there. -/
def settle (g : Given) : Awaited → Except Usage Given
  | none => .ok g
  | some (_, none) => .error .badValue
  | some (o, some value) => g.add o value

def first? (g : Given) (o : Opt) : Option String := (List.find? (fun e => e.1 == o) g).map (·.2)

def all (g : Given) (o : Opt) : List String := (List.filter (fun e => e.1 == o) g).map (·.2)

end Given

/-- What an argument is by its form. -/
inductive Form where
  | terminator
  | long (name : String) (value : Option String)
  | short (letter : Char) (value : Option String)
  | plain
  deriving DecidableEq, Repr

/-- The form of an argument. A lone dash is plain; an equals sign in front of the value of a short
option is not part of it. -/
def Form.of (arg : String) : Form :=
  match arg.toList with
  | ['-', '-'] => .terminator
  | '-' :: '-' :: rest =>
    match Text.cutFirst '=' rest with
    | some (name, value) => .long (String.ofList name) (some (String.ofList value))
    | none => .long (String.ofList rest) none
  | '-' :: letter :: rest =>
    match rest with
    | [] => .short letter none
    | '=' :: value => .short letter (some (String.ofList value))
    | value => .short letter (some (String.ofList value))
  | _ => .plain

def readOptions (options : List Opt) (g : Given) (awaited : Awaited) :
    List String → Except Usage Given
  | [] => g.settle awaited
  | arg :: rest =>
    let named (option : Option Opt) (value : Option String) : Except Usage Given := do
      match option, value with
      | none, _ => .error .unknownArgument
      | some o, some v => readOptions options (← (← g.settle awaited).add o v) none rest
      | some o, none => readOptions options (← g.settle awaited) (some (o, none)) rest
    let help : Except Usage Given := do
      let _ ← g.settle awaited
      .error .help
    match Form.of arg with
    | .terminator => if rest.isEmpty then g.settle awaited else .error .unknownArgument
    | .long "help" none => help
    | .long "help" (some _) => .error .needlessValue
    | .long name value => named (options.find? (·.long == name)) value
    | .short 'h' _ => help
    | .short letter value => named (options.find? (·.short == letter)) value
    | .plain =>
      match awaited with
      | some (o, none) => readOptions options g (some (o, some arg)) rest
      | _ => .error .unknownArgument

def needed (value : Option String) : Except Usage String :=
  match value with
  | some v => .ok v
  | none => .error .missingArgument

/-- The method of a synthetic request for which none is given. -/
def defaultMethod : String := "GET"

/-- The command that names a command and its options; the file may come from the environment. -/
def readCommand (environment : Option String) (name : String) (args : List String) :
    Except Usage Command := do
  let options : List Opt := if name == "routes" then [.config] else [.config, .method, .path, .header]
  let g ← readOptions options [] none args
  let config ← needed ((g.first? .config).or environment)
  if !Opt.config.admits config then .error .badValue
  if name == "routes" then return .routes config
  let path ← needed (g.first? .path)
  return .resolve config ((g.first? .method).getD defaultMethod) path (g.all .header)

def commandNames : List String := ["routes", "resolve"]

/-- The word that asks for help in place of a command. -/
def helpWord : String := "help"

def Command.parse (environment : Option String) : List String → Except Usage Command
  | [] => .error .helpInsteadOfCommand
  | arg :: rest =>
    if commandNames.contains arg then readCommand environment arg rest
    else if arg == helpWord then
      match rest with
      | [] => .error .help
      | [topic] =>
        if (helpWord :: commandNames).contains topic then .error .help else .error .unknownCommand
      | _ => .error .unknownCommand
    else
      match Form.of arg with
      | .terminator =>
        match rest with
        | [] => .error .helpInsteadOfCommand
        | next :: _ =>
          if (helpWord :: commandNames).contains next then .error .unknownArgument
          else .error .unknownCommand
      | .long "help" none | .short 'h' _ => .error .help
      | .long "help" (some _) => .error .needlessValue
      | .long .. | .short .. => .error .unknownArgument
      | .plain => .error .unknownCommand

end Switchyard.CommandLine
