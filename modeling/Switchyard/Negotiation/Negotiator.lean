import Switchyard.Http.Request
import Switchyard.Journal
import Switchyard.Negotiation.ExtensionTable
/-!
# Content negotiation

The media types that a request asks for. Strategies are asked in order; the range of everything is
the answer of a strategy that has no preference.
-/

namespace Switchyard

/-- Preferences that cannot be honoured, and why. -/
structure NegotiationFault where
  value : String
  reason : String
  deriving DecidableEq, Repr

def NegotiationFault.message (f : NegotiationFault) : String :=
  "could not negotiate media types from '" ++ f.value ++ "': " ++ f.reason

/-- One way to find the media types that a request asks for. -/
structure Strategy where
  resolve : Request → Except NegotiationFault (List MediaType)

namespace Strategy

/-- The query parameter that names an extension, unless another one is configured. -/
def defaultParameter : String := "format"

/-- Reads all `Accept` headers as one list, the preferred types first. -/
def header : Strategy where
  resolve req :=
    match req.headers.getAll "accept" with
    | [] => .ok [.all]
    | values =>
      let joined := Text.joinWith "," values
      match MediaType.parseList joined with
      | .error fault => .error ⟨joined, fault.message⟩
      | .ok [] => .ok [.all]
      | .ok types => .ok (MediaType.sort types)

/-- Looks the value of a query parameter up in a table of extensions. -/
def parameter (name : String) (table : ExtensionTable) : Strategy where
  resolve req :=
    match req.queryParam? name with
    | none => .ok [.all]
    | some key =>
      match table.lookup? key with
      | some mediaType => .ok [mediaType]
      | none => .error ⟨key, "no media type registered for " ++ name ++ "=" ++ key⟩

def fixed (types : List MediaType) : Strategy where
  resolve _ := .ok types

end Strategy

/-- What knows the file extensions of media types. -/
structure ExtensionSource where
  extensionsOf : MediaType → List String
  extensions : List String

def ExtensionTable.source (t : ExtensionTable) : ExtensionSource := ⟨t.extensionsOf, t.extensions⟩

instance : Coe (List ExtensionTable) (List ExtensionSource) := ⟨List.map ExtensionTable.source⟩

/-- Strategies in the order in which they are asked, and the tables of extensions in use, or other
sources of them. -/
structure Negotiator where
  strategies : List Strategy
  tables : List ExtensionSource := []

namespace Negotiator

def default : Negotiator := { strategies := [.header] }

def isIndifferent : List MediaType → Bool
  | [] => true
  | [m] => m.equivalent .all
  | _ => false

def preference? (req : Request) : List Strategy → Except NegotiationFault (Option (List MediaType))
  | [] => .ok none
  | s :: rest => do
    let types ← s.resolve req
    if isIndifferent types then preference? req rest else return some types

/-- The media types that a request asks for; without a preference it takes everything. -/
def resolve (n : Negotiator) (req : Request) : Except NegotiationFault (List MediaType) :=
  (preference? req n.strategies).map fun types => types.getD [.all]

def events (n : Negotiator) (req : Request) : List Event :=
  match preference? req n.strategies with
  | .ok (some types) =>
    [.debug "Requested media types resolved"
      [("media_types", .text (Text.quotedList (types.map MediaType.render)))]]
  | _ => []

/-- The extensions of a media type in all tables, each once. -/
def extensionsOf (n : Negotiator) (mediaType : MediaType) : List String :=
  (n.tables.flatMap (·.extensionsOf mediaType)).eraseDups

def extensions (n : Negotiator) : List String := (n.tables.flatMap (·.extensions)).eraseDups

/-- The settings from which a negotiator is put together. -/
structure Settings where
  favorParameter : Bool := false
  parameterName : String := Strategy.defaultParameter
  ignoreAcceptHeader : Bool := false
  defaultTypes : List MediaType := []
  table : ExtensionTable := {}

/-- The negotiator of some settings: parameter before header before the default types. -/
def ofSettings (s : Settings) : Negotiator where
  strategies :=
    (if s.favorParameter then [.parameter s.parameterName s.table] else []) ++
    (if s.ignoreAcceptHeader then [] else [.header]) ++
    (if s.defaultTypes.isEmpty then [] else [.fixed s.defaultTypes])
  tables := [s.table.source]

def describe (n : Negotiator) : String :=
  "ContentNegotiationManager \x7b strategies: " ++ toString n.strategies.length ++
    ", resolvers: " ++ toString n.tables.length ++ " \x7d"

end Negotiator

end Switchyard
