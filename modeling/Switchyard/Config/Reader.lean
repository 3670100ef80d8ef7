import Switchyard.Config.Failure
import Switchyard.Config.Settings
import Switchyard.Yaml.Node
/-!
# Reading settings

From a YAML document to settings. A reader of a setting answers none for a node of another form.
Every scalar is a text; only unquoted ones are switches or numbers. Settings without a default have
to be there, no setting may be there twice, and unknown ones are passed over.
-/

namespace Switchyard.Config

open Yaml (Document Node)

abbrev Reader (α : Type) := Document → Node → Option α

namespace Reader

def booleanTag : String := "tag:yaml.org,2002:bool"
def integerTag : String := "tag:yaml.org,2002:int"
def nullTag : String := "tag:yaml.org,2002:null"

def text : Reader String := fun d n =>
  match d.deref n with
  | .scalar _ _ t => some t
  | _ => none

/-- The text of a scalar that may be of some kind: one without quotes, or a literal block that has
the tag of the kind. -/
def bareText (kindTag : String) : Reader String := fun d n =>
  match d.deref n with
  | .scalar _ .plain t => some t
  | .scalar tag .literal t => if tag = some kindTag then some t else none
  | _ => none

def switch : Reader Bool := fun d n => do
  let t ← bareText booleanTag d n
  if ["true", "True", "TRUE"].contains t then some true
  else if ["false", "False", "FALSE"].contains t then some false
  else none

def digitBelow (base : Nat) (c : Char) : Option Nat := (Text.decimalValue? c).filter (· < base)

/-- The number that a text writes, in decimal or behind `0x`, `0o` or `0b`. Decimal numbers have no
leading zeros. -/
def number? (t : List Char) : Option Nat :=
  match (Text.dropStart? ['+'] t).getD t with
  | '0' :: 'x' :: digits => Text.hexadecimal? digits
  | '0' :: 'o' :: digits => Text.digits? (digitBelow 8) 8 digits
  | '0' :: 'b' :: digits => Text.digits? (digitBelow 2) 2 digits
  | '0' :: _ :: _ => none
  | digits => Text.decimal? digits

def natural : Reader Nat := fun d n => do
  let number ← number? (← bareText integerTag d n).toList
  if number < UInt64.size then some number else none

def isNullWord (t : String) : Bool := ["null", "Null", "NULL", "~"].contains t

def option (read : Reader α) : Reader (Option α) := fun d n =>
  match d.deref n with
  | .scalar none .plain t => if t.isEmpty || isNullWord t then some none else (read d n).map some
  | .scalar (some tag) .plain t =>
    if tag ≠ nullTag then (read d n).map some else if isNullWord t then some none else none
  | _ => (read d n).map some

def list (read : Reader α) : Reader (List α) := fun d n =>
  match d.deref n with
  | .sequence items => items.mapM (read d)
  | .scalar _ .plain "" => some []
  | _ => none

/-- The entries of a mapping by their names. Where nothing is written there are none. -/
def entries : Reader (List (String × Node)) := fun d n =>
  match d.deref n with
  | .mapping es => es.mapM fun (key, value) => do return (← text d key, value)
  | .scalar _ .plain "" => some []
  | _ => none

/-- The settings of a section, none of the known ones twice. -/
def fields (known : List String) : Reader (List (String × Node)) := fun d n => do
  let fs ← entries d n
  if known.any fun key => fs.countP (·.1 == key) > 1 then none else some fs

def required (read : Reader α) (d : Document) (fs : List (String × Node)) (key : String) :
    Option α := do
  let field ← fs.find? fun f => f.1 == key
  read d field.2

def default (fallback : α) (read : Reader α) (d : Document) (fs : List (String × Node))
    (key : String) : Option α :=
  match fs.find? fun f => f.1 == key with
  | some field => read d field.2
  | none => some fallback

/-- Puts an entry at its place in an order of names; it replaces one of the same name. -/
def putSorted (entries : List (String × α)) (name : String) (value : α) : List (String × α) :=
  entries.filter (·.1 < name) ++ (name, value) :: entries.filter (name < ·.1)

/-- A table of texts in the order of their names; of two entries of a name the last one counts. -/
def table : Reader (List (String × String)) := fun d n => do
  let fs ← entries d n
  let texts ← fs.mapM fun (key, value) => do return (key, ← text d value)
  return texts.foldl (fun sorted (key, value) => putSorted sorted key value) []

def route : Reader RouteSettings := fun d n => do
  let fs ← fields [Key.pattern, Key.methods, Key.handler, Key.produces] d n
  return {
    pattern := ← required text d fs Key.pattern
    methods := ← default [] (list text) d fs Key.methods
    handler := ← required text d fs Key.handler
    produces := ← default [] (list text) d fs Key.produces }

def interceptor : Reader InterceptorSettings := fun d n => do
  let fs ← fields [Key.name, Key.includes, Key.excludes] d n
  return {
    name := ← required text d fs Key.name
    includes := ← default [] (list text) d fs Key.includes
    excludes := ← default [] (list text) d fs Key.excludes }

def policy : Reader PolicySettings := fun d n => do
  let fs ← fields [Key.pattern, Key.allowedOrigins, Key.allowedOriginPatterns, Key.allowedMethods,
    Key.allowedHeaders, Key.exposedHeaders, Key.allowCredentials, Key.maxAge] d n
  let texts := default none (option (list text)) d fs
  return {
    pattern := ← required text d fs Key.pattern
    policy := {
      allowedOrigins := ← texts Key.allowedOrigins
      allowedOriginPatterns := ← texts Key.allowedOriginPatterns
      allowedMethods := ← texts Key.allowedMethods
      allowedHeaders := ← texts Key.allowedHeaders
      exposedHeaders := ← texts Key.exposedHeaders
      allowCredentials := ← default none (option switch) d fs Key.allowCredentials
      maxAge := ← default none (option natural) d fs Key.maxAge } }

def negotiation : Reader NegotiationSettings := fun d n => do
  let fs ← fields [Key.favorParameter, Key.parameterName, Key.ignoreAcceptHeader,
    Key.defaultContentTypes, Key.mediaTypes, Key.useNotAcceptable] d n
  return {
    favorParameter := ← default false switch d fs Key.favorParameter
    parameterName := ← default Strategy.defaultParameter text d fs Key.parameterName
    ignoreAcceptHeader := ← default false switch d fs Key.ignoreAcceptHeader
    defaultContentTypes := ← default [] (list text) d fs Key.defaultContentTypes
    mediaTypes := ← default [] table d fs Key.mediaTypes
    useNotAcceptable := ← default false switch d fs Key.useNotAcceptable }

def settings : Reader Settings := fun d n => do
  let fs ← fields [Key.routes, Key.defaultHandler, Key.interceptors, Key.policies,
    Key.negotiation] d n
  return {
    routes := ← default [] (list route) d fs Key.routes
    defaultHandler := ← default none (option text) d fs Key.defaultHandler
    interceptors := ← default [] (list interceptor) d fs Key.interceptors
    policies := ← default [] (list policy) d fs Key.policies
    negotiation := ← default {} negotiation d fs Key.negotiation }

end Reader

/-- The settings of a document; one without content leaves all at the defaults. -/
def Settings.ofDocument? (d : Document) : Option Settings :=
  match d.root with
  | none => some {}
  | some root => Reader.settings d root

def Settings.parse (text : String) : Except Failure Settings :=
  match (Document.parse? text).bind Settings.ofDocument? with
  | some settings => .ok settings
  | none => .error [.sentence "Invalid dispatch config YAML", .malformedYaml]

def Settings.loadedEvent (s : Settings) (path : String) : Event :=
  .info "Dispatch config loaded"
    [("path", .text path), ("routes", .number s.routes.length),
      ("interceptors", .number s.interceptors.length),
      ("cors_mappings", .number s.policies.length)]

/-- Reads settings from the contents of a file, if it can be read at all. -/
def Settings.load (path : String) : Option String → Except Failure Settings
  | none => .error [.sentence ("Failed to read dispatch config: " ++ path), .unreadableFile]
  | some contents => within ("Failed to parse dispatch config: " ++ path) (Settings.parse contents)

end Switchyard.Config
