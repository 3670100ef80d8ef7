import Switchyard.Cors.Fault
import Switchyard.Cors.OriginPattern
import Switchyard.Http.Method
import Switchyard.Url.Basic
/-!
# CORS policies

What a policy allows to requests from other origins, how a policy is built from its written parts,
and how two policies are combined.
-/

namespace Switchyard

/-- A CORS policy; a part that is missing was not configured. -/
structure CorsPolicy where
  allowedOrigins : Option (List String) := none
  allowedOriginPatterns : Option (List OriginPattern) := none
  allowedMethods : Option (List String) := none
  allowedHeaders : Option (List String) := none
  exposedHeaders : Option (List String) := none
  allowCredentials : Option Bool := none
  maxAge : Option Nat := none
  deriving DecidableEq, Repr

namespace CorsPolicy

def wildcard : String := "*"

def defaultMethods : List String := ["GET", "HEAD", "POST"]

def defaultMaxAge : Nat := 1800

def empty : CorsPolicy := {}

/-- The policy that opens a resource to all origins, without credentials. -/
def permissive : CorsPolicy := {
  allowedOrigins := some [wildcard]
  allowedMethods := some defaultMethods
  allowedHeaders := some [wildcard]
  maxAge := some defaultMaxAge }

def originPatternTexts (p : CorsPolicy) : List String :=
  (p.allowedOriginPatterns.getD []).map (·.raw)

/-- The methods that count: the default ones when none are configured. -/
def resolvedMethods (p : CorsPolicy) : List String :=
  match p.allowedMethods with
  | some (m :: ms) => m :: ms
  | _ => defaultMethods

def checkCredentials (p : CorsPolicy) : Except CorsFault Unit :=
  if p.allowCredentials = some true && (p.allowedOrigins.getD []).contains wildcard then
    .error .wildcardWithCredentials
  else .ok ()

/-- A policy as it is written, before anything is checked. -/
structure Draft where
  allowedOrigins : Option (List String) := none
  allowedOriginPatterns : Option (List String) := none
  allowedMethods : Option (List String) := none
  allowedHeaders : Option (List String) := none
  exposedHeaders : Option (List String) := none
  allowCredentials : Option Bool := none
  maxAge : Option Nat := none
  deriving DecidableEq, Repr

/-- The form in which method names are configured: trimmed and in upper case. -/
def methodName (name : String) : String := Text.upper (Text.trimmed name)

/-- An origin is the wildcard, `null` or an address that names an origin only. -/
def isOriginText (origin : String) : Bool :=
  origin == wildcard || origin == "null" || (Url.parse? origin).any Url.isBareOrigin

/-- Checks the parts of a policy in the order origins, methods, origin patterns, credentials. -/
def build (d : Draft) : Except CorsFault CorsPolicy := do
  match (d.allowedOrigins.getD []).find? fun o => !isOriginText o with
  | some o => throw (.badOrigin o)
  | none => pure ()
  match (d.allowedMethods.getD []).find? fun m => m != wildcard && (Method.ofName? m).isNone with
  | some m => throw (.badMethod m)
  | none => pure ()
  let allowedOriginPatterns ← d.allowedOriginPatterns.mapM (·.mapM OriginPattern.parse)
  if d.allowCredentials = some true && (d.allowedOrigins.getD []).isEmpty &&
      (allowedOriginPatterns.getD []).isEmpty then
    throw .noOriginsWithCredentials
  let policy : CorsPolicy := {
    allowedOrigins := d.allowedOrigins
    allowedOriginPatterns
    allowedMethods := d.allowedMethods
    allowedHeaders := d.allowedHeaders
    exposedHeaders := d.exposedHeaders
    allowCredentials := d.allowCredentials
    maxAge := d.maxAge }
  policy.checkCredentials
  return policy

/-- Keeps the first of entries that are equal up to letter case. -/
def dedupFold (entries : List String) : List String :=
  entries.foldl
    (fun kept e => if kept.any fun k => Text.sameFold k e then kept else kept ++ [e]) []

def combineLists : Option (List String) → Option (List String) → Option (List String)
  | none, b => b
  | a, none => a
  | some a, some b =>
    if (a ++ b).contains wildcard then some [wildcard] else some (dedupFold (a ++ b))

/-- The patterns of the first list and those of the second with other texts. -/
def combinePatterns :
    Option (List OriginPattern) → Option (List OriginPattern) → Option (List OriginPattern)
  | none, b => b
  | a, none => a
  | some a, some b =>
    some (b.foldl (fun kept p => if kept.any (·.raw == p.raw) then kept else kept ++ [p]) a)

def combineAges : Option Nat → Option Nat → Option Nat
  | none, b => b
  | a, none => a
  | some a, some b => some (min a b)

/-- The policy that allows what one of the two allows. They have to agree on credentials. -/
def combine (a b : CorsPolicy) : Except CorsFault CorsPolicy := do
  let allowCredentials ← match a.allowCredentials, b.allowCredentials with
    | some x, some y => if x = y then .ok (some y) else .error .conflictingCredentials
    | x, y => .ok (y.or x)
  let policy : CorsPolicy := {
    allowedOrigins := combineLists a.allowedOrigins b.allowedOrigins
    allowedOriginPatterns := combinePatterns a.allowedOriginPatterns b.allowedOriginPatterns
    allowedMethods := combineLists a.allowedMethods b.allowedMethods
    allowedHeaders := combineLists a.allowedHeaders b.allowedHeaders
    exposedHeaders := combineLists a.exposedHeaders b.exposedHeaders
    allowCredentials
    maxAge := combineAges a.maxAge b.maxAge }
  policy.checkCredentials
  return policy

/-- The origin to answer with, when the given one is allowed: the wildcard where it counts, else the
origin itself without the blanks around it. -/
def checkOrigin (p : CorsPolicy) (origin : String) : Option String :=
  let trimmed := Text.trim origin.toList
  let bare := OriginPattern.withoutSlashes trimmed
  let origins := p.allowedOrigins.getD []
  let listed (o : String) : Bool :=
    Text.sameFold (String.ofList (OriginPattern.withoutSlashes o.toList)) (String.ofList bare)
  if trimmed.isEmpty then none
  else if origins.contains wildcard && p.allowCredentials != some true then some wildcard
  else if origins.any listed || (p.allowedOriginPatterns.getD []).any (·.isMatch bare) then
    some (String.ofList trimmed)
  else none

/-- The methods to answer with, when the given one is allowed. -/
def checkMethod (p : CorsPolicy) (method : Method) : Option (List String) :=
  if p.resolvedMethods.contains wildcard then some [method.name]
  else if p.resolvedMethods.any fun m => Text.sameFold m method.name then some p.resolvedMethods
  else none

/-- The headers to answer with, when all the given ones are allowed. -/
def checkHeaders (p : CorsPolicy) (requested : List String) : Option (List String) :=
  if requested.isEmpty then some []
  else
    match p.allowedHeaders with
    | none => none
    | some allowed =>
      if allowed.contains wildcard ||
          requested.all fun r => allowed.any fun a => Text.sameFold a r then
        some requested
      else none

end CorsPolicy

end Switchyard
