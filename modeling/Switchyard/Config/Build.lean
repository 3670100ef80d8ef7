import Switchyard.Config.Failure
import Switchyard.Config.Settings
import Switchyard.Pipeline.Mapping
import Switchyard.View.Negotiating
/-!
# Putting settings to use

From settings to routes, interceptors, policies, mappings and negotiators. Everything is checked
here, so that a bad setting shows when a dispatcher is set up and not when it serves requests.
-/

namespace Switchyard.Config

variable {σ : Type}

/-- A step of a setup, which reports what it does and may fail. -/
abbrev Setup (σ : Type) := ExceptT Failure (Act σ)

namespace Setup

def check (result : Except Failure α) : Setup σ α := ExceptT.mk (pure result)

def emit (e : Event) : Setup σ Unit := ExceptT.lift (Act.emit e)

end Setup

def readMediaTypes (texts : List String) : Except Failure (List MediaType) :=
  texts.mapM fun t =>
    checked ("Invalid media type '" ++ t ++ "'") MediaTypeFault.message (MediaType.parse t)

namespace RouteSettings

def method (s : RouteSettings) (name : String) : Except Failure Method :=
  match Method.ofName? (CorsPolicy.methodName name) with
  | some m => .ok m
  | none =>
    within ("Invalid method '" ++ name ++ "' for route " ++ s.pattern)
      (.error (because "invalid HTTP method"))

def route (s : RouteSettings) : Except Failure (Route (HandlerRef σ)) := do
  let methods ← s.methods.mapM s.method
  let produces ← within ("Invalid produces for route " ++ s.pattern) (readMediaTypes s.produces)
  let pattern ← checked ("Invalid route pattern '" ++ s.pattern ++ "'") PatternFault.message
    (PathPattern.parse s.pattern)
  return { pattern, methods, target := .named s.handler, produces }

end RouteSettings

namespace PolicySettings

def build (s : PolicySettings) : Except CorsFault CorsPolicy :=
  CorsPolicy.build { s.policy with
    allowedMethods := s.policy.allowedMethods.map (·.map CorsPolicy.methodName) }

def entry (s : PolicySettings) : Except Failure (PathPattern × CorsPolicy) := do
  let policy ← checked ("Invalid CORS configuration for '" ++ s.pattern ++ "'") CorsFault.message s.build
  let pattern ← checked ("Invalid CORS pattern '" ++ s.pattern ++ "'") PatternFault.message
    (PathPattern.parse s.pattern)
  return (pattern, policy)

end PolicySettings

namespace InterceptorSettings

def scope (s : InterceptorSettings) : Except Failure Scope :=
  if s.isGlobal then .ok .global
  else
    checked ("Invalid patterns for interceptor '" ++ s.name ++ "'") PatternFault.message
      (Scope.parse s.includes s.excludes)

def build (available : String → Option (Interceptor σ)) (s : InterceptorSettings) :
    Setup σ (ScopedInterceptor σ) := do
  match available s.name with
  | none => throw (because ("Unknown interceptor '" ++ s.name ++ "'"))
  | some interceptor =>
    let scope ← Setup.check s.scope
    Setup.emit (.debug "Interceptor configured"
      [("interceptor", .text s.name), ("global", .flag s.isGlobal)])
    return { scope, interceptor }

end InterceptorSettings

namespace NegotiationSettings

def negotiator (s : NegotiationSettings) : Except Failure Negotiator := do
  let defaultTypes ← readMediaTypes s.defaultContentTypes
  let entries ← s.mediaTypes.mapM fun (extension, t) => do
    let mediaType ← checked
      ("Invalid media type for extension '" ++ extension ++ "': " ++ t) MediaTypeFault.message
      (MediaType.parse t)
    return (extension, mediaType)
  return .ofSettings {
    favorParameter := s.favorParameter
    parameterName := s.parameterName
    ignoreAcceptHeader := s.ignoreAcceptHeader
    defaultTypes
    table := .ofList entries }

def viewResolver (s : NegotiationSettings) (resolvers : List (ViewResolver σ))
    (defaultViews : List View) : Except Failure (NegotiatingResolver σ) := do
  return { NegotiatingResolver.new (← s.negotiator) resolvers with
    defaultViews, useNotAcceptable := s.useNotAcceptable }

end NegotiationSettings

namespace Settings

def router (s : Settings) : Setup σ (Router (HandlerRef σ)) := do
  let router : Router (HandlerRef σ) := ⟨← Setup.check (s.routes.mapM (·.route))⟩
  Setup.emit (router.loadedEvent HandlerRef.description)
  return router

/-- The policies by path; none are in force when none is configured. -/
def policyTable (s : Settings) : Except Failure (Option PolicyTable) :=
  if s.policies.isEmpty then .ok none else (s.policies.mapM PolicySettings.entry).map some

def interceptorRegistry (s : Settings) (available : String → Option (Interceptor σ)) :
    Setup σ (InterceptorRegistry σ) :=
  s.interceptors.mapM (·.build available)

def handlerNames (s : Settings) : List String := s.routes.map (·.handler) ++ s.defaultHandler.toList

/-- The mapping that the settings describe. Every handler in use has to be registered. -/
def mapping (s : Settings) (registry : HandlerRegistry σ)
    (available : String → Option (Interceptor σ)) : Setup σ (HandlerMapping σ) := do
  match s.handlerNames.find? fun name => (registry.find? name).isNone with
  | some name => throw (because ("Handler '" ++ name ++ "' is not registered"))
  | none => pure ()
  let router ← s.router
  let interceptors ← s.interceptorRegistry available
  let table ← Setup.check s.policyTable
  HandlerMapping.new {
    lookup := .byUrl router
    registry := some registry
    defaultHandler := s.defaultHandler.map .named
    interceptors
    corsSource := table.map (·.source) }

end Settings

end Switchyard.Config
