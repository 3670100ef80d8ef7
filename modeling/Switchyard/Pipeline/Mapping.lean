import Switchyard.Cors.Processor
import Switchyard.Cors.Source
import Switchyard.Order
import Switchyard.Pipeline.Chain
import Switchyard.Routing.Router
/-!
# Handler mappings

From a request to the chain that serves it: the handler that a lookup finds, the interceptors that
it carries and those registered for the path, and the CORS policy that applies to it.
-/

namespace Switchyard

variable {σ : Type}

/-- What a lookup answers: a reference, none or an error, and the attributes it publishes. -/
abbrev LookupAnswer (σ : Type) := Except DispatchError (Option (HandlerRef σ)) × List Attribute

/-- A lookup, asked with a request and the method that counts for it. -/
abbrev Lookup (σ : Type) := Request → Method → Act σ (LookupAnswer σ)

namespace Lookup

def published (m : RouteMatch (HandlerRef σ)) : List Attribute :=
  [.pattern m.route.pattern.raw, .handler m.route.target.description, .params m.params] ++
    if m.route.produces.isEmpty then [] else [.produces m.route.produces]

def byUrl (router : Router (HandlerRef σ)) : Lookup σ := fun req method => do
  Act.emitAll (router.routeEvents method req.path)
  match router.route? method req.path with
  | none => return (.ok none, [])
  | some found => return (.ok (some found.route.target), published found)

end Lookup

/-- Decides on a request under a policy, if one applies, and may write the response. -/
abbrev CorsProcessor (σ : Type) := Option CorsPolicy → Request → Response → Act σ (Bool × Response)

namespace CorsProcessor

def standard : CorsProcessor σ := fun policy req res => do
  let verdict := Cors.process policy req res
  Act.emitAll verdict.event.toList
  return (verdict.allowed, verdict.response)

/-- Answers pre-flight requests in place of the handler they are about. -/
def preFlightHandler (p : CorsProcessor σ) (policy : Option CorsPolicy) : Handler σ where
  name := "PreFlightHandler"
  cors := policy
  run req res := do
    let (_, res) ← p policy req res
    return (.ok .handled, res)

/-- Guards a handler: only requests that the policy allows pass. Continued requests were judged
when they came in. -/
def interceptor (p : CorsProcessor σ) (policy : CorsPolicy) : Interceptor σ where
  name := "CorsInterceptor"
  preHandle call res :=
    if call.request.dispatchType = .async then return (.ok true, res)
    else do
      let (allowed, res) ← p (some policy) call.request res
      return (.ok allowed, res)

end CorsProcessor

/-- A mapping from requests to chains. -/
structure HandlerMapping (σ : Type) where
  lookup : Lookup σ
  registry : Option (HandlerRegistry σ) := none
  defaultHandler : Option (HandlerRef σ) := none
  interceptors : InterceptorRegistry σ := []
  corsSource : Option (Request → Option CorsPolicy) := none
  corsProcessor : CorsProcessor σ := .standard
  order : Int := Order.lowest

namespace HandlerMapping

def initializedEvent (m : HandlerMapping σ) : Event :=
  .info "Handler mapping initialized"
    [("interceptors", .number m.interceptors.length),
      ("has_default_handler", .flag m.defaultHandler.isSome),
      ("has_cors_source", .flag m.corsSource.isSome), ("order", .number m.order)]

def new (m : HandlerMapping σ) : Act σ (HandlerMapping σ) := do
  Act.emit m.initializedEvent
  return m

def register (m : HandlerMapping σ) (entry : ScopedInterceptor σ) : Act σ (HandlerMapping σ) := do
  let after := { m with interceptors := m.interceptors ++ [entry] }
  Act.emit (.info "Interceptor registered"
    [("interceptor", .text entry.interceptor.name),
      ("total_interceptors", .number after.interceptors.length)])
  return after

/-- The method by which a handler is looked for: a pre-flight request is about another one. -/
def lookupMethod (req : Request) : Method :=
  if Cors.isPreflight req then (Cors.judgedMethod? req).getD req.method else req.method

/-- The policy that applies: that of the path and that of the handler, combined. -/
def effectivePolicy (global handler : Option CorsPolicy) :
    Except CorsFault (Option CorsPolicy) := do
  let policy ← match global, handler with
    | some g, some h => do pure (some (← g.combine h))
    | some g, none => pure (some g)
    | none, h => pure h
  match policy with
  | some p => p.checkCredentials
  | none => pure ()
  return policy

/-- The handler behind a reference; without a registry no name leads to one. -/
def handlerOf (m : HandlerMapping σ) (ref : HandlerRef σ) : Except DispatchError (Handler σ) :=
  (m.registry.getD {}).resolve ref

/-- The chain for a handler that was found. The policy that applies guards it, or answers in its
place when the request is a pre-flight one. -/
def chainFor (m : HandlerMapping σ) (req : Request) (ref : HandlerRef σ) :
    Act σ (Except DispatchError (Chain σ)) := do
  match m.handlerOf ref with
  | .error e => return .error e
  | .ok handler =>
    let interceptors := ref.carried ++ InterceptorRegistry.matching m.interceptors req.path
    let preflight := Cors.isPreflight req
    match effectivePolicy (m.corsSource.bind fun source => source req) handler.cors with
    | .error fault =>
      Act.emit (.warn "Invalid CORS configuration"
        [("path", .text req.path), ("error", .text fault.message)])
      return .error (.cors fault)
    | .ok policy =>
      if preflight then
        Act.emit (.debug "Replacing chain with pre-flight handler"
          [("handler", .text handler.name)])
        return .ok { handler := m.corsProcessor.preFlightHandler policy }
      else
        let guards := policy.toList.map m.corsProcessor.interceptor
        return .ok { handler, interceptors := guards ++ interceptors }

def find (m : HandlerMapping σ) (req : Request) : Act σ (LookupAnswer σ) := do
  let method := lookupMethod req
  let (result, published) ← m.lookup req method
  match result, m.defaultHandler with
  | .ok none, some ref =>
    Act.emit (.debug "Using default handler" [("path", .text req.path)])
    return (.ok (some ref), published)
  | .ok none, none =>
    Act.emit (.debug "No handler found"
      [("method", .text method.name), ("path", .text req.path)])
    return (.ok none, published)
  | found, _ => return (found, published)

/-- Resolves a request: the chain that serves it, none, or an error, and the request with what the
lookup published on it. -/
def resolve (m : HandlerMapping σ) (req : Request) :
    Act σ (Except DispatchError (Option (Chain σ)) × Request) := do
  let (result, published) ← m.find req
  let req := req.publishAll published
  match result with
  | .error e => return (.error e, req)
  | .ok none => return (.ok none, req)
  | .ok (some ref) =>
    match ← m.chainFor req ref with
    | .error e => return (.error e, req)
    | .ok chain =>
      Act.emit (.info "Handler mapped"
        [("method", .text req.method.name), ("path", .text req.path),
          ("handler", .text chain.handler.name),
          ("interceptors", .number chain.interceptors.length),
          ("preflight", .flag (Cors.isPreflight req))])
      return (.ok (some chain), req)

def describe (m : HandlerMapping σ) : String :=
  "HandlerMapping \x7b default_handler: " ++ Text.optional HandlerRef.describe m.defaultHandler ++
    ", interceptors: " ++ toString m.interceptors.length ++
    ", has_cors_source: " ++ toString m.corsSource.isSome ++
    ", order: " ++ toString m.order ++ ", .. \x7d"

end HandlerMapping

end Switchyard
