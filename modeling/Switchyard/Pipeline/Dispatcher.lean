import Switchyard.Pipeline.Mapping
import Switchyard.View.NameTranslator
import Switchyard.View.Resolver
/-!
# Dispatching

The whole way of a request: mapping, interceptors, handler, view and completion. A handler that
goes on in the background suspends its request; the suspended dispatch is a value that is later
resumed with a result, waited for, or given up.

Nothing in this value says whether that has happened: `resume`, `wait` and `drop` can be applied to
it again. That a dispatch ends once is up to whoever keeps the suspended one and lets go of it when
it ends, as `Suspension` does.
-/

namespace Switchyard

variable {σ : Type}

/-- A request with its response. -/
structure Exchange where
  request : Request
  response : Response

/-- Mappings and view resolvers in their order. -/
structure Dispatcher (σ : Type) where
  mappings : List (HandlerMapping σ) := []
  resolvers : List (ViewResolver σ) := []
  viewName? : Request → Option String := fun req => ({} : NameTranslator).viewName? req.path
  defaultLocale : String := "en"

/-- A dispatch whose handler goes on in the background. -/
structure Pending (σ : Type) where
  chain : Chain σ
  exchange : Exchange
  result : Deferred

/-- How a dispatch ended. -/
inductive DispatchOutcome (σ : Type) where
  | completed (exchange : Exchange)
  | rejected (exchange : Exchange)
  | notFound (exchange : Exchange)
  | suspended (pending : Pending σ)

namespace Dispatcher

/-- The locale of requests that name none, unless another one is configured. -/
def standardLocale : String := "en"

/-- Sets a dispatcher up; mappings and resolvers are taken by their order. -/
def new (d : Dispatcher σ) : Act σ (Dispatcher σ) := do
  Act.emit (.info "Dispatcher initialized"
    [("mappings", .number d.mappings.length), ("view_resolvers", .number d.resolvers.length)])
  return { d with
    mappings := Order.sortBy (·.order) d.mappings
    resolvers := Order.sortBy (·.order) d.resolvers }

/-- The locale of a request: its first accepted language, if it names one. -/
def locale (d : Dispatcher σ) (req : Request) : String :=
  let head (sep : Char) (s : List Char) : List Char := (s.splitOn sep).headD []
  match req.header? "accept-language" with
  | none => d.defaultLocale
  | some value =>
    let tag := Text.trim (head ';' (head ',' value.toList))
    if tag.isEmpty || tag = ['*'] then d.defaultLocale else String.ofList tag

def withDefaultView (d : Dispatcher σ) (req : Request) (shown : ModelAndView) :
    Act σ ModelAndView := do
  match shown.view, d.viewName? req with
  | none, some name =>
    Act.emit (.debug "Using default view name" [("view_name", .text name)])
    return { shown with view := some (.name name) }
  | _, _ => return shown

/-- The view of a reference, and the attributes published on the way. -/
def viewOf (d : Dispatcher σ) (req : Request) : ViewRef →
    Act σ (Except DispatchError View × List Attribute)
  | .view v => return (.ok v, [])
  | .name name => do
    let (result, published) ← ViewResolver.first name (d.locale req) d.resolvers req
    match result with
    | .error e => return (.error e, published)
    | .ok (some v) => return (.ok v, published)
    | .ok none =>
      Act.emit (.warn "View name not resolved" [("view_name", .text name)])
      return (.error (.viewNotResolved name), published)

def render (d : Dispatcher σ) (shown : ModelAndView) (x : Exchange) :
    Act σ (Except DispatchError Unit × Exchange) := do
  let x := { x with response.status := shown.status.getD x.response.status }
  match shown.view with
  | none => return (.ok (), x)
  | some ref =>
    let (result, published) ← d.viewOf x.request ref
    let request := x.request.publishAll published
    match result with
    | .error e => return (.error e, { x with request })
    | .ok view =>
      Act.emit (.debug "Rendering view" [("view", .text view.name)])
      let (result, response) := view.render shown.model request x.response
      return (result, ⟨request, response⟩)

/-- Runs the interceptors after the handler and shows what there is to show. -/
def postHandleAndRender (d : Dispatcher σ) (c : Chain σ) (x : Exchange)
    (shown : Option ModelAndView) : Act σ (Except DispatchError Unit × Chain σ × Exchange) := do
  let shown ← shown.mapM (d.withDefaultView x.request)
  let (result, c, response, shown) ← c.postHandle x.request x.response shown
  let x := { x with response }
  match result, shown with
  | .error e, _ => return (.error e, c, x)
  | .ok (), none => return (.ok (), c, x)
  | .ok (), some shown =>
    let (result, x) ← d.render shown x
    return (result, c, x)

def finish (d : Dispatcher σ) (c : Chain σ) (x : Exchange) (shown : Option ModelAndView) :
    Act σ (Except DispatchError Exchange) := do
  let (result, c, x) ← d.postHandleAndRender c x shown
  match result with
  | .ok () =>
    let (_, response) ← c.complete x.request x.response none
    return .ok { x with response }
  | .error e =>
    let _ ← c.complete x.request x.response (some e)
    return .error e

/-- The chain of the first mapping that has one. Attributes that a mapping publishes stay for those
asked after it. -/
def chainFor : List (HandlerMapping σ) → Request →
    Act σ (Except DispatchError (Option (Chain σ)) × Request)
  | [], req => return (.ok none, req)
  | m :: rest, req => do
    let (result, req) ← m.resolve req
    match result with
    | .ok none => chainFor rest req
    | _ => return (result, req)

def notFound (res : Response) : Response :=
  { ({ res with status := 404 }.setHeader "content-type" "application/json") with
    body := .object [("error", .text "Not Found")] }

/-- Runs a chain up to its end, or until its handler goes on in the background. -/
def runChain (d : Dispatcher σ) (c : Chain σ) (x : Exchange) :
    Act σ (Except DispatchError (DispatchOutcome σ)) := do
  let (result, c, response) ← c.preHandle x.request x.response
  let x := { x with response }
  match result with
  | .error e => return .error e
  | .ok false =>
    Act.emit (.debug "Request rejected by interceptor" [("status", .number x.response.status)])
    return .ok (.rejected x)
  | .ok true =>
    let (result, c, response) ← c.invoke x.request x.response
    let x := { x with response }
    match result with
    | .error e =>
      Act.emit (.warn "Handler failed"
        [("handler", .text c.handler.name), ("error", .text e.message)])
      let _ ← c.complete x.request x.response (some e)
      return .error e
    | .ok .handled => return (← d.finish c x none).map .completed
    | .ok (.view shown) => return (← d.finish c x (some shown)).map .completed
    | .ok (.async deferred) =>
      let (c, response) ← c.notifyAsync x.request x.response
      Act.emit (.debug "Request suspended"
        [("handler", .text c.handler.name),
          ("timeout_ms", .text (Text.optional toString deferred.timeout))])
      return .ok (.suspended ⟨c, { x with response }, deferred⟩)

def dispatch (d : Dispatcher σ) (req : Request) (res : Response := {}) :
    Act σ (Except DispatchError (DispatchOutcome σ)) := do
  let (result, req) ← chainFor d.mappings req
  match result with
  | .error e => return .error e
  | .ok none =>
    Act.emit (.info "No handler for request"
      [("method", .text req.method.name), ("path", .text req.path)])
    return .ok (.notFound ⟨req, notFound res⟩)
  | .ok (some chain) => d.runChain chain ⟨req, res⟩

/-- Ends a suspended dispatch with a result. Its sender can deliver no more. -/
def resume (d : Dispatcher σ) (p : Pending σ) (value : AsyncValue) :
    Act σ (Except DispatchError Exchange) := do
  Act.abandon p.result
  let request := { p.exchange.request with dispatchType := .async }
  Act.emit (.debug "Resuming async dispatch" [("ok", .flag value.isOk)])
  match value with
  | .ok shown => d.finish p.chain { p.exchange with request } shown
  | .error e =>
    let _ ← p.chain.complete request p.exchange.response (some e)
    return .error e

/-- Waits for the result of a suspended dispatch and ends it with that. -/
def wait (d : Dispatcher σ) (p : Pending σ) : Act σ (Except DispatchError Exchange) := do
  let value ← Act.await p.result
  match value with
  | .ok _ => pure ()
  | .error e => Act.emit (.warn "Async result not delivered" [("error", .text e.message)])
  d.resume p value

/-- Gives a suspended dispatch up. Its interceptors see it end as abandoned. -/
def drop (p : Pending σ) : Act σ Unit := do
  Act.emit (.warn "Pending dispatch dropped before completion" [])
  let _ ← p.chain.complete p.exchange.request p.exchange.response (some .asyncCancelled)
  Act.abandon p.result

/-- Dispatches a request, waits if it is suspended, and turns an error into a response. -/
def handle (d : Dispatcher σ) (req : Request) : Act σ Response := do
  let result ← match ← d.dispatch req with
    | .error e => pure (.error e)
    | .ok (.completed x) | .ok (.rejected x) | .ok (.notFound x) => pure (.ok x)
    | .ok (.suspended p) => d.wait p
  match result with
  | .ok x => return x.response
  | .error e =>
    Act.emit (.error "Dispatch failed" [("error", .text e.message)])
    return .error e.status e.message

def describe (d : Dispatcher σ) : String :=
  "Dispatcher \x7b mappings: " ++ Text.bracketed (d.mappings.map (·.describe)) ++
    ", view_resolvers: " ++ toString d.resolvers.length ++ ", default_locale: " ++
    Text.quoted d.defaultLocale ++ " \x7d"

end Dispatcher

def Pending.describe (p : Pending σ) : String :=
  "PendingDispatch \x7b request_id: " ++
    Text.optional Text.quoted (p.exchange.request.id.map RequestId.render) ++ ", chain: Some(" ++
    p.chain.describe ++ ") \x7d"

end Switchyard
