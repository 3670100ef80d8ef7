import Switchyard.Pattern.Basic
import Switchyard.Pipeline.World
/-!
# Interceptors

Behaviour around a handler. An interceptor sees a request before its handler, after it, and when
all is done; one that can also be told when a handler goes on in the background.
-/

namespace Switchyard

variable {σ : Type}

/-- What a callback sees: the request and the name of the handler it is for. -/
structure Call where
  request : Request
  handler : String

/-- An interceptor. Each callback returns its result with the response as it leaves it. -/
structure Interceptor (σ : Type) where
  name : String
  /-- Runs before the handler; `false` ends the request, whose response it has then written. -/
  preHandle : Call → Response → Act σ (Except DispatchError Bool × Response) :=
    fun _ res => return (.ok true, res)
  /-- Runs after the handler and may change what is to be shown. -/
  postHandle : Call → Response → Option ModelAndView →
      Act σ (Except DispatchError Unit × Response × Option ModelAndView) :=
    fun _ res shown => return (.ok (), res, shown)
  /-- Runs when the request is done, with the error that ended it, if one did. -/
  afterCompletion : Call → Response → Option DispatchError →
      Act σ (Except DispatchError Unit × Response) :=
    fun _ res _ => return (.ok (), res)
  /-- Runs when the handler has gone on in the background, for those that want to know. -/
  asyncStarted : Option (Call → Response → Act σ (Except DispatchError Unit × Response)) := none

namespace Interceptor

def isAsyncCapable (i : Interceptor σ) : Bool := i.asyncStarted.isSome

def describe (i : Interceptor σ) : String :=
  "InterceptorHandle \x7b name: " ++ Text.quoted i.name ++ ", async_capable: " ++
    toString i.isAsyncCapable ++ " \x7d"

/-- The header that carries the token, unless another one is configured. -/
def defaultAuthHeader : String := "authorization"

/-- Lets a request pass whose header holds the token, and refuses all others. -/
def auth (token : String) (header : String := defaultAuthHeader) : Interceptor σ where
  name := "auth"
  preHandle call res :=
    if call.request.header? (Text.lower header) = some token then return (.ok true, res)
    else
      return (.ok false,
        { res with status := 401, body := .object [("error", .text "Unauthorized")] })

/-- Counts requests, failures and background work in the counters of the given number. -/
def metrics (meter : Nat) : Interceptor σ where
  name := "metrics"
  preHandle _ res := do
    Act.modifyMeter meter fun m => { m with requests := m.requests + 1 }
    return (.ok true, res)
  afterCompletion _ res error := do
    let failed := error.isSome || 400 ≤ res.status
    Act.modifyMeter meter fun m =>
      { m with
        completions := m.completions + 1
        failures := if failed then m.failures + 1 else m.failures }
    return (.ok (), res)
  asyncStarted := some fun _ res => do
    Act.modifyMeter meter fun m => { m with asyncStarted := m.asyncStarted + 1 }
    return (.ok (), res)

private def callFacts (call : Call) : List (String × Fact) :=
  [("method", .text call.request.method.name), ("path", .text call.request.path),
    ("handler", .text call.handler)]

def tracing : Interceptor σ where
  name := "tracing"
  preHandle call res := do
    let pattern := call.request.attributes.pattern.getD ""
    Act.emit (.info "Request started" (callFacts call ++ [("pattern", .text pattern)]))
    return (.ok true, res)
  afterCompletion call res error := do
    let facts := callFacts call ++ [("status", .number res.status)]
    Act.emit (match error with
      | some e => .warn "Request failed" (facts ++ [("error", .text e.message)])
      | none => .info "Request completed" facts)
    return (.ok (), res)
  asyncStarted := some fun call res => do
    Act.emit (.debug "Handler started async processing" [("handler", .text call.handler)])
    return (.ok (), res)

end Interceptor

/-- The paths that an interceptor is for: all, or those that its patterns include and none of its
patterns exclude. -/
inductive Scope where
  | global
  | mapped (includes excludes : List PathPattern)
  deriving Repr

/-- Whether a path is in the scope. Without patterns to include, every path is. -/
def Scope.appliesTo : Scope → String → Bool
  | global, _ => true
  | mapped includes excludes, path =>
    !excludes.any (·.isMatch path) && (includes.isEmpty || includes.any (·.isMatch path))

def Scope.parse (includes excludes : List String) : Except PatternFault Scope := do
  return .mapped (← includes.mapM PathPattern.parse) (← excludes.mapM PathPattern.parse)

/-- An interceptor with its scope. -/
structure ScopedInterceptor (σ : Type) where
  scope : Scope
  interceptor : Interceptor σ

/-- The interceptors of a mapping in the order of their registration. -/
abbrev InterceptorRegistry (σ : Type) := List (ScopedInterceptor σ)

def InterceptorRegistry.matching (r : InterceptorRegistry σ) (path : String) :
    List (Interceptor σ) :=
  (List.filter (fun e : ScopedInterceptor σ => e.scope.appliesTo path) r).map (·.interceptor)

end Switchyard
