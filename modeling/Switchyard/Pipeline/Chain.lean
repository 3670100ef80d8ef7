import Switchyard.Pipeline.Handler
/-!
# Execution chains

The run of one request through its interceptors and its handler. Interceptors are asked in order
before the handler and in reverse order after it and at completion. Completion reaches back from
the last interceptor that let the request pass, so that one that never did never sees it.
-/

namespace Switchyard

variable {σ : Type}

/-- How far a chain has come. -/
inductive ChainState where
  | notStarted
  | preHandling
  | shortCircuited
  | handlerInvoking
  | asyncStarted
  | postHandling
  | completing
  | done
  deriving DecidableEq, Repr

def ChainState.name : ChainState → String
  | notStarted => "NotStarted"
  | preHandling => "PreHandling"
  | shortCircuited => "ShortCircuited"
  | handlerInvoking => "HandlerInvoking"
  | asyncStarted => "AsyncStarted"
  | postHandling => "PostHandling"
  | completing => "Completing"
  | done => "Done"

/-- A handler with the interceptors of one request. The cursor is the place of the last interceptor
that let the request pass. -/
structure Chain (σ : Type) where
  handler : Handler σ
  interceptors : List (Interceptor σ) := []
  cursor : Option Nat := none
  state : ChainState := .notStarted
  asyncNotified : Bool := false

namespace Chain

def call (c : Chain σ) (req : Request) : Call := ⟨req, c.handler.name⟩

def add (c : Chain σ) (i : Interceptor σ) : Chain σ :=
  { c with interceptors := c.interceptors ++ [i] }

/-- Puts an interceptor at a place, at the end if there is no such place. -/
def insert (c : Chain σ) (place : Nat) (i : Interceptor σ) : Chain σ :=
  { c with interceptors := c.interceptors.take place ++ i :: c.interceptors.drop place }

def placed (is : List (Interceptor σ)) : List (Nat × Interceptor σ) :=
  is.zipIdx.map fun p => (p.2, p.1)

private def interceptorFacts (i : Interceptor σ) (place : Nat) : List (String × Fact) :=
  [("interceptor", .text i.name), ("interceptor_idx", .number place)]

/-- Tells interceptors one after the other that the request is done. A failure is reported and stops
nothing. -/
def completeEach (call : Call) (error : Option DispatchError) :
    List (Nat × Interceptor σ) → Response → Act σ Response
  | [], res => return res
  | (place, i) :: rest, res => do
    let (result, res) ← i.afterCompletion call res error
    match result with
    | .ok () => pure ()
    | .error e =>
      Act.emit (.error "Interceptor after_completion failed"
        (interceptorFacts i place ++ [("error", .text e.message)]))
    completeEach call error rest res

/-- The interceptors that completion reaches, in the order in which it reaches them. -/
def completed (c : Chain σ) : List (Nat × Interceptor σ) :=
  match c.cursor with
  | none => []
  | some last => (placed (c.interceptors.take (last + 1))).reverse

/-- Ends the request. A chain that was not started or has ended is left alone. -/
def complete (c : Chain σ) (req : Request) (res : Response) (error : Option DispatchError) :
    Act σ (Chain σ × Response) := do
  match c.state with
  | .notStarted | .completing | .done => return (c, res)
  | _ =>
    let res ← completeEach (c.call req) error c.completed res
    return ({ c with state := .done }, res)

/-- How a walk through the interceptors before the handler ended: all let the request pass, or one
at some place refused it or failed. -/
inductive PreResult (σ : Type) where
  | passed
  | refused (place : Nat) (interceptor : Interceptor σ)
  | failed (place : Nat) (interceptor : Interceptor σ) (error : DispatchError)

/-- Asks interceptors until one does not let the request pass. The cursor ends on the last that did. -/
def preHandleEach (call : Call) :
    List (Nat × Interceptor σ) → Option Nat → Response →
    Act σ (PreResult σ × Option Nat × Response)
  | [], cursor, res => return (.passed, cursor, res)
  | (place, i) :: rest, cursor, res => do
    let (result, res) ← i.preHandle call res
    match result with
    | .ok true => preHandleEach call rest (some place) res
    | .ok false => return (.refused place i, cursor, res)
    | .error e => return (.failed place i e, cursor, res)

/-- Runs the interceptors before the handler. When one refuses or fails, the request is completed. -/
def preHandle (c : Chain σ) (req : Request) (res : Response) :
    Act σ (Except DispatchError Bool × Chain σ × Response) := do
  let (result, cursor, res) ← preHandleEach (c.call req) (placed c.interceptors) c.cursor res
  let c := { c with cursor, state := .preHandling }
  match result with
  | .passed => return (.ok true, c, res)
  | .refused place i =>
    Act.emit (.debug "Interceptor pre_handle rejected request" (interceptorFacts i place))
    let (c, res) ← { c with state := .shortCircuited }.complete req res none
    return (.ok false, c, res)
  | .failed place i e =>
    Act.emit (.debug "Interceptor pre_handle failed"
      (interceptorFacts i place ++ [("error", .text e.message)]))
    let (c, res) ← { c with state := .shortCircuited }.complete req res (some e)
    return (.error e, c, res)

def invoke (c : Chain σ) (req : Request) (res : Response) :
    Act σ (Except DispatchError Outcome × Chain σ × Response) := do
  let (result, res) ← c.handler.run req res
  let state := match result with
    | .ok (.async _) => ChainState.asyncStarted
    | _ => .handlerInvoking
  return (result, { c with state }, res)

def postHandleEach (call : Call) :
    List (Interceptor σ) → Response → Option ModelAndView →
    Act σ (Except DispatchError Unit × Response × Option ModelAndView)
  | [], res, shown => return (.ok (), res, shown)
  | i :: rest, res, shown => do
    let (result, res, shown) ← i.postHandle call res shown
    match result with
    | .ok () => postHandleEach call rest res shown
    | .error e => return (.error e, res, shown)

def postHandle (c : Chain σ) (req : Request) (res : Response) (shown : Option ModelAndView) :
    Act σ (Except DispatchError Unit × Chain σ × Response × Option ModelAndView) := do
  let (result, res, shown) ← postHandleEach (c.call req) c.interceptors.reverse res shown
  return (result, { c with state := .postHandling }, res, shown)

/-- Tells interceptors one after the other about background work. A failure is reported and stops
nothing. -/
def notifyEach (call : Call) : List (Nat × Interceptor σ) → Response → Act σ Response
  | [], res => return res
  | (place, i) :: rest, res => do
    match i.asyncStarted with
    | none => notifyEach call rest res
    | some callback =>
      let (result, res) ← callback call res
      match result with
      | .ok () => pure ()
      | .error e =>
        Act.emit (.error "Interceptor after_concurrent_handling_started failed"
          (interceptorFacts i place ++ [("error", .text e.message)]))
      notifyEach call rest res

/-- Tells the interceptors, the last one first, that the handler goes on in the background: once,
and only when it does. -/
def notifyAsync (c : Chain σ) (req : Request) (res : Response) : Act σ (Chain σ × Response) := do
  if c.state != .asyncStarted || c.asyncNotified then return (c, res)
  else
    let res ← notifyEach (c.call req) (placed c.interceptors).reverse res
    return ({ c with asyncNotified := true }, res)

def describe (c : Chain σ) : String :=
  "ExecutionChain \x7b handler: " ++ Text.quoted c.handler.name ++ ", interceptors: " ++
    Text.quotedList (c.interceptors.map (·.name)) ++ ", cursor: " ++
    Text.optional toString c.cursor ++ ", state: " ++ c.state.name ++ " \x7d"

end Chain

end Switchyard
