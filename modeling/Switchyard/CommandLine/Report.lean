import Switchyard.CommandLine.Arguments
import Switchyard.Config.Build
import Switchyard.Config.Reader
import Switchyard.Pipeline.Dispatcher
/-!
# Reports of the inspection tool

What the tool prints: the routes of a configuration, or the way of one synthetic request through it.
Handlers and interceptors are stand-ins that carry the configured names and do nothing. A line is
what is printed at once; names and paths stand in it unescaped, so that one with a line feed spreads
over several lines of the output.
-/

namespace Switchyard.CommandLine

open Config (Failure Settings Setup)

/-- A report under construction; the application's state is the lines printed so far. -/
abbrev Report := Setup (Array String)

namespace Report

def line (text : String) : Report Unit := ExceptT.lift (Act.modifyApp fun lines => lines.push text)

def orFail (result : Except DispatchError α) : Report α :=
  Setup.check (result.mapError fun e =>
    Config.because e.message ++ e.source?.toList.flatMap Config.because)

def listed (items : List String) : String :=
  if items.isEmpty then "<none>" else Text.joinWith ", " items

def interceptorLine (place : Nat) (s : Config.InterceptorSettings) : String :=
  "  " ++ toString place ++ ". " ++ s.name ++
    if s.isGlobal then " (global)"
    else " include=" ++ Text.quotedList s.includes ++ " exclude=" ++ Text.quotedList s.excludes

def policyLine (s : Config.PolicySettings) : String :=
  let origins := s.policy.allowedOrigins.getD [] ++ s.policy.allowedOriginPatterns.getD []
  "  " ++ s.pattern ++ " origins=" ++ Text.quotedList origins ++ " methods=" ++
    Text.quotedList (s.policy.allowedMethods.getD []) ++ " credentials=" ++
    Text.optional toString s.policy.allowCredentials

def routes (s : Settings) : Report Unit := do
  let router ← s.router
  line ("Routes (" ++ toString router.routes.length ++ "):")
  (router.table HandlerRef.description).forM fun text => line ("  " ++ text)
  s.defaultHandler.toList.forM fun name => line ("Default handler: " ++ name)
  line ("Interceptors (" ++ toString s.interceptors.length ++ "):")
  s.interceptors.zipIdx.forM fun (i, place) => line (interceptorLine place i)
  let _ ← Setup.check s.policyTable
  line ("CORS mappings (" ++ toString s.policies.length ++ "):")
  s.policies.forM fun p => line (policyLine p)

def standIn (name : String) : Handler σ where
  name
  run _ res := return (.ok .handled, res)

/-- The mapping of a configuration with stand-ins for all handlers and interceptors. -/
def mapping (s : Settings) : Report (HandlerMapping (Array String)) := do
  let registry ← ExceptT.lift (s.handlerNames.foldlM
    (fun registry name => HandlerRegistry.register registry name (standIn name)) {})
  s.mapping registry fun name =>
    if s.interceptors.any (·.name == name) then some { name } else none

/-- The headers by which a response answers a request from another origin. -/
def corsHeaders (res : Response) : List String :=
  (List.filter (fun h : String × String =>
      Text.startsWith "access-control-".toList h.1.toList || Text.sameFold h.1 Cors.vary)
    res.headers).map fun h => h.1 ++ ": " ++ h.2

/-- Whether a request may go on, and the response that a pre-flight request gets. -/
def corsOutcome (c : Chain (Array String)) (req : Request) : Report (Bool × Response) := do
  let (passed, c, res) ← ExceptT.lift (c.preHandle req {})
  let passed ← orFail passed
  if passed && Cors.isPreflight req then
    let (invoked, c, res) ← ExceptT.lift (c.invoke req res)
    let _ ← orFail invoked
    let (_, res) ← ExceptT.lift (c.complete req res none)
    return (res.status != Cors.rejectionStatus, res)
  else
    let (_, res) ← ExceptT.lift (c.complete req res none)
    return (passed, res)

def corsDecision (c : Chain (Array String)) (req : Request) : Report String := do
  if !Cors.isCors req then return "not a CORS request"
  let (passed, res) ← corsOutcome c req
  if !passed then return "rejected (" ++ toString res.status ++ ")"
  if !res.headers.has Cors.allowOrigin then return "allowed (no CORS headers added)"
  return "allowed [" ++ Text.joinWith "; " (corsHeaders res) ++ "]"

def chain (c : Chain (Array String)) (req : Request) : Report Unit := do
  line ("Handler: " ++ c.handler.name)
  req.attributes.pattern.toList.forM fun pattern => line ("Pattern: " ++ pattern)
  line ("Interceptors: " ++ listed (c.interceptors.map (·.name)))
  let texts := (req.attributes.params.getD []).map fun (name, value) => name ++ "=" ++ value
  line ("URI variables: " ++ listed texts)

/-- Prints what media types are negotiated and what is shown in place of a view that nothing
resolves. -/
def negotiation (s : Settings) (c : Chain (Array String)) (req : Request) : Report Unit := do
  let resolver ← Setup.check (s.negotiation.viewResolver [] [])
  ExceptT.lift (Act.emitAll (resolver.mediaTypeEvents req))
  line ("Media types: " ++ match resolver.mediaTypes? req with
    | some types => listed (types.map MediaType.render)
    | none => "negotiation failed")
  let (view, _) ← ExceptT.lift (resolver.resolve c.handler.name Dispatcher.standardLocale req)
  line ("Unresolved view: " ++ match ← orFail view with
    | some view => view.name ++ " (406)"
    | none => "<none>")

def resolution (s : Settings) (req : Request) : Report Unit := do
  let mapping ← mapping s
  line ("Request: " ++ req.method.name ++ " " ++ req.path)
  let (found, req) ← ExceptT.lift (mapping.resolve req)
  match ← orFail found with
  | none => line "Handler: <none> (404)"
  | some c =>
    Setup.emit (.debug "Resolved chain" [("chain", .text c.describe)])
    chain c req
    line ("CORS: " ++ (← corsDecision c req))
    negotiation s c req

end Report

def readHeader (text : String) : Except Failure (String × String) :=
  match Text.cutFirst ':' text.toList with
  | none => .error (Config.because ("Header must be 'Name: value', got '" ++ text ++ "'"))
  | some (name, value) =>
    let name := Text.trim name
    if name.isEmpty then .error (Config.because ("Header name is empty in '" ++ text ++ "'"))
    else .ok (String.ofList name, String.ofList (Text.trim value))

def readMethod (name : String) : Except Failure Method :=
  match Method.ofName? (Text.upper name) with
  | some m => .ok m
  | none =>
    Config.within ("Invalid HTTP method '" ++ name ++ "'")
      (.error (Config.because "invalid HTTP method"))

def readRequest (method path : String) (headers : List String) : Except Failure Request := do
  let method ← readMethod method
  headers.foldlM (fun req text => do
    let (name, value) ← readHeader text
    return req.withHeader name value) (Request.new method path)

/-- Reads the settings of a file, given what the file holds. -/
def loadSettings (path : String) (contents : Option String) : Report Settings := do
  let s ← Setup.check (Settings.load path contents)
  Setup.emit (s.loadedEvent path)
  return s

def Command.config : Command → String
  | routes config => config
  | resolve config .. => config

def Command.execute (contents : Option String) : Command → Report Unit
  | routes config => do Report.routes (← loadSettings config contents)
  | resolve config method path headers => do
    let s ← loadSettings config contents
    Report.resolution s (← Setup.check (readRequest method path headers))

end Switchyard.CommandLine
