import Switchyard.Cors.Policy
import Switchyard.Http.Request
import Switchyard.Http.Response
import Switchyard.Journal
/-!
# CORS decisions on requests

Whether a request from another origin may go on, and the headers that its response gets. A
rejection leaves the headers alone and replaces status and body; an acceptance leaves status and
body alone.
-/

namespace Switchyard.Cors

def origin : String := "origin"
def requestMethod : String := "access-control-request-method"
def requestHeaders : String := "access-control-request-headers"
def allowOrigin : String := "access-control-allow-origin"
def allowMethods : String := "access-control-allow-methods"
def allowHeaders : String := "access-control-allow-headers"
def allowCredentials : String := "access-control-allow-credentials"
def exposeHeaders : String := "access-control-expose-headers"
def maxAge : String := "access-control-max-age"
def vary : String := "vary"

def rejectionStatus : Nat := 403

def rejectionBody : String := "Invalid CORS request"

def varyValues : List String :=
  ["Origin", "Access-Control-Request-Method", "Access-Control-Request-Headers"]

def isCors (r : Request) : Bool := (r.header? origin).isSome

def isPreflight (r : Request) : Bool :=
  r.method == Method.options && isCors r && (r.header? requestMethod).isSome

/-- Whether an origin is that of the request itself, by its scheme and `Host` header. -/
def isSameOrigin (r : Request) (origin : String) : Bool :=
  match ((r.header? "host").map Text.trimmed).filter (· != "") with
  | none => false
  | some host =>
    match Url.parse? origin, Url.parse? (r.scheme ++ "://" ++ host) with
    | some a, some b => a.sameOrigin b
    | _, _ => false

/-- What was decided on a request: whether it may go on, the response, and what to report. -/
structure Verdict where
  allowed : Bool
  response : Response
  event : Option Event

def addVary (r : Response) : Response := r.addHeaderValues vary varyValues

def reject (r : Response) (event : Event) : Verdict :=
  ⟨false, { r with status := rejectionStatus, body := .text rejectionBody }, some event⟩

/-- The method that the policy has to allow: a pre-flight request names it in a header. -/
def judgedMethod? (req : Request) : Option Method :=
  if isPreflight req then
    (req.header? requestMethod).bind fun m => Method.ofName? (Text.trimmed m)
  else some req.method

def requestedHeaders (req : Request) : List String :=
  if isPreflight req then (req.headers.getAll requestHeaders).flatMap (Text.listItems ',') else []

/-- Sets a header to a list of values, unless there are none. -/
def setList (name : String) (values : List String) (r : Response) : Response :=
  if values.isEmpty then r else r.setHeader name (Text.joinWith ", " values)

def accept (policy : CorsPolicy) (req : Request) (origin : String) (methods headers : List String)
    (res : Response) : Response :=
  let preflight := isPreflight req
  let res := (addVary res).setHeader allowOrigin origin
  let res := if preflight then
      setList allowHeaders headers (res.setHeader allowMethods (Text.joinWith ", " methods))
    else res
  let res := setList exposeHeaders (policy.exposedHeaders.getD []) res
  let res := if policy.allowCredentials = some true then res.setHeader allowCredentials "true" else res
  match preflight, policy.maxAge with
  | true, some age => res.setHeader maxAge (toString age)
  | _, _ => res

/-- The decision of a policy on a request from another origin: origin first, then method, then
headers. -/
def judge (policy : CorsPolicy) (req : Request) (origin : String) (res : Response) : Verdict :=
  let preflight := isPreflight req
  match policy.checkOrigin origin with
  | none =>
    reject res (.warn "CORS: origin not allowed"
      [("origin", .text origin), ("preflight", .flag preflight)])
  | some answer =>
    match judgedMethod? req with
    | none =>
      reject res (.warn "CORS preflight: invalid Access-Control-Request-Method"
        [("requested_method", .text (Text.optional Text.quoted (req.header? requestMethod)))])
    | some method =>
      match policy.checkMethod method with
      | none =>
        reject res (.warn "CORS: method not in allowed methods"
          [("method", .text method.name), ("preflight", .flag preflight)])
      | some methods =>
        match policy.checkHeaders (requestedHeaders req) with
        | none =>
          reject res (.warn "CORS preflight: requested headers not allowed"
            [("requested_headers", .text (Text.quotedList (requestedHeaders req)))])
        | some headers =>
          ⟨true, accept policy req answer methods headers res,
            some (.debug "CORS: request allowed"
              [("origin", .text origin), ("preflight", .flag preflight)])⟩

/-- The decision on any request under the policy that applies, if one does. Requests that name no
origin, name their own, or whose response already has an answer go on. -/
def process (policy : Option CorsPolicy) (req : Request) (res : Response) : Verdict :=
  match req.header? origin with
  | none => ⟨true, res, none⟩
  | some o =>
    if isSameOrigin req o then
      ⟨true, addVary res,
        some (.debug "CORS: same-origin request, skipping CORS headers" [("origin", .text o)])⟩
    else if res.headers.has allowOrigin then
      ⟨true, addVary res,
        some (.debug "CORS: response already carries Access-Control-Allow-Origin" [])⟩
    else
      match policy with
      | some policy => judge policy req o res
      | none =>
        if isPreflight req then
          reject res (.warn "CORS preflight: no configuration applies" [("origin", .text o)])
        else ⟨true, addVary res, none⟩

end Switchyard.Cors
