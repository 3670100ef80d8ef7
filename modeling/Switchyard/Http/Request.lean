import Switchyard.Http.Headers
import Switchyard.Http.Method
import Switchyard.Http.Query
import Switchyard.Http.RequestId
import Switchyard.Media.MediaType
import Switchyard.Value
/-!
# Requests

Requests, and the attributes that the stages of a dispatch publish on them. An attribute is
written once: later writes are refused and change nothing.
-/

namespace Switchyard

/-- Whether a request is dispatched for the first time or continued after it was suspended. -/
inductive DispatchType where
  | request
  | async
  deriving DecidableEq, Repr, Inhabited

/-- What the stages of a dispatch publish on a request. -/
structure Attributes where
  pattern : Option String := none
  handler : Option String := none
  /-- The texts of the path variables. -/
  params : Option (List (String × String)) := none
  produces : Option (List MediaType) := none
  selected : Option MediaType := none
  deriving DecidableEq, Repr, Inhabited

/-- The attributes that a write may bring. -/
inductive Attribute where
  | pattern (text : String)
  | handler (description : String)
  | params (values : List (String × String))
  | produces (types : List MediaType)
  | selected (type : MediaType)
  deriving DecidableEq, Repr

namespace Attributes

def isFree (a : Attributes) : Attribute → Bool
  | .pattern _ => a.pattern.isNone
  | .handler _ => a.handler.isNone
  | .params _ => a.params.isNone
  | .produces _ => a.produces.isNone
  | .selected _ => a.selected.isNone

/-- Writes an attribute into its slot; one that is taken stays as it is. -/
def publish (a : Attributes) : Attribute → Attributes
  | .pattern v => { a with pattern := a.pattern.or (some v) }
  | .handler v => { a with handler := a.handler.or (some v) }
  | .params v => { a with params := a.params.or (some v) }
  | .produces v => { a with produces := a.produces.or (some v) }
  | .selected v => { a with selected := a.selected.or (some v) }

end Attributes

/-- A request. -/
structure Request where
  /-- The caller's identifier; a request without one is given a fresh one that shows nowhere. -/
  id : Option RequestId := none
  method : Method
  scheme : String := "http"
  path : String
  query : List (String × String) := []
  headers : Headers := []
  body : Option Value := none
  dispatchType : DispatchType := .request
  attributes : Attributes := {}
  deriving Repr, Inhabited

namespace Request

def defaultScheme : String := "http"

/-- A request for a target, which is a path and perhaps a query string behind a `?`. -/
def new (method : Method) (target : String) : Request :=
  match Text.cutFirst '?' target.toList with
  | none => { method, path := target }
  | some (path, query) => { method, path := String.ofList path, query := Query.parse query }

def withHeader (r : Request) (name value : String) : Request :=
  { r with
    id := if Text.sameFold name RequestId.header then (RequestId.ofHeader value).toOption else r.id
    headers := r.headers ++ [(name, value)] }

def withScheme (r : Request) (scheme : String) : Request := { r with scheme := Text.lower scheme }

def header? (r : Request) (name : String) : Option String := r.headers.get? name

def queryParam? (r : Request) (name : String) : Option String :=
  (r.query.reverse.find? fun p => p.1 == name).map (·.2)

def pathVariable? (r : Request) (name : String) : Option String := do
  let params ← r.attributes.params
  (params.reverse.find? fun p => p.1 == name).map (·.2)

def publish (r : Request) (a : Attribute) : Request :=
  { r with attributes := r.attributes.publish a }

def publishAll (r : Request) (as : List Attribute) : Request := as.foldl publish r

end Request

end Switchyard
