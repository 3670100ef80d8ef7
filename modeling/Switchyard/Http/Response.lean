import Switchyard.Http.Headers
import Switchyard.Value
/-!
# Responses

The response under construction: status, headers and body.
-/

namespace Switchyard

/-- A response; an untouched one has status 200, no headers and no body. -/
structure Response where
  status : Nat := 200
  headers : Headers := []
  body : Value := .null
  deriving Repr, Inhabited

namespace Response

def json (status : Nat) (body : Value) : Response :=
  ⟨status, [("content-type", "application/json")], body⟩

def error (status : Nat) (message : String) : Response :=
  json status (.object [("error", .text message)])

def header? (r : Response) (name : String) : Option String := r.headers.get? name

def setHeader (r : Response) (name value : String) : Response :=
  { r with headers := r.headers.set name value }

theorem header?_setHeader (r : Response) (name value other : String) :
    (r.setHeader name value).header? other =
      if Text.sameFold name other then some value else r.header? other :=
  Headers.get?_set r.headers name value other

def addHeaderValues (r : Response) (name : String) (values : List String) : Response :=
  { r with headers := r.headers.addValues name values }

end Response

end Switchyard
