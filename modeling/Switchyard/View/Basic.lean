import Switchyard.Error
import Switchyard.Http.Request
import Switchyard.Http.Response
import Switchyard.Text.Quoted
/-!
# Models and views

A view writes a model into a response. A handler names a view or brings one, with its model.
-/

namespace Switchyard

abbrev Model := List (String × Value)

/-- Sets an entry in place of one of the same name. -/
def Model.put (m : Model) (name : String) (value : Value) : Model :=
  m.filter (fun p => p.1 != name) ++ [(name, value)]

/-- A view: what it says of itself and how it writes a model into a response. -/
structure View where
  name : String
  contentType : Option MediaType := none
  isRedirect : Bool := false
  render : Model → Request → Response → Except DispatchError Unit × Response

/-- A view by its name or by itself. -/
inductive ViewRef where
  | name (name : String)
  | view (view : View)

/-- What a handler has to show: a view, if it chose one, a model and perhaps a status. -/
structure ModelAndView where
  view : Option ViewRef := none
  model : Model := []
  status : Option Nat := none

instance : Inhabited ModelAndView := ⟨{}⟩

def ViewRef.describe : ViewRef → String
  | name n => "Name(" ++ Text.quoted n ++ ")"
  | view v => "View(" ++ Text.quoted v.name ++ ")"

namespace View

/-- Writes the model as a JSON object, under the content type that negotiation selected if that is
no range. -/
def json (contentType : MediaType := .applicationJson) : View where
  name := "JsonView"
  contentType := some contentType
  render model req res :=
    let chosen := (req.attributes.selected.filter MediaType.isConcrete).getD contentType
    (.ok (), { res.setHeader "content-type" chosen.render with body := .object model })

/-- Replaces each `{name}` by the path variable of that name; others stay as they are. -/
def expand (value? : String → Option String) (url : List Char) : List Char :=
  match url with
  | [] => []
  | c :: rest =>
    if c = '\x7b' then
      match _h : Text.cutFirst '\x7d' rest with
      | none => c :: rest
      | some (name, after) =>
        (match value? (String.ofList name) with
          | some value => value.toList
          | none => c :: name ++ ['\x7d']) ++ expand value? after
    else c :: expand value? rest
termination_by url.length
decreasing_by
  · have := Text.cutFirst_length _h
    simp only [List.length_cons]
    omega
  · simp

/-- Sends the client to an address with the path variables filled in. -/
def redirect (url : String) (status : Nat := 302) : View where
  name := "RedirectView"
  isRedirect := true
  render _ req res :=
    let location := String.ofList (expand req.pathVariable? url.toList)
    (.ok (), { res with status }.setHeader "location" location)

def notAcceptable : View where
  name := "NotAcceptableView"
  render _ _ res := (.ok (), { res with status := 406 })

end View

end Switchyard
