import Switchyard.Negotiation.Negotiator
import Switchyard.View.Resolver
/-!
# Negotiated views

A resolver that collects the views of other resolvers and chooses the one whose content type suits
the request best: by the order of the negotiated types first, then by the order of collection.
-/

namespace Switchyard

variable {σ : Type}

/-- A resolver that negotiates among the views of others. -/
structure NegotiatingResolver (σ : Type) where
  negotiator : Negotiator
  resolvers : List (ViewResolver σ)
  defaultViews : List View := []
  useNotAcceptable : Bool := false
  order : Int := Order.highest

namespace NegotiatingResolver

def new (negotiator : Negotiator) (resolvers : List (ViewResolver σ)) : NegotiatingResolver σ where
  negotiator
  resolvers := Order.sortBy (·.order) resolvers

/-- Of an accepted and a produced type that are compatible the more specific one, with the quality
of the accepted one. -/
def mostSpecific (accept produce : MediaType) : MediaType :=
  let produce := produce.copyQuality accept
  if accept.specificityCmp produce = .lt then accept else produce

/-- The types that a request's handler produces; without a declaration it may be any. -/
def producible (req : Request) : List MediaType :=
  match req.attributes.produces with
  | some (m :: ms) => m :: ms
  | _ => [.all]

def addNew (types : List MediaType) (m : MediaType) : List MediaType :=
  if types.any (·.equivalent m) then types else types ++ [m]

/-- The types in which accepted and produced types meet, the preferred first. -/
def compatible (acceptable producible : List MediaType) : List MediaType :=
  let pairs := acceptable.flatMap fun a =>
    (producible.filter a.isCompatibleWith).map (mostSpecific a)
  MediaType.sort (pairs.foldl addNew [])

/-- The types in which a request may be answered; `none` when its preferences are not understood. -/
def mediaTypes? (r : NegotiatingResolver σ) (req : Request) : Option (List MediaType) :=
  match r.negotiator.resolve req with
  | .error _ => none
  | .ok acceptable => some (compatible acceptable (producible req))

private def typeList (types : List MediaType) : Fact :=
  .text (Text.quotedList (types.map MediaType.render))

def mediaTypeEvents (r : NegotiatingResolver σ) (req : Request) : List Event :=
  r.negotiator.events req ++
    match r.negotiator.resolve req with
    | .error fault => [.warn "Content negotiation failed" [("error", .text fault.message)]]
    | .ok acceptable =>
      [.debug "Negotiated media types"
        [("acceptable", typeList acceptable), ("producible", typeList (producible req)),
          ("compatible", typeList (compatible acceptable (producible req)))]]

/-- The names under which a view is asked for: the plain one, then one for each extension of each
type. -/
def viewNames (r : NegotiatingResolver σ) (name : String) (types : List MediaType) : List String :=
  name :: types.flatMap fun m => (r.negotiator.extensionsOf m).map fun e => name ++ "." ++ e

/-- What is collected: views in order or an error, and the attributes published on the way. -/
abbrev Collected := Except DispatchError (List View) × List Attribute

def collectNames (r : ViewResolver σ) (locale : String) : List String → Request → Act σ Collected
  | [], _ => return (.ok [], [])
  | name :: rest, req => do
    let (result, published) ← r.resolve name locale req
    match result with
    | .error e => return (.error e, published)
    | .ok view =>
      let (views, more) ← collectNames r locale rest (req.publishAll published)
      return (views.map (view.toList ++ ·), published ++ more)

def collect (names : List String) (locale : String) :
    List (ViewResolver σ) → Request → Act σ Collected
  | [], _ => return (.ok [], [])
  | r :: rest, req => do
    let (result, published) ← collectNames r locale names req
    match result with
    | .error e => return (.error e, published)
    | .ok views =>
      let (others, more) ← collect names locale rest (req.publishAll published)
      return (others.map (views ++ ·), published ++ more)

/-- The first candidate with a content type compatible with the first type that has one. -/
def bestMatch? (candidates : List View) (types : List MediaType) : Option (MediaType × View) :=
  types.findSome? fun m =>
    (candidates.find? fun v => v.contentType.any m.isCompatibleWith).map fun v => (m, v)

/-- The view to show and the content type to publish for it: the first redirect, which has none,
else the best match. -/
def bestView? (candidates : List View) (types : List MediaType) :
    Option (View × Option MediaType) :=
  match candidates.find? (·.isRedirect) with
  | some v => some (v, none)
  | none => (bestMatch? candidates types).map fun (m, v) => (v, some m.removeQuality)

def refuse (r : NegotiatingResolver σ) (name : String) : Act σ (Option View) := do
  if r.useNotAcceptable then
    Act.emit (.warn "No acceptable view, answering 406" [("view_name", .text name)])
    return some .notAcceptable
  else
    Act.emit (.debug "No acceptable view" [("view_name", .text name)])
    return none

def resolve (r : NegotiatingResolver σ) (name locale : String) (req : Request) :
    Act σ ViewAnswer := do
  Act.emitAll (r.mediaTypeEvents req)
  match r.mediaTypes? req with
  | none => return (.ok (← r.refuse name), [])
  | some types =>
    let (result, published) ← collect (r.viewNames name types) locale r.resolvers req
    match result with
    | .error e => return (.error e, published)
    | .ok found =>
      match bestView? (found ++ r.defaultViews) types with
      | none => return (.ok (← r.refuse name), published)
      | some (view, selected) =>
        let published := published ++ (selected.map Attribute.selected).toList
        let shown := (req.publishAll published).attributes.selected
        Act.emit (.debug "View selected"
          [("view_name", .text name), ("view", .text view.name),
            ("selected_content_type", .text
              (Text.optional Text.quoted (shown.map MediaType.render)))])
        return (.ok (some view), published)

def toResolver (r : NegotiatingResolver σ) : ViewResolver σ where
  order := r.order
  resolve := r.resolve

def describe (r : NegotiatingResolver σ) : String :=
  "ContentNegotiatingViewResolver \x7b resolvers: " ++ toString r.resolvers.length ++
    ", default_views: " ++ Text.quotedList (r.defaultViews.map (·.name)) ++
    ", use_not_acceptable: " ++ toString r.useNotAcceptable ++ ", order: " ++ toString r.order ++
    " \x7d"

end NegotiatingResolver

end Switchyard
