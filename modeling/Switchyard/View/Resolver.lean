import Switchyard.Order
import Switchyard.Pipeline.World
/-!
# View resolvers

From view names to views: by a fixed table, by an address built from the name, and through a cache.
-/

namespace Switchyard

variable {σ : Type}

/-- What a resolver answers: a view, none or an error, and the attributes it publishes. -/
abbrev ViewAnswer := Except DispatchError (Option View) × List Attribute

/-- A view resolver, asked with a view name, a locale and the request. -/
structure ViewResolver (σ : Type) where
  order : Int := Order.lowest
  resolve : String → String → Request → Act σ ViewAnswer

namespace ViewResolver

def named (views : List (String × View)) (order : Int := Order.lowest) : ViewResolver σ where
  order
  resolve name _ _ := return (.ok ((views.reverse.find? fun e => e.1 == name).map (·.2)), [])

def tableNames (views : List (String × View)) : List String :=
  ((views.map (·.1)).eraseDups).mergeSort fun a b => a ≤ b

def describeNamed (views : List (String × View)) (order : Int := Order.lowest) : String :=
  "NamedViewResolver \x7b views: " ++ Text.quotedList (tableNames views) ++ ", order: " ++
    toString order ++ " \x7d"

/-- What a view name begins with when the rest is an address to send the client to. -/
def redirectMark : String := "redirect:"

/-- Builds an address around a name and asks for its view; marked names are redirects. -/
def byUrl (make : String → Act σ (Option View)) (pre post : String := "")
    (order : Int := Order.lowest) : ViewResolver σ where
  order
  resolve name _ _ := do
    match Text.dropStart? redirectMark.toList name.toList with
    | some target => return (.ok (some (View.redirect (String.ofList target))), [])
    | none => return (.ok (← make (pre ++ name ++ post)), [])

def describeByUrl (pre post : String) (order : Int := Order.lowest) : String :=
  "UrlBasedViewResolver \x7b prefix: " ++ Text.quoted pre ++ ", suffix: " ++ Text.quoted post ++
    ", order: " ++ toString order ++ ", .. \x7d"

private def keyFacts (key : ViewKey) : List (String × Fact) :=
  [("view_name", .text key.1), ("locale", .text key.2)]

/-- Remembers the answers of another resolver in the cache of the given number. Errors are passed
on and not remembered. -/
def caching (cache : Nat) (inner : ViewResolver σ) : ViewResolver σ where
  order := inner.order
  resolve name locale req := do
    let key : ViewKey := (name, locale)
    match (← Act.getCache cache).get? key with
    | some (answer, after) =>
      Act.setCache cache after
      return (.ok answer, [])
    | none =>
      let (result, published) ← inner.resolve name locale req
      match result with
      | .error e => return (.error e, published)
      | .ok answer =>
        Act.emit (.debug "Caching view resolution"
          (keyFacts key ++ [("resolved", .flag answer.isSome)]))
        let (evicted, after) := (← Act.getCache cache).store key answer
        Act.setCache cache after
        match evicted with
        | some old => Act.emit (.debug "Evicted cached view" (keyFacts old))
        | none => pure ()
        return (.ok answer, published)

/-- Asks resolvers in order until one has a view; publications reach those asked later. -/
def first (name locale : String) : List (ViewResolver σ) → Request → Act σ ViewAnswer
  | [], _ => return (.ok none, [])
  | r :: rest, req => do
    let (result, published) ← r.resolve name locale req
    match result with
    | .ok none =>
      let (result, more) ← first name locale rest (req.publishAll published)
      return (result, published ++ more)
    | _ => return (result, published)

end ViewResolver

end Switchyard
