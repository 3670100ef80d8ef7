import Switchyard.Cors.Policy
import Switchyard.Pipeline.Interceptor
/-!
# Handlers

Application logic, the references by which routes name it, and the registry that resolves names. The
policy that a handler carries is the same for all requests, and the attributes of a request are
published by mappings and view resolvers only, never by a handler or an interceptor.
-/

namespace Switchyard

variable {σ : Type}

/-- What a handler produced: a finished response, something to show, or a result to come. -/
inductive Outcome where
  | handled
  | view (shown : ModelAndView)
  | async (result : Deferred)

def Outcome.kind : Outcome → String
  | handled => "Handled"
  | view _ => "View"
  | async _ => "Async"

/-- A handler, perhaps with a CORS policy of its own. -/
structure Handler (σ : Type) where
  name : String
  cors : Option CorsPolicy := none
  run : Request → Response → Act σ (Except DispatchError Outcome × Response)

/-- A handler by itself, by name, or wrapped in interceptors that it carries. -/
inductive HandlerRef (σ : Type) where
  | raw (handler : Handler σ)
  | named (name : String)
  | chain (inner : HandlerRef σ) (interceptors : List (Interceptor σ))

namespace HandlerRef

def description : HandlerRef σ → String
  | raw h => h.name
  | named n => n
  | chain inner _ => inner.description

def describe : HandlerRef σ → String
  | raw h => "Raw(" ++ Text.quoted h.name ++ ")"
  | named n => "Named(" ++ Text.quoted n ++ ")"
  | chain inner interceptors =>
    "Chain \x7b handler: " ++ inner.describe ++ ", interceptors: " ++
      Text.quotedList (interceptors.map (·.name)) ++ " \x7d"

/-- The interceptors that a reference carries, those of the innermost chain first. -/
def carried : HandlerRef σ → List (Interceptor σ)
  | chain inner interceptors => inner.carried ++ interceptors
  | _ => []

/-- The reference inside all chains: a handler, or the name of one. -/
def leaf : HandlerRef σ → String ⊕ Handler σ
  | raw h => .inr h
  | named n => .inl n
  | chain inner _ => inner.leaf

end HandlerRef

/-- Handlers by name; a name occurs once. -/
structure HandlerRegistry (σ : Type) where
  entries : List (String × Handler σ) := []

namespace HandlerRegistry

def find? (r : HandlerRegistry σ) (name : String) : Option (Handler σ) :=
  (r.entries.find? fun e => e.1 == name).map (·.2)

/-- Registers a handler in place of an earlier one of the same name. -/
def insert (r : HandlerRegistry σ) (name : String) (h : Handler σ) : HandlerRegistry σ :=
  ⟨r.entries.filter (fun e => e.1 != name) ++ [(name, h)]⟩

def register (r : HandlerRegistry σ) (name : String) (h : Handler σ) :
    Act σ (HandlerRegistry σ) := do
  let after := r.insert name h
  Act.emit <|
    if (r.find? name).isSome then .warn "Replaced existing handler" [("handler_name", .text name)]
    else .info "Handler registered successfully"
      [("handler_name", .text name), ("total_handlers", .number after.entries.length)]
  return after

def names (r : HandlerRegistry σ) : List String :=
  (r.entries.map (·.1)).mergeSort fun a b => a ≤ b

def resolve (r : HandlerRegistry σ) (ref : HandlerRef σ) : Except DispatchError (Handler σ) :=
  match ref.leaf with
  | .inr h => .ok h
  | .inl name =>
    match r.find? name with
    | some h => .ok h
    | none => .error (.unknownHandler name)

end HandlerRegistry

end Switchyard
