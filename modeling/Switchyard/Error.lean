import Switchyard.Cors.Fault
/-!
# Errors of a dispatch

Lookup misses, rejections and refusals are ordinary outcomes; what is an error here goes to the
caller once the interceptors have seen their completion.
-/

namespace Switchyard

/-- A failure of a dispatch. -/
inductive DispatchError where
  | cors (fault : CorsFault)
  | unknownHandler (name : String)
  | interceptor (name message : String)
  | handler (name message : String)
  | viewNotResolved (name : String)
  | render (view message : String)
  | asyncTimeout (milliseconds : Nat)
  | asyncCancelled
  deriving DecidableEq, Repr

namespace DispatchError

def kind : DispatchError → String
  | cors _ => "CorsConfig"
  | unknownHandler _ => "UnknownHandler"
  | interceptor .. => "Interceptor"
  | handler .. => "Handler"
  | viewNotResolved _ => "ViewNotResolved"
  | render .. => "Render"
  | asyncTimeout _ => "AsyncTimeout"
  | asyncCancelled => "AsyncCancelled"

def message : DispatchError → String
  | cors f => f.message
  | unknownHandler n => "No handler registered under the name '" ++ n ++ "'"
  | interceptor n m => "Interceptor '" ++ n ++ "' failed: " ++ m
  | handler n m => "Handler '" ++ n ++ "' failed: " ++ m
  | viewNotResolved n => "Could not resolve view with name '" ++ n ++ "'"
  | render v m => "View '" ++ v ++ "' failed to render: " ++ m
  | asyncTimeout ms => "Async result not produced within " ++ toString ms ++ " ms"
  | asyncCancelled => "Async request abandoned before its result arrived"

def status : DispatchError → Nat
  | asyncTimeout _ => 503
  | _ => 500

def source? : DispatchError → Option String
  | cors f => some f.message
  | _ => none

end DispatchError

end Switchyard
