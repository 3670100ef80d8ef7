import Switchyard.View.Basic
/-!
# Deferred results

The result of a handler that goes on in the background. It arrives through a channel: senders put
values in, the suspended dispatch takes the first one out, and once the dispatch has ended no
sender can deliver any more.
-/

namespace Switchyard

abbrev AsyncValue := Except DispatchError (Option ModelAndView)

/-- The way of a deferred result from its senders to the dispatch that waits for it. -/
structure Channel where
  queue : List AsyncValue := []
  senders : Nat := 1
  isOpen : Bool := true

instance : Inhabited Channel := ⟨{ senders := 0, isOpen := false }⟩

/-- The waiting end of a channel, with the longest time to wait in milliseconds, if there is one. -/
structure Deferred where
  channel : Nat
  timeout : Option Nat
  deriving DecidableEq, Repr

namespace Channel

/-- Delivers a value unless the waiting end is gone, and says whether it did. -/
def send (c : Channel) (value : AsyncValue) : Bool × Channel :=
  if c.isOpen then (true, { c with queue := c.queue ++ [value] }) else (false, c)

def dropSender (c : Channel) : Channel := { c with senders := c.senders - 1 }

def close (c : Channel) : Channel := { c with isOpen := false }

/-- What a wait ends with: the first value, else that all senders are gone, else that the time is
up. A wait that nothing can end counts as abandoned. -/
def await (c : Channel) (timeout : Option Nat) : AsyncValue :=
  match c.queue, c.senders, timeout with
  | value :: _, _, _ => value
  | [], 0, _ => .error .asyncCancelled
  | [], _ + 1, some milliseconds => .error (.asyncTimeout milliseconds)
  | [], _ + 1, none => .error .asyncCancelled

end Channel

/-- A span of time in its shortest unit, with decimals for seconds: `1.5s`, `5ms`, `0ns`. -/
def durationText (milliseconds : Nat) : String :=
  if milliseconds = 0 then "0ns"
  else if milliseconds < 1000 then toString milliseconds ++ "ms"
  else
    let rest := milliseconds % 1000
    let digits := (Nat.toDigits 10 (1000 + rest)).tail
    let decimals := (digits.reverse.dropWhile (· = '0')).reverse
    toString (milliseconds / 1000) ++
      (if decimals.isEmpty then "" else "." ++ String.ofList decimals) ++ "s"

def Deferred.describe (d : Deferred) : String :=
  "DeferredResult \x7b timeout: " ++ Text.optional durationText d.timeout ++ ", .. \x7d"

end Switchyard
