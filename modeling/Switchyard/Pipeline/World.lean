import Switchyard.Journal
import Switchyard.Pipeline.Deferred
import Switchyard.View.Cache
/-!
# The world of a pipeline

What the callbacks of a pipeline may change beside the response: the journal, the channels of
deferred results, the counters of metrics, the view caches, and the application's own state.
-/

namespace Switchyard

/-- The counters of one metrics interceptor. -/
structure Meter where
  requests : Nat := 0
  failures : Nat := 0
  asyncStarted : Nat := 0
  completions : Nat := 0
  deriving DecidableEq, Repr, Inhabited

/-- Everything that outlives a single callback. `σ` is the application's own state. -/
structure World (σ : Type) where
  app : σ
  journal : Array Event := #[]
  channels : Array Channel := #[]
  meters : Array Meter := #[]
  caches : Array ViewCache := #[]

abbrev Act (σ : Type) := StateM (World σ)

namespace Act

variable {σ : Type}

def emit (e : Event) : Act σ Unit := modify fun w => { w with journal := w.journal.push e }

def emitAll (es : List Event) : Act σ Unit := es.forM emit

def modifyApp (f : σ → σ) : Act σ Unit := modify fun w => { w with app := f w.app }

def newMeter : Act σ Nat :=
  modifyGet fun w => (w.meters.size, { w with meters := w.meters.push {} })

def modifyMeter (id : Nat) (f : Meter → Meter) : Act σ Unit :=
  modify fun w => { w with meters := w.meters.modify id f }

def newCache (limit : Nat) : Act σ Nat :=
  modifyGet fun w => (w.caches.size, { w with caches := w.caches.push { limit } })

def getCache (id : Nat) : Act σ ViewCache := return (← get).caches.getD id default

def setCache (id : Nat) (c : ViewCache) : Act σ Unit :=
  modify fun w => { w with caches := w.caches.setIfInBounds id c }

def newChannel : Act σ Nat :=
  modifyGet fun w => (w.channels.size, { w with channels := w.channels.push {} })

def getChannel (id : Nat) : Act σ Channel := return (← get).channels.getD id default

def modifyChannel (id : Nat) (f : Channel → Channel) : Act σ Unit :=
  modify fun w => { w with channels := w.channels.modify id f }

/-- Delivers a value and says whether it can still be taken. -/
def send (id : Nat) (value : AsyncValue) : Act σ Bool := do
  let (delivered, c) := (← getChannel id).send value
  modifyChannel id fun _ => c
  return delivered

/-- Waits for a deferred result and gives its waiting end up. -/
def await (d : Deferred) : Act σ AsyncValue := do
  let c ← getChannel d.channel
  modifyChannel d.channel Channel.close
  return c.await d.timeout

def abandon (d : Deferred) : Act σ Unit := modifyChannel d.channel Channel.close

end Act

end Switchyard
