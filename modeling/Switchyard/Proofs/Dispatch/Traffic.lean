import Mathlib.Data.List.Perm.Basic
import Switchyard.Proofs.Dispatch.Metering
/-!
# Traffic through a dispatcher

Any number of requests through one dispatcher: dispatched, suspended, and ended in any order. A
history tells what each turn called. The main statement is `metrics_balance`: at every moment the
counters of a metrics interceptor are what the history amounts to.
-/

namespace Switchyard

variable {σ : Type} {d : Dispatcher σ} {k : Nat}

/-- The world, and the suspended dispatches that have not ended. -/
structure Traffic (σ : Type) where
  world : World σ
  held : List (Pending σ) := []

/-- What ends a suspended dispatch. -/
inductive Ending where
  | resume (value : AsyncValue)
  | wait
  | drop

namespace Ending

/-- How a suspended dispatch is ended. One that is dropped has no result. -/
def run (d : Dispatcher σ) (p : Pending σ) : Ending → Act σ (Option (Except DispatchError Exchange))
  | resume value => some <$> d.resume p value
  | wait => some <$> d.wait p
  | drop => (fun _ => none) <$> Dispatcher.drop p

/-- What it ends with: a value, or none when it is dropped. -/
def cause (p : Pending σ) (w : World σ) : Ending → Option AsyncValue
  | resume value => some value
  | wait => some ((w.channel p.result.channel).await p.result.timeout)
  | drop => none

def goesOn (p : Pending σ) (w : World σ) : Ending → Bool
  | wait => (w.channel p.result.channel).isSilent p.result.timeout
  | _ => false

theorem ends {p : Pending σ} (hp : p.IsReady) (w : World σ) (ending : Ending) :
    p.EndsBy d w (ending.cause p w) (ending.run d p) := by
  cases ending with
  | resume value => exact Pending.resume_ends hp value w
  | wait => exact Pending.wait_ends hp w
  | drop => exact Pending.drop_ends hp w

end Ending

/-- What happens next: a request comes in, a suspended dispatch is to end, or the world changes by
itself, as when a sender delivers. -/
inductive Turn (σ : Type) where
  | dispatch (req : Request) (res : Response)
  | finish (place : Nat) (ending : Ending)
  | outside (change : World σ → World σ)

/-- A change from outside does not touch a meter. -/
def Turn.Spares (k : Nat) : Turn σ → Prop
  | outside change => ∀ w, (change w).meters[k]? = w.meters[k]?
  | _ => True

namespace Traffic

def step (d : Dispatcher σ) (s : Traffic σ) : Turn σ → Traffic σ
  | .dispatch req res =>
    let (result, world) := (d.dispatch req res).run s.world
    ⟨world, s.held ++ (Dispatcher.left? result).toList⟩
  | .finish place ending =>
    match s.held[place]? with
    | none => s
    | some p =>
      if ending.goesOn p s.world then s
      else ⟨((ending.run d p).run s.world).2, s.held.eraseIdx place⟩
  | .outside change => { s with world := change s.world }

def run (d : Dispatcher σ) (turns : List (Turn σ)) (s : Traffic σ) : Traffic σ :=
  turns.foldl (step d) s

end Traffic

/-- The calls that a turn made over a chain, and what it left behind. -/
structure Episode (σ : Type) where
  chain : Chain σ
  visits : List Visit
  left : Option (Pending σ) := none

/-- What a turn made happen. -/
inductive Tells (d : Dispatcher σ) (s : Traffic σ) : Turn σ → List (Episode σ) → Prop where
  | unserved {req req' : Request} {res : Response} {w : World σ}
      {found : Except DispatchError (Option (Chain σ))} (hfound : ∀ c, found ≠ .ok (some c))
      (search : (Dispatcher.chainFor d.mappings req).run s.world = ((found, req'), w)) :
      Tells d s (.dispatch req res) []
  | served {req req' : Request} {res : Response} {c : Chain σ} {w : World σ} {v : List Visit}
      {after : Scene σ} {result : Except DispatchError (DispatchOutcome σ)}
      (search : (Dispatcher.chainFor d.mappings req).run s.world = ((.ok (some c), req'), w))
      (run : (d.dispatch req res).run s.world = (result, after.world))
      (visits : Visits d c.handler c.interceptors v ⟨w, ⟨req', res⟩, none⟩ after)
      (protocol : Protocol c after.exchange (v.map Visit.callback) result) :
      Tells d s (.dispatch req res) [⟨c, v, Dispatcher.left? result⟩]
  | missing {place : Nat} {ending : Ending} (here : s.held[place]? = none) :
      Tells d s (.finish place ending) []
  | goesOn {place : Nat} {ending : Ending} {p : Pending σ} (here : s.held[place]? = some p)
      (hending : ending.goesOn p s.world = true) : Tells d s (.finish place ending) []
  | ended {place : Nat} {ending : Ending} {p : Pending σ} {v : List Visit} {after : Scene σ}
      {result : Option (Except DispatchError Exchange)} {f g : Channel → Channel}
      (here : s.held[place]? = some p) (hending : ending.goesOn p s.world = false)
      (run : (ending.run d p).run s.world =
        (result, after.world.withChannel p.result.channel g))
      (visits : Visits d p.chain.handler p.chain.interceptors v
        (p.sceneAt d (s.world.withChannel p.result.channel f) (ending.cause p s.world)) after)
      (concludes : Concludes p.chain.interceptors.length after.exchange (ending.cause p s.world)
        (v.map Visit.callback) result) :
      Tells d s (.finish place ending) [⟨p.chain, v, none⟩]
  | outside {change : World σ → World σ} : Tells d s (.outside change) []

/-- The history of a run. -/
inductive History (d : Dispatcher σ) : Traffic σ → List (Turn σ) → List (Episode σ) → Prop where
  | nil {s : Traffic σ} : History d s [] []
  | cons {s : Traffic σ} {turn : Turn σ} {turns : List (Turn σ)} {es rest : List (Episode σ)}
      (first : Tells d s turn es) (later : History d (s.step d turn) turns rest) :
      History d s (turn :: turns) (es ++ rest)

private theorem Dispatcher.dispatch_of_unserved {req req' : Request} {w w' : World σ}
    {found : Except DispatchError (Option (Chain σ))} (hfound : ∀ c, found ≠ .ok (some c))
    (search : (chainFor d.mappings req).run w = ((found, req'), w')) (res : Response) :
    ∃ result journal, (d.dispatch req res).run w = (result, { w' with journal }) ∧
      left? result = none := by
  rw [dispatch, StateT.run_bind, search]
  cases found with
  | error e => exact ⟨_, w'.journal, rfl, rfl⟩
  | ok c? =>
    cases c? with
    | none => exact ⟨_, _, rfl, rfl⟩
    | some c => exact absurd rfl (hfound c)

private theorem Protocol.chain_of_left {c : Chain σ} {x : Exchange} {t : List Callback}
    {r : Except DispatchError (DispatchOutcome σ)} {p : Pending σ} (ht : Protocol c x t r)
    (hp : p ∈ Dispatcher.left? r) : p.chain = c.suspended := by
  have hr : r = .ok (.suspended p) := by
    cases r with
    | error e => cases hp
    | ok outcome =>
      cases outcome with
      | suspended p' =>
        cases hp
        rfl
      | _ => cases hp
  exact (ht.of_suspended hr).2.1

namespace Traffic

variable {s : Traffic σ}

private theorem step_dispatch (s : Traffic σ) {req : Request} {res : Response}
    {result : Except DispatchError (DispatchOutcome σ)} {w : World σ}
    (run : (d.dispatch req res).run s.world = (result, w)) :
    s.step d (.dispatch req res) = ⟨w, s.held ++ (Dispatcher.left? result).toList⟩ := by
  rw [step, run]

private theorem step_missing {place : Nat} (here : s.held[place]? = none) (ending : Ending) :
    s.step d (.finish place ending) = s := by
  rw [step, here]

private theorem step_goesOn {place : Nat} {p : Pending σ} (here : s.held[place]? = some p)
    {ending : Ending} (hending : ending.goesOn p s.world = true) :
    s.step d (.finish place ending) = s := by
  rw [step, here]
  exact if_pos hending

theorem step_ended {place : Nat} {p : Pending σ} (here : s.held[place]? = some p)
    {ending : Ending} (hending : ending.goesOn p s.world = false) :
    s.step d (.finish place ending) =
      ⟨((ending.run d p).run s.world).2, s.held.eraseIdx place⟩ := by
  rw [step, here]
  exact if_neg (by rw [hending]; exact Bool.false_ne_true)

private theorem exists_tells (hs : ∀ p ∈ s.held, p.IsReady) (turn : Turn σ) :
    ∃ es, Tells d s turn es := by
  cases turn with
  | dispatch req res =>
    generalize hsearch : (Dispatcher.chainFor d.mappings req).run s.world = answer
    obtain ⟨⟨found, req'⟩, w⟩ := answer
    by_cases hfound : ∃ c, found = .ok (some c)
    · obtain ⟨c, rfl⟩ := hfound
      obtain ⟨t, after, ht, hw, hprotocol⟩ := Dispatcher.dispatch_performs d res hsearch
      obtain ⟨v, rfl, hv⟩ := ht.visits
      exact ⟨_, .served hsearch (by rw [← hw]; rfl) hv hprotocol⟩
    · exact ⟨[], .unserved (fun c hc => hfound ⟨c, hc⟩) hsearch⟩
  | finish place ending =>
    cases here : s.held[place]? with
    | none => exact ⟨[], .missing here⟩
    | some p =>
      cases hending : ending.goesOn p s.world with
      | true => exact ⟨[], .goesOn here hending⟩
      | false =>
        obtain ⟨t, after, f, g, ht, hw, hconcludes, -⟩ :=
          ending.ends (d := d) (hs p (List.mem_of_getElem? here)) s.world
        obtain ⟨v, rfl, hv⟩ := ht.visits
        exact ⟨_, .ended here hending (by rw [← hw]; rfl) hv hconcludes⟩
  | outside change => exact ⟨[], .outside⟩

end Traffic

theorem Tells.held {P : Pending σ → Prop} {s : Traffic σ} {turn : Turn σ} {es : List (Episode σ)}
    (ht : Tells d s turn es)
    (hnew : ∀ req w c req' w', (Dispatcher.chainFor d.mappings req).run w =
      ((.ok (some c), req'), w') → ∀ p : Pending σ, p.chain = c.suspended → P p)
    (hs : ∀ p ∈ s.held, P p) : ∀ p ∈ (s.step d turn).held, P p := by
  cases ht with
  | @unserved req req' res w found hfound search =>
    obtain ⟨result, journal, run, hleft⟩ := Dispatcher.dispatch_of_unserved hfound search res
    rw [s.step_dispatch run, hleft, Option.toList_none, List.append_nil]
    exact hs
  | @served req req' res c w v after result search run visits protocol =>
    rw [s.step_dispatch run]
    intro p hp
    rcases List.mem_append.mp hp with hp | hp
    · exact hs p hp
    · exact hnew _ _ _ _ _ search p (protocol.chain_of_left (Option.mem_toList.mp hp))
  | missing here =>
    rw [Traffic.step_missing here]
    exact hs
  | goesOn here hending =>
    rw [Traffic.step_goesOn here hending]
    exact hs
  | ended here hending =>
    rw [Traffic.step_ended here hending]
    exact fun p hp => hs p (List.mem_of_mem_eraseIdx hp)
  | outside => exact hs

private theorem Tells.ready {s : Traffic σ} {turn : Turn σ} {es : List (Episode σ)}
    (ht : Tells d s turn es)
    (hs : ∀ p ∈ s.held, p.IsReady) : ∀ p ∈ (s.step d turn).held, p.IsReady := by
  apply ht.held _ hs
  intro req w c req' w' _ p hp
  rw [Pending.IsReady, hp]
  exact ⟨rfl, rfl⟩

private theorem History.exists (turns : List (Turn σ)) {s : Traffic σ}
    (hs : ∀ p ∈ s.held, p.IsReady) : ∃ es, History d s turns es := by
  induction turns generalizing s with
  | nil => exact ⟨[], .nil⟩
  | cons turn turns ih =>
    obtain ⟨es, first⟩ := Traffic.exists_tells (d := d) hs turn
    obtain ⟨rest, later⟩ := ih (first.ready hs)
    exact ⟨es ++ rest, .cons first later⟩

namespace Episode

noncomputable def tally (k : Nat) (e : Episode σ) : Meter :=
  Meter.tally (counter k e.chain.interceptors) e.visits

/-- The visits in which the metrics interceptor saw the end of a request. -/
noncomputable def ends (k : Nat) (e : Episode σ) : List Visit :=
  e.visits.filter (·.callback.closes (counter k e.chain.interceptors))

/-- A dispatch with the metrics interceptor in its chain that was suspended. -/
noncomputable def startsWork (k : Nat) (e : Episode σ) : Bool :=
  e.left.isSome && e.chain.counts k

end Episode

namespace Meter

/-- What all episodes of a history amount to. -/
noncomputable def total (k : Nat) : List (Episode σ) → Meter
  | [] => {}
  | e :: es => (e.tally k).plus (total k es)

private theorem plus_zero (m : Meter) : m.plus {} = m := rfl

private theorem zero_plus (m : Meter) : ({} : Meter).plus m = m := by
  simp [plus]

private theorem total_append (k : Nat) (es es' : List (Episode σ)) :
    total k (es ++ es') = (total k es).plus (total k es') := by
  induction es with
  | nil => exact (zero_plus _).symm
  | cons e es ih =>
    rw [List.cons_append, total, total, ih, plus_assoc]

private theorem completions_total (k : Nat) (es : List (Episode σ)) :
    (total k es).completions = (es.flatMap (Episode.ends k)).length := by
  induction es with
  | nil => rfl
  | cons e es ih =>
    rw [List.flatMap_cons, List.length_append, ← ih, Episode.ends, ← List.countP_eq_length_filter]
    rfl

private theorem failures_total (k : Nat) (es : List (Episode σ)) :
    (total k es).failures = (es.flatMap (Episode.ends k)).countP Visit.fails := by
  induction es with
  | nil => rfl
  | cons e es ih =>
    rw [List.flatMap_cons, List.countP_append, ← ih]
    rfl

end Meter

/-- From one moment to another the counters grow by what the episodes amount to, and what was opened
without being closed is suspended. -/
structure Accounts (k : Nat) (s s' : Traffic σ) (es : List (Episode σ)) : Prop where
  meter : ∀ m, s.world.meters[k]? = some m → s'.world.meters[k]? = some (m.plus (Meter.total k es))
  balance : (Meter.total k es).requests + s.held.countP (·.chain.counts k) =
    (Meter.total k es).completions + s'.held.countP (·.chain.counts k)
  started : (Meter.total k es).asyncStarted = es.countP (Episode.startsWork k)

namespace Accounts

theorem idle {s s' : Traffic σ} (hmeter : s'.world.meters[k]? = s.world.meters[k]?)
    (hheld : s'.held = s.held) : Accounts k s s' [] where
  meter m hm := by rw [hmeter, hm, Meter.total, Meter.plus_zero]
  balance := by rw [hheld]; rfl
  started := rfl

theorem trans {s s' s'' : Traffic σ} {es es' : List (Episode σ)} (h : Accounts k s s' es)
    (h' : Accounts k s' s'' es') : Accounts k s s'' (es ++ es') where
  meter m hm := by
    rw [h'.meter _ (h.meter m hm), Meter.plus_assoc, Meter.total_append]
  balance := by
    have hfirst := h.balance
    have hsecond := h'.balance
    rw [Meter.total_append]
    simp only [Meter.plus]
    omega
  started := by
    rw [Meter.total_append, List.countP_append, ← h.started, ← h'.started]
    rfl

private theorem episode {s s' : Traffic σ} {c : Chain σ} {v : List Visit}
    {left : Option (Pending σ)} {opened closed handed : Nat}
    (hmeter : ∀ m, s.world.meters[k]? = some m →
      s'.world.meters[k]? = some (m.plus (Meter.tally (counter k c.interceptors) v)))
    (hbalance : Balance (counter k c.interceptors) (v.map Visit.callback) opened closed handed)
    (hheld : opened + s.held.countP (·.chain.counts k) =
      closed + s'.held.countP (·.chain.counts k))
    (hhanded : handed = (left.isSome && c.counts k).toNat) : Accounts k s s' [⟨c, v, left⟩] := by
  obtain ⟨hrequests, hcompletions, hstarted⟩ := Meter.tally_of_balance hbalance
  have htotal : Meter.total k [⟨c, v, left⟩] = Meter.tally (counter k c.interceptors) v := by
    rw [Meter.total, Meter.total, Meter.plus_zero, Episode.tally]
  refine ⟨?_, ?_, ?_⟩
  · rw [htotal]
    exact hmeter
  · rw [htotal, hrequests, hcompletions]
    exact hheld
  · rw [htotal, hstarted, hhanded, List.countP_singleton, Episode.startsWork]
    cases left.isSome && c.counts k <;> rfl

end Accounts

private theorem Tells.accounts (hd : d.Spares k) {s : Traffic σ} {turn : Turn σ}
    {es : List (Episode σ)}
    (ht : Tells d s turn es) (hturn : turn.Spares k) (hes : ∀ e ∈ es, e.chain.Metered k) :
    Accounts k s (s.step d turn) es := by
  cases ht with
  | @unserved req req' res w found hfound search =>
    obtain ⟨result, journal, run, hleft⟩ := Dispatcher.dispatch_of_unserved hfound search res
    have hmeters := (Dispatcher.chainFor_spares hd.lookup req).of_run search
    rw [s.step_dispatch run, hleft]
    exact .idle hmeters (List.append_nil _)
  | @served req req' res c w v after result search run visits protocol =>
    have hc := List.forall_mem_singleton.mp hes
    have hmeters := (Dispatcher.chainFor_spares hd.lookup req).of_run search
    obtain ⟨closed, hbalance⟩ := protocol.balance (c.hears_counter k)
    rw [hc.amount_eq] at hbalance
    rw [s.step_dispatch run]
    refine .episode ?_ hbalance ?_ ?_
    · intro m hm
      rw [← hmeters] at hm
      exact visits.meter hd hc hm
    · cases hleft : Dispatcher.left? result with
      | none => simp
      | some p =>
        have hcounts : p.chain.counts k = c.counts k := by
          rw [protocol.chain_of_left hleft]
          rfl
        rw [List.countP_append, Option.toList_some, List.countP_singleton, hcounts]
        cases c.counts k <;> simp [Nat.add_assoc, Nat.add_comm]
    · cases Dispatcher.left? result <;> simp
  | missing here =>
    rw [Traffic.step_missing here]
    exact .idle rfl rfl
  | goesOn here hending =>
    rw [Traffic.step_goesOn here hending]
    exact .idle rfl rfl
  | @ended place ending p v after result f g here hending run visits concludes =>
    have hp := List.forall_mem_singleton.mp hes
    have hbalance := concludes.balance (counter k p.chain.interceptors)
    rw [hp.amount_eq] at hbalance
    rw [Traffic.step_ended here hending, run]
    refine .episode ?_ hbalance ?_ ?_
    · intro m hm
      have hstart : (p.sceneAt d (s.world.withChannel p.result.channel f)
          (ending.cause p s.world)).world.meters[k]? = some m := by
        cases ending.cause p s.world <;> exact hm
      exact visits.meter hd hp hstart
    · obtain ⟨hlt, rfl⟩ := List.getElem?_eq_some_iff.mp here
      rw [Nat.zero_add, ← (List.getElem_cons_eraseIdx_perm hlt).countP_eq _, List.countP_cons]
      cases s.held[place].chain.counts k <;> simp [Nat.add_comm]
    · rw [Option.isSome_none, Bool.false_and, Bool.toNat_false]
  | outside => exact .idle (hturn _) rfl

private theorem History.accounts (hd : d.Spares k) {s : Traffic σ} {turns : List (Turn σ)}
    {es : List (Episode σ)} (told : History d s turns es) (hturns : ∀ turn ∈ turns, turn.Spares k)
    (hes : ∀ e ∈ es, e.chain.Metered k) : Accounts k s (Traffic.run d turns s) es := by
  induction told with
  | nil => exact .idle rfl rfl
  | cons first later ih =>
    rw [List.forall_mem_cons] at hturns
    rw [List.forall_mem_append] at hes
    exact (first.accounts hd hturns.1 hes.1).trans (ih hturns.2 hes.2)

private theorem History.metered
    (hd : ∀ req w c req' w', (Dispatcher.chainFor d.mappings req).run w =
      ((.ok (some c), req'), w') → c.Metered k) {s : Traffic σ} {turns : List (Turn σ)}
    {es : List (Episode σ)} (told : History d s turns es) (hs : ∀ p ∈ s.held, p.chain.Metered k) :
    ∀ e ∈ es, e.chain.Metered k := by
  induction told with
  | nil => simp
  | @cons s turn turns es rest first later ih =>
    rw [List.forall_mem_append]
    constructor
    · cases first with
      | served search =>
        rw [List.forall_mem_singleton]
        exact hd _ _ _ _ _ search
      | ended here =>
        rw [List.forall_mem_singleton]
        exact hs _ (List.mem_of_getElem? here)
      | _ => simp
    · apply ih
      apply first.held _ hs
      intro req w c req' w' search p hp
      have hc := hd _ _ _ _ _ search
      rw [hp]
      exact ⟨hc.handler, hc.interceptor, hc.once⟩

namespace Traffic

/-- Metrics always balance. Whatever comes in and however suspended dispatches end, the requests that
a metrics interceptor counted are those whose ends it saw and those that are still suspended; and
it counted the suspensions, and as failures the ends with an error or a status from 400 on. -/
theorem metrics_balance (hd : d.Spares k) {w : World σ} (hw : w.meters[k]? = some {})
    {turns : List (Turn σ)} (hturns : ∀ turn ∈ turns, turn.Spares k) :
    let s := run d turns ⟨w, []⟩
    (∃ es, History d ⟨w, []⟩ turns es) ∧
      ∀ es, History d ⟨w, []⟩ turns es → (∀ e ∈ es, e.chain.Metered k) →
        ∃ m, s.world.meters[k]? = some m ∧
          m.requests = m.completions + s.held.countP (·.chain.counts k) ∧
          m.asyncStarted = es.countP (Episode.startsWork k) ∧
          m.completions = (es.flatMap (Episode.ends k)).length ∧
          m.failures = (es.flatMap (Episode.ends k)).countP Visit.fails ∧
          m.failures ≤ m.completions := by
  intro s
  refine ⟨History.exists turns (by simp), ?_⟩
  intro es told hes
  have haccounts := told.accounts hd hturns hes
  have hcompletions := Meter.completions_total k es
  have hfailures := Meter.failures_total k es
  refine ⟨Meter.total k es, ?_, ?_, haccounts.started, hcompletions, hfailures, ?_⟩
  · rw [haccounts.meter {} hw, Meter.zero_plus]
  · exact haccounts.balance
  · rw [hcompletions, hfailures]
    exact List.countP_le_length

end Traffic

private theorem Dispatcher.chainFor_recording {is : List (Interceptor (List Callback))}
    {answer : Except DispatchError Outcome} {req req' : Request} {w w' : World (List Callback)}
    {c : Chain (List Callback)}
    (found : (chainFor (recording is answer).mappings req).run w = ((.ok (some c), req'), w')) :
    c = { handler := .recording answer, interceptors := is } ∨
      c = { handler := CorsProcessor.standard.preFlightHandler none } := by
  let m : HandlerMapping (List Callback) := {
    lookup := fun _ _ => return (.ok (some (.chain (.raw (.recording answer)) is)), []) }
  have hserves : m.Serves (req.publishAll []) (.chain (.raw (.recording answer)) is)
      (.recording answer) none := ⟨rfl, rfl⟩
  have hmade : ((chainFor [m] req).run w).1 = _ := chainFor_of_serves rfl hserves
  have hc : c = _ := Option.some.inj (Except.ok.inj (congrArg Prod.fst
    ((congrArg Prod.fst found).symm.trans hmade)))
  rw [hc, HandlerMapping.chainUnder]
  cases Cors.isPreflight (req.publishAll []) with
  | true => exact .inr rfl
  | false =>
    left
    exact congrArg (Chain.mk _ · _ _ _) (List.append_nil is)

private theorem Interceptor.recording_spares (place : Nat) : (recording place).Spares k where
  pre _ _ _ := rfl
  post _ _ _ _ := rfl
  after _ _ _ _ := rfl
  started := by
    intro started hstarted call res w
    cases hstarted
    rfl

private theorem Chain.metered_recording (answer : Except DispatchError Outcome) :
    Chain.Metered k {
      handler := .recording answer
      interceptors := [Interceptor.recording 0, Interceptor.metrics k] } where
  handler _ _ _ := rfl
  interceptor := by
    rw [List.forall_mem_cons, List.forall_mem_singleton]
    exact ⟨.inr (Interceptor.recording_spares 0), .inl rfl⟩
  once := by
    have only : ∀ j : Nat, [Interceptor.recording 0, Interceptor.metrics k][j]? =
        some (.metrics k) → j = 1 := by
      intro j hj
      match j with
      | 0 =>
        have hname : "recording" = "metrics" := congrArg Interceptor.name (Option.some.inj hj)
        exact absurd hname (by decide)
      | 1 => rfl
      | j + 2 => cases hj
    intro i j hi hj
    rw [only i hi, only j hj]

private theorem CorsProcessor.preFlightHandler_spares (policy : Option CorsPolicy) :
    ((standard : CorsProcessor σ).preFlightHandler policy).Spares k := by
  intro req res
  apply Act.Spares.bind
  · apply Act.Spares.bind _ fun _ => .pure _
    intro w
    obtain ⟨journal, hjournal⟩ :=
      w.reportedAll_eq (Cors.process policy req res).event.toList
    rw [Act.emitAll_run, hjournal]
  · exact fun _ => .pure _

namespace Traffic

/-- Two suspended requests, one of which is dropped. -/
theorem metrics_balance_dropped :
    let answer := Except.ok (Outcome.async ⟨0, none⟩)
    let d := Dispatcher.recording [Interceptor.recording 0, Interceptor.metrics 0] answer
    let req : Request := { method := .get, path := "/" }
    let turns : List (Turn (List Callback)) :=
      [.dispatch req {}, .dispatch req {}, .finish 0 .drop]
    let w : World (List Callback) := ⟨[], #[], #[{}], #[{}], #[]⟩
    let s := run d turns ⟨w, []⟩
    s.world.meters[0]? = some ⟨2, 1, 2, 1⟩ ∧ s.held.countP (·.chain.counts 0) = 1 ∧
      ∃ es, History d ⟨w, []⟩ turns es ∧ es.countP (Episode.startsWork 0) = 2 ∧
        (es.flatMap (Episode.ends 0)).length = 1 ∧
        (es.flatMap (Episode.ends 0)).countP Visit.fails = 1 := by
  intro answer d req turns w s
  have hd : d.Spares 0 := by
    constructor
    · intro m hm
      obtain rfl := List.mem_singleton.mp hm
      exact fun _ _ _ => rfl
    · simp [d, Dispatcher.recording]
  have hturns : ∀ turn ∈ turns, turn.Spares 0 := by simp [turns, Turn.Spares]
  have hmeter : s.world.meters[0]? = some ⟨2, 1, 2, 1⟩ := by decide +kernel
  obtain ⟨⟨es, told⟩, hall⟩ := metrics_balance hd (w := w) rfl hturns
  have hes : ∀ e ∈ es, e.chain.Metered 0 := by
    apply told.metered _ (by simp)
    intro req w c req' w' search
    rcases Dispatcher.chainFor_recording search with rfl | rfl
    · exact Chain.metered_recording answer
    · exact ⟨CorsProcessor.preFlightHandler_spares none, by simp, by simp⟩
  obtain ⟨m, hm, hrequests, hstarted, hcompletions, hfailures, -⟩ := hall es told hes
  obtain rfl : m = ⟨2, 1, 2, 1⟩ := Option.some.inj (hm.symm.trans hmeter)
  refine ⟨hmeter, ?_, es, told, ?_, ?_, ?_⟩
  · have hrequests : 2 = 1 + s.held.countP (·.chain.counts 0) := hrequests
    omega
  · exact hstarted.symm
  · exact hcompletions.symm
  · exact hfailures.symm

end Traffic

end Switchyard
