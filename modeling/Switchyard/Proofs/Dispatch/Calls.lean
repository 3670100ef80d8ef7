import Switchyard.Pipeline.Dispatcher
/-!
# Calls of application code

What a dispatch does beside reporting events is to call a handler, interceptors and views. A
transcript lists these calls with their answers; `Performs` says that an account of a run by such a
list is complete: between the calls nothing but the journal changes.
-/

namespace Switchyard

variable {σ α β : Type}

/-- A world in which one event more was reported. -/
def World.reported (w : World σ) (e : Event) : World σ := { w with journal := w.journal.push e }

def World.reportedAll (w : World σ) (es : List Event) : World σ := es.foldl World.reported w

theorem Act.emitAll_run (es : List Event) (w : World σ) :
    (Act.emitAll es).run w = ((), w.reportedAll es) := by
  induction es generalizing w with
  | nil => rfl
  | cons e es ih => exact ih (w.reported e)

theorem World.reportedAll_eq (w : World σ) (es : List Event) :
    ∃ journal, w.reportedAll es = { w with journal } := by
  induction es generalizing w with
  | nil => exact ⟨w.journal, rfl⟩
  | cons e es ih => exact ih (w.reported e)

/-- What a dispatch has in hand between two calls. -/
structure Scene (σ : Type) where
  world : World σ
  exchange : Exchange
  /-- What is to be shown after the interceptors have seen it. -/
  shown : Option ModelAndView := none

/-- A call of application code with its answer. Interceptors go by their places in the chain. A call
whose answer has no consequence is listed without it. -/
inductive Callback where
  | pre (place : Nat) (answer : Except DispatchError Bool)
  | handle (answer : Except DispatchError Outcome)
  | post (place : Nat) (answer : Except DispatchError Unit)
  /-- Resolution and rendering of a view. Without a view nothing is called. -/
  | view (ref : Option ViewRef) (answer : Except DispatchError Unit)
  | after (place : Nat) (error : Option DispatchError)
  | handOff (place : Nat)

namespace Dispatcher

/-- What is shown with a view of its own, or else with the one that goes by the request's path. -/
def named (d : Dispatcher σ) (req : Request) (shown : ModelAndView) : ModelAndView :=
  match shown.view, d.viewName? req with
  | none, some name => { shown with view := some (.name name) }
  | _, _ => shown

end Dispatcher

def Outcome.shown? : Outcome → Option ModelAndView
  | .view shown => some shown
  | _ => none

namespace Scene

def request (s : Scene σ) : Request := s.exchange.request

def response (s : Scene σ) : Response := s.exchange.response

/-- What a callback of an interceptor sees in a chain for the given handler. -/
def call (s : Scene σ) (h : Handler σ) : Call := ⟨s.request, h.name⟩

/-- The scene after a call that wrote the response. -/
def wrote (s : Scene σ) (w : World σ) (res : Response) : Scene σ :=
  ⟨w, ⟨s.request, res⟩, s.shown⟩

/-- The scene after one event more was reported. -/
def reported (s : Scene σ) (e : Event) : Scene σ := { s with world := s.world.reported e }

end Scene

/-- A call and what it changes, in a chain of the given handler and interceptors. -/
inductive Calls (d : Dispatcher σ) (h : Handler σ) (is : List (Interceptor σ)) :
    Callback → Scene σ → Scene σ → Prop where
  | pre {place : Nat} {i : Interceptor σ} {s : Scene σ} {answer : Except DispatchError Bool}
      {res : Response} {w : World σ} (here : is[place]? = some i)
      (run : (i.preHandle (s.call h) s.response).run s.world = ((answer, res), w)) :
      Calls d h is (.pre place answer) s (s.wrote w res)
  | handle {s : Scene σ} {answer : Except DispatchError Outcome} {res : Response} {w : World σ}
      (run : (h.run s.request s.response).run s.world = ((answer, res), w)) :
      Calls d h is (.handle answer) s
        { s.wrote w res with
          shown := (answer.toOption.bind Outcome.shown?).map (d.named s.request) }
  | post {place : Nat} {i : Interceptor σ} {s : Scene σ} {answer : Except DispatchError Unit}
      {res : Response} {shown : Option ModelAndView} {w : World σ} (here : is[place]? = some i)
      (run : (i.postHandle (s.call h) s.response s.shown).run s.world = ((answer, res, shown), w)) :
      Calls d h is (.post place answer) s { s.wrote w res with shown }
  | noView {s : Scene σ} (hs : s.shown.bind (·.view) = none) :
      Calls d h is (.view none (.ok ())) s
        (s.wrote s.world
          { s.response with status := (s.shown.bind (·.status)).getD s.response.status })
  | unresolved {s : Scene σ} {shown : ModelAndView} {ref : ViewRef} {e : DispatchError}
      {published : List Attribute} {w : World σ} (hs : s.shown = some shown)
      (hv : shown.view = some ref)
      (resolve : (d.viewOf s.request ref).run s.world = ((.error e, published), w)) :
      Calls d h is (.view (some ref) (.error e)) s
        ⟨w, ⟨s.request.publishAll published,
          { s.response with status := shown.status.getD s.response.status }⟩, s.shown⟩
  | rendered {s : Scene σ} {shown : ModelAndView} {ref : ViewRef} {view : View}
      {published : List Attribute} {answer : Except DispatchError Unit} {res : Response}
      {w : World σ} (hs : s.shown = some shown) (hv : shown.view = some ref)
      (resolve : (d.viewOf s.request ref).run s.world = ((.ok view, published), w))
      (render : view.render shown.model (s.request.publishAll published)
        { s.response with status := shown.status.getD s.response.status } = (answer, res)) :
      Calls d h is (.view (some ref) answer) s ⟨w, ⟨s.request.publishAll published, res⟩, s.shown⟩
  | after {place : Nat} {i : Interceptor σ} {s : Scene σ} {error : Option DispatchError}
      {answer : Except DispatchError Unit} {res : Response} {w : World σ}
      (here : is[place]? = some i)
      (run : (i.afterCompletion (s.call h) s.response error).run s.world = ((answer, res), w)) :
      Calls d h is (.after place error) s (s.wrote w res)
  | handOff {place : Nat} {i : Interceptor σ} {s : Scene σ}
      {started : Call → Response → Act σ (Except DispatchError Unit × Response)}
      {answer : Except DispatchError Unit} {res : Response} {w : World σ}
      (here : is[place]? = some i) (hi : i.asyncStarted = some started)
      (run : (started (s.call h) s.response).run s.world = ((answer, res), w)) :
      Calls d h is (.handOff place) s (s.wrote w res)

/-- Some calls in a row, with any events reported before, between and after them, and nothing else. -/
inductive Performs (d : Dispatcher σ) (h : Handler σ) (is : List (Interceptor σ)) :
    List Callback → Scene σ → Scene σ → Prop where
  | done {s : Scene σ} : Performs d h is [] s s
  | report {t : List Callback} {s s' : Scene σ} (e : Event)
      (rest : Performs d h is t (s.reported e) s') : Performs d h is t s s'
  | call {b : Callback} {t : List Callback} {s s₁ s' : Scene σ} (first : Calls d h is b s s₁)
      (rest : Performs d h is t s₁ s') : Performs d h is (b :: t) s s'

theorem Performs.append {d : Dispatcher σ} {h : Handler σ} {is : List (Interceptor σ)}
    {t u : List Callback} {s s' s'' : Scene σ} (ht : Performs d h is t s s')
    (hu : Performs d h is u s' s'') : Performs d h is (t ++ u) s s'' := by
  induction ht with
  | done => exact hu
  | report e _ ih => exact .report e (ih hu)
  | call first _ ih => exact .call first (ih hu)

/-- A record in the application's state that each callback enters itself into. Rendering is no
callback: a view may be a mere function. -/
structure Records (d : Dispatcher σ) (h : Handler σ) (is : List (Interceptor σ))
    (record : World σ → List Callback) : Prop where
  reported : ∀ w e, record (World.reported w e) = record w
  view : ∀ {ref answer s s'}, Calls d h is (.view ref answer) s s' → record s'.world = record s.world
  call : ∀ {b s s'}, (∀ ref answer, b ≠ .view ref answer) → Calls d h is b s s' →
    record s'.world = record s.world ++ [b]

/-- True for the calls that a record shows. -/
def Callback.isRecorded : Callback → Bool
  | .view .. => false
  | _ => true

/-- A transcript is no invention: a record that the callbacks keep themselves shows the same calls in
the same order. -/
theorem Performs.record_eq {d : Dispatcher σ} {h : Handler σ} {is : List (Interceptor σ)}
    {record : World σ → List Callback} (hr : Records d h is record) {t : List Callback}
    {s s' : Scene σ} (ht : Performs d h is t s s') :
    record s'.world = record s.world ++ t.filter Callback.isRecorded := by
  induction ht with
  | done => simp
  | @report t s s' e _ ih =>
    rw [ih]
    exact congrArg (· ++ _) (hr.reported s.world e)
  | @call b t s s₁ s' first _ ih =>
    rw [ih]
    cases b with
    | view ref answer =>
      rw [hr.view first]
      rfl
    | _ =>
      rw [hr.call (by simp) first, List.append_assoc]
      rfl

/-- An interceptor with given answers that enters its calls into the application's state. -/
def Interceptor.recording (place : Nat) (pre : Except DispatchError Bool := .ok true)
    (post after started : Except DispatchError Unit := .ok ()) : Interceptor (List Callback) where
  name := "recording"
  preHandle _ res := do
    Act.modifyApp (· ++ [.pre place pre])
    return (pre, res)
  postHandle _ res shown := do
    Act.modifyApp (· ++ [.post place post])
    return (post, res, shown)
  afterCompletion _ res error := do
    Act.modifyApp (· ++ [.after place error])
    return (after, res)
  asyncStarted := some fun _ res => do
    Act.modifyApp (· ++ [.handOff place])
    return (started, res)

/-- A handler with a given answer that enters its calls into the application's state. -/
def Handler.recording (answer : Except DispatchError Outcome) : Handler (List Callback) where
  name := "recording"
  run _ res := do
    Act.modifyApp (· ++ [.handle answer])
    return (answer, res)

/-- One chain for every request, all of whose callbacks keep a record. -/
def Dispatcher.recording (is : List (Interceptor (List Callback)))
    (answer : Except DispatchError Outcome) : Dispatcher (List Callback) where
  mappings := [{
    lookup := fun _ _ => return (.ok (some (.chain (.raw (.recording answer)) is)), []) }]

section

variable {d : Dispatcher (List Callback)} {is : List (Interceptor (List Callback))}
  {answer : Except DispatchError Outcome}

theorem calls_recording (hd : d.resolvers = [])
    (his : ∀ place i, is[place]? = some i →
      ∃ pre post after started, i = Interceptor.recording place pre post after started)
    {b : Callback} {s s' : Scene (List Callback)} (h : Calls d (.recording answer) is b s s') :
    s'.world.channels = s.world.channels ∧
      s'.world.app = s.world.app ++ [b].filter Callback.isRecorded := by
  have hview : ∀ req ref w, ((d.viewOf req ref).run w).2.channels = w.channels ∧
      ((d.viewOf req ref).run w).2.app = w.app := by
    intro req ref w
    cases ref with
    | view v => exact ⟨rfl, rfl⟩
    | name name =>
      rw [Dispatcher.viewOf, hd]
      exact ⟨rfl, rfl⟩
  cases h with
  | noView => exact ⟨rfl, (List.append_nil _).symm⟩
  | @unresolved s shown ref e published w hs hv resolve =>
    have hw := hview s.request ref s.world
    rw [resolve] at hw
    exact ⟨hw.1, hw.2.trans (List.append_nil _).symm⟩
  | @rendered s shown ref view published answer res w hs hv resolve render =>
    have hw := hview s.request ref s.world
    rw [resolve] at hw
    exact ⟨hw.1, hw.2.trans (List.append_nil _).symm⟩
  | handle run =>
    cases run
    exact ⟨rfl, rfl⟩
  | pre here run | post here run | after here run =>
    obtain ⟨_, _, _, _, rfl⟩ := his _ _ here
    cases run
    exact ⟨rfl, rfl⟩
  | handOff here hi run =>
    obtain ⟨_, _, _, _, rfl⟩ := his _ _ here
    cases hi
    cases run
    exact ⟨rfl, rfl⟩

theorem records_recording (hd : d.resolvers = [])
    (his : ∀ place i, is[place]? = some i →
      ∃ pre post after started, i = Interceptor.recording place pre post after started) :
    Records d (.recording answer) is (·.app) where
  reported _ _ := rfl
  view h := (calls_recording hd his h).2.trans (List.append_nil _)
  call := by
    intro b s s' hb h
    rw [(calls_recording hd his h).2]
    cases b with
    | view ref a => exact absurd rfl (hb ref a)
    | _ => rfl

end

/-- From a scene, an action makes some calls; its result, the calls and the scene behind them are as
`Q` says. -/
def Does (d : Dispatcher σ) (h : Handler σ) (is : List (Interceptor σ)) (s : Scene σ) (a : Act σ α)
    (Q : α → List Callback → Scene σ → Prop) : Prop :=
  ∃ t s', Performs d h is t s s' ∧ (a.run s.world).2 = s'.world ∧ Q (a.run s.world).1 t s'

namespace Does

variable {d : Dispatcher σ} {h : Handler σ} {is : List (Interceptor σ)} {s : Scene σ} {a : Act σ α}

protected theorem pure {x : α} {Q : α → List Callback → Scene σ → Prop} (hq : Q x [] s) :
    Does d h is s (pure x) Q :=
  ⟨[], s, .done, rfl, hq⟩

theorem emit_bind {e : Event} {f : Unit → Act σ α} {Q : α → List Callback → Scene σ → Prop}
    (hf : Does d h is (s.reported e) (f ()) Q) : Does d h is s (Act.emit e >>= f) Q := by
  obtain ⟨t, s', ht, hw, hq⟩ := hf
  exact ⟨t, s', .report e ht, hw, hq⟩

theorem mono {Q R : α → List Callback → Scene σ → Prop} (ha : Does d h is s a Q)
    (hqr : ∀ x t s', Q x t s' → R x t s') : Does d h is s a R := by
  obtain ⟨t, s', ht, hw, hq⟩ := ha
  exact ⟨t, s', ht, hw, hqr _ _ _ hq⟩

protected theorem map {f : α → β} {Q : β → List Callback → Scene σ → Prop}
    (ha : Does d h is s a fun x t s' => Q (f x) t s') : Does d h is s (f <$> a) Q :=
  ha

protected theorem bind {Q : α → List Callback → Scene σ → Prop} {f : α → Act σ β}
    {R : β → List Callback → Scene σ → Prop} (ha : Does d h is s a Q)
    (hf : ∀ x t s', Q x t s' → Does d h is s' (f x) fun y u => R y (t ++ u)) :
    Does d h is s (a >>= f) R := by
  obtain ⟨t, s', ht, hw, hq⟩ := ha
  obtain ⟨u, s'', hu, hw', hr⟩ := hf _ _ _ hq
  rw [← hw] at hw' hr
  exact ⟨t ++ u, s'', ht.append hu, hw', hr⟩

end Does

section

variable {d : Dispatcher σ} {h : Handler σ} {is : List (Interceptor σ)} {i : Interceptor σ}
  {place : Nat}

theorem Interceptor.preHandle_does (here : is[place]? = some i) (s : Scene σ) :
    Does d h is s (i.preHandle (s.call h) s.response) fun x t s' =>
      t = [.pre place x.1] ∧ ∃ w, s' = s.wrote w x.2 :=
  ⟨_, _, .call (.pre here rfl) .done, rfl, rfl, _, rfl⟩

theorem Handler.run_does (s : Scene σ) :
    Does d h is s (h.run s.request s.response) fun x t s' =>
      t = [.handle x.1] ∧ ∃ w, s' = { s.wrote w x.2 with
        shown := (x.1.toOption.bind Outcome.shown?).map (d.named s.request) } :=
  ⟨_, _, .call (.handle rfl) .done, rfl, rfl, _, rfl⟩

theorem Interceptor.postHandle_does (here : is[place]? = some i) (s : Scene σ) :
    Does d h is s (i.postHandle (s.call h) s.response s.shown) fun x t s' =>
      t = [.post place x.1] ∧ ∃ w, s' = { s.wrote w x.2.1 with shown := x.2.2 } :=
  ⟨_, _, .call (.post here rfl) .done, rfl, rfl, _, rfl⟩

theorem Interceptor.afterCompletion_does (here : is[place]? = some i)
    (error : Option DispatchError) (s : Scene σ) :
    Does d h is s (i.afterCompletion (s.call h) s.response error) fun x t s' =>
      t = [.after place error] ∧ ∃ w, s' = s.wrote w x.2 :=
  ⟨_, _, .call (.after here rfl) .done, rfl, rfl, _, rfl⟩

theorem Interceptor.asyncStarted_does (here : is[place]? = some i)
    {started : Call → Response → Act σ (Except DispatchError Unit × Response)}
    (hi : i.asyncStarted = some started) (s : Scene σ) :
    Does d h is s (started (s.call h) s.response) fun x t s' =>
      t = [.handOff place] ∧ ∃ w, s' = s.wrote w x.2 :=
  ⟨_, _, .call (.handOff here hi rfl) .done, rfl, rfl, _, rfl⟩

end

end Switchyard
