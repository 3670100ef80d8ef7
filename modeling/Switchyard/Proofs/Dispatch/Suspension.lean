import Switchyard.Proofs.Dispatch.Protocol
/-!
# Suspended dispatches

A suspended dispatch and the senders of its result as a machine, whose moves come in any order.
Whatever the moves, the dispatch is there until the first of them that ends it. This one makes the
last calls of the chain, and no move after it makes any.
-/

namespace Switchyard

variable {σ : Type} {d : Dispatcher σ} {h : Handler σ} {is : List (Interceptor σ)}

namespace World

variable {w : World σ} {k : Nat} {f : Channel → Channel}

def channel (w : World σ) (k : Nat) : Channel := w.channels.getD k default

def withChannel (w : World σ) (k : Nat) (f : Channel → Channel) : World σ :=
  { w with channels := w.channels.modify k f }

private theorem withChannel_withChannel (w : World σ) (k : Nat) (f g : Channel → Channel) :
    (w.withChannel k f).withChannel k g = w.withChannel k (g ∘ f) := by
  have hmodify : (w.channels.modify k f).modify k g = w.channels.modify k (g ∘ f) := by
    apply Array.ext_getElem?
    intro i
    rw [Array.getElem?_modify, Array.getElem?_modify, Array.getElem?_modify]
    split
    · rw [Option.map_map]
    · rfl
  rw [withChannel, withChannel, withChannel, hmodify]

private theorem withChannel_id (w : World σ) (k : Nat) : w.withChannel k id = w := by
  have hmodify : w.channels.modify k id = w.channels := by
    apply Array.ext_getElem?
    intro i
    rw [Array.getElem?_modify]
    split
    · rw [Option.map_id_fun, id]
    · rfl
  rw [withChannel, hmodify]

private theorem channel_withChannel (w : World σ) (k : Nat) (f : Channel → Channel) :
    (w.withChannel k f).channel k = (w.channels[k]?.map f).getD default := by
  rw [withChannel, channel, Array.getD_eq_getD_getElem?, Array.getElem?_modify, if_pos rfl]

private theorem channel_withChannel_of_open (hw : (w.channel k).isOpen = true) :
    (w.withChannel k f).channel k = f (w.channel k) := by
  rw [channel_withChannel]
  rw [channel, Array.getD_eq_getD_getElem?] at hw ⊢
  cases hch : w.channels[k]? with
  | none =>
    rw [hch] at hw
    cases hw
  | some ch => rfl

private theorem shut_withChannel (hf : ∀ ch, (f ch).isOpen = false) :
    ((w.withChannel k f).channel k).isOpen = false := by
  rw [channel_withChannel]
  cases w.channels[k]? with
  | none => rfl
  | some ch => exact hf ch

private theorem shut_withChannel_of_shut (hw : (w.channel k).isOpen = false)
    (hf : ∀ ch, (f ch).isOpen = ch.isOpen) : ((w.withChannel k f).channel k).isOpen = false := by
  rw [channel_withChannel]
  rw [channel, Array.getD_eq_getD_getElem?] at hw
  cases hch : w.channels[k]? with
  | none => rfl
  | some ch =>
    rw [hch] at hw
    exact (hf ch).trans hw

end World

def Channel.isSilent (c : Channel) (timeout : Option Nat) : Bool :=
  c.queue.isEmpty && c.senders != 0 && timeout.isNone

/-- A suspended dispatch in its world. The one who ends it takes it out. -/
structure Suspension (σ : Type) where
  world : World σ
  held : Option (Pending σ)

/-- What can be done with a suspended dispatch and with the senders of its result. -/
inductive Move where
  | send (value : AsyncValue)
  | clone
  | dropSender
  | resume (value : AsyncValue)
  | wait
  | drop

/-- What a move answers. A dispatch that is dropped has no result. -/
inductive Answer where
  | sent (delivered : Bool)
  | ended (result : Option (Except DispatchError Exchange))
  | nothing

/-- The end of a dispatch, if the move was one. -/
def Answer.ended? : Answer → Option (Option (Except DispatchError Exchange))
  | .ended result => some result
  | _ => none

namespace Suspension

def conclude (s : Suspension σ)
    (ending : Pending σ → Act σ (Option (Except DispatchError Exchange))) : Answer × Suspension σ :=
  match s.held with
  | none => (.nothing, s)
  | some p =>
    let (result, world) := (ending p).run s.world
    (.ended result, ⟨world, none⟩)

def step (d : Dispatcher σ) (result : Deferred) (s : Suspension σ) : Move → Answer × Suspension σ
  | .send value =>
    let (delivered, world) := (Act.send result.channel value).run s.world
    (.sent delivered, { s with world })
  | .clone =>
    let more (c : Channel) : Channel := { c with senders := c.senders + 1 }
    (.nothing, { s with world := s.world.withChannel result.channel more })
  | .dropSender =>
    (.nothing, { s with world := s.world.withChannel result.channel Channel.dropSender })
  | .resume value => s.conclude fun p => some <$> d.resume p value
  | .wait =>
    if (s.world.channel result.channel).isSilent result.timeout then (.nothing, s)
    else s.conclude fun p => some <$> d.wait p
  | .drop => s.conclude fun p => (fun _ => none) <$> Dispatcher.drop p

def run (d : Dispatcher σ) (result : Deferred) :
    List Move → Suspension σ → List Answer × Suspension σ
  | [], s => ([], s)
  | m :: ms, s =>
    let (answer, s) := s.step d result m
    let (answers, s) := run d result ms s
    (answer :: answers, s)

private theorem run_cons (d : Dispatcher σ) (result : Deferred) (m : Move) (ms : List Move)
    (s : Suspension σ) :
    run d result (m :: ms) s =
      ((s.step d result m).1 :: (run d result ms (s.step d result m).2).1,
        (run d result ms (s.step d result m).2).2) := rfl

end Suspension

/-- What the first ending of some moves ends a dispatch with: a value, or none when the dispatch is
dropped. Before the moves some values were sent, and there are some senders. -/
def Move.ending? (timeout : Option Nat) :
    List AsyncValue → Nat → List Move → Option (Option AsyncValue)
  | _, _, [] => none
  | sent, senders, .send value :: ms => ending? timeout (sent ++ [value]) senders ms
  | sent, senders, .clone :: ms => ending? timeout sent (senders + 1) ms
  | sent, senders, .dropSender :: ms => ending? timeout sent (senders - 1) ms
  | _, _, .resume value :: _ => some (some value)
  | _, _, .drop :: _ => some none
  | value :: _, _, .wait :: _ => some (some value)
  | [], 0, .wait :: _ => some (some (.error .asyncCancelled))
  | [], senders + 1, .wait :: ms =>
    match timeout with
    | some milliseconds => some (some (.error (.asyncTimeout milliseconds)))
    | none => ending? timeout [] (senders + 1) ms

/-- A chain whose interceptors all let the request pass and whose handler went on. -/
def Pending.IsReady (p : Pending σ) : Prop :=
  p.chain.cursor = Chain.cursorAt p.chain.interceptors.length ∧ p.chain.state = .asyncStarted

/-- The scene in which a suspended dispatch ends. With a value its request is a continued one, and
what the value brings is shown. -/
def Pending.sceneAt (d : Dispatcher σ) (p : Pending σ) (w : World σ) : Option AsyncValue → Scene σ
  | none => ⟨w, p.exchange, none⟩
  | some value =>
    let request := { p.exchange.request with dispatchType := .async }
    ⟨w, { p.exchange with request }, value.toOption.join.map (d.named request)⟩

/-- The calls that end a suspended dispatch with `n` interceptors, by what ends it, and its result. -/
inductive Concludes (n : Nat) (x : Exchange) :
    Option AsyncValue → List Callback → Option (Except DispatchError Exchange) → Prop where
  | finished {shown : Option ModelAndView} {t : List Callback} {r : Except DispatchError Exchange}
      (ht : Finishes n x t r) : Concludes n x (some (.ok shown)) t (some r)
  | failed {e : DispatchError} :
      Concludes n x (some (.error e)) (Callback.completed n (some e)) (some (.error e))
  | dropped : Concludes n x none (Callback.completed n (some .asyncCancelled)) none

/-- Callbacks and resolvers leave a channel shut. The waiting end of a result belongs to the
suspended dispatch, and they have no other to put in its place. -/
def KeepsShut (d : Dispatcher σ) (h : Handler σ) (is : List (Interceptor σ)) (k : Nat) : Prop :=
  ∀ {b s s'}, Calls d h is b s s' → (s.world.channel k).isOpen = false →
    (s'.world.channel k).isOpen = false

private theorem Performs.shut {k : Nat} (hkeeps : KeepsShut d h is k) {t : List Callback}
    {s s' : Scene σ} (ht : Performs d h is t s s') (hs : (s.world.channel k).isOpen = false) :
    (s'.world.channel k).isOpen = false := by
  induction ht with
  | done => exact hs
  | report e _ ih => exact ih hs
  | call first _ ih => exact ih (hkeeps first hs)

private theorem keepsShut_recording {d : Dispatcher (List Callback)}
    {is : List (Interceptor (List Callback))} {answer : Except DispatchError Outcome}
    (hd : d.resolvers = [])
    (his : ∀ place i, is[place]? = some i →
      ∃ pre post after started, i = Interceptor.recording place pre post after started) (k : Nat) :
    KeepsShut d (.recording answer) is k := by
  intro b s s' h hs
  rw [World.channel, (calls_recording hd his h).1]
  exact hs

namespace Pending

variable {p : Pending σ} {w : World σ}

/-- An action ends a suspended dispatch. It may change the channel of the result before the calls
and after them. -/
def EndsBy (d : Dispatcher σ) (p : Pending σ) (w : World σ) (cause : Option AsyncValue)
    (a : Act σ (Option (Except DispatchError Exchange))) : Prop :=
  ∃ t s f g,
    Performs d p.chain.handler p.chain.interceptors t
      (p.sceneAt d (w.withChannel p.result.channel f) cause) s ∧
    (a.run w).2 = s.world.withChannel p.result.channel g ∧
    Concludes p.chain.interceptors.length s.exchange cause t (a.run w).1 ∧
    (KeepsShut d p.chain.handler p.chain.interceptors p.result.channel →
      ((a.run w).2.channel p.result.channel).isOpen = false)

theorem resume_performs (hp : p.IsReady) (value : AsyncValue) (w : World σ) :
    ∃ t s, Performs d p.chain.handler p.chain.interceptors t
        (p.sceneAt d (w.withChannel p.result.channel Channel.close) (some value)) s ∧
      ((d.resume p value).run w).2 = s.world ∧
      Concludes p.chain.interceptors.length s.exchange (some value) t
        (some ((d.resume p value).run w).1) := by
  let s₀ := p.sceneAt d (w.withChannel p.result.channel Channel.close) (some value)
  let request := { p.exchange.request with dispatchType := .async }
  cases value with
  | ok shown =>
    have hcalls : Does d p.chain.handler p.chain.interceptors s₀
        (do
          Act.emit (.debug "Resuming async dispatch" [("ok", .flag true)])
          d.finish p.chain { p.exchange with request } shown)
        fun r t s =>
          Concludes p.chain.interceptors.length s.exchange (some (.ok shown)) t (some r) := by
      apply Does.emit_bind
      apply (Dispatcher.finish_does hp.1 rfl).mono
      intro r t s ht
      exact .finished ht
    exact hcalls
  | error e =>
    have hcalls : Does d p.chain.handler p.chain.interceptors s₀
        (do
          Act.emit (.debug "Resuming async dispatch" [("ok", .flag false)])
          let _ ← p.chain.complete request p.exchange.response (some e)
          return .error e)
        fun r t s =>
          Concludes p.chain.interceptors.length s.exchange (some (.error e)) t (some r) := by
      apply Does.emit_bind
      apply Does.bind (Chain.complete_does hp.1 (Nat.le_refl _) (by simp [hp.2]) (some e) _)
      intro x t s hx
      obtain ⟨rfl, w', rfl⟩ := hx
      apply Does.pure
      rw [List.append_nil]
      exact .failed
    exact hcalls

private theorem EndsBy.of_shut {value : AsyncValue}
    {a : Act σ (Option (Except DispatchError Exchange))} {f : Channel → Channel}
    (hf : ∀ ch, (f ch).isOpen = false) {t : List Callback} {s : Scene σ}
    (ht : Performs d p.chain.handler p.chain.interceptors t
      (p.sceneAt d (w.withChannel p.result.channel f) (some value)) s)
    (hw : (a.run w).2 = s.world)
    (hend : Concludes p.chain.interceptors.length s.exchange (some value) t (a.run w).1) :
    p.EndsBy d w (some value) a := by
  refine ⟨t, s, f, id, ht, ?_, hend, ?_⟩
  · rw [World.withChannel_id, hw]
  · intro hkeeps
    rw [hw]
    exact ht.shut hkeeps (World.shut_withChannel hf)

theorem resume_ends (hp : p.IsReady) (value : AsyncValue) (w : World σ) :
    p.EndsBy d w (some value) (some <$> d.resume p value) := by
  obtain ⟨t, s, ht, hw, hend⟩ := resume_performs (d := d) hp value w
  exact .of_shut (fun _ => rfl) ht hw hend

private theorem wait_run (d : Dispatcher σ) (p : Pending σ) (w : World σ) :
    let value := (w.channel p.result.channel).await p.result.timeout
    ∃ w₁, (d.wait p).run w = (d.resume p value).run w₁ ∧ ∀ {t s},
      Performs d p.chain.handler p.chain.interceptors t
        (p.sceneAt d (w₁.withChannel p.result.channel Channel.close) (some value)) s →
      Performs d p.chain.handler p.chain.interceptors t
        (p.sceneAt d (w.withChannel p.result.channel (Channel.close ∘ Channel.close)) (some value))
        s := by
  intro value
  let w₀ := w.withChannel p.result.channel Channel.close
  have hawait : (Act.await p.result).run w = (value, w₀) := rfl
  rw [Dispatcher.wait, StateT.run_bind, hawait]
  cases value with
  | ok shown =>
    refine ⟨w₀, rfl, ?_⟩
    intro t s ht
    rw [World.withChannel_withChannel] at ht
    exact ht
  | error e =>
    refine ⟨w₀.reported _, rfl, ?_⟩
    intro t s ht
    apply Performs.report
    rw [← World.withChannel_withChannel]
    exact ht

theorem wait_ends (hp : p.IsReady) (w : World σ) :
    p.EndsBy d w (some ((w.channel p.result.channel).await p.result.timeout))
      (some <$> d.wait p) := by
  obtain ⟨w₁, hrun, hcalls⟩ := wait_run d p w
  obtain ⟨t, s, ht, hw, hend⟩ := resume_performs (d := d) hp
    ((w.channel p.result.channel).await p.result.timeout) w₁
  rw [← hrun] at hw hend
  exact .of_shut (fun _ => rfl) (hcalls ht) hw hend

theorem drop_ends (hp : p.IsReady) (w : World σ) :
    p.EndsBy d w none ((fun _ => none) <$> Dispatcher.drop p) := by
  have hcalls : Does d p.chain.handler p.chain.interceptors (p.sceneAt d w none)
      (do
        Act.emit (.warn "Pending dispatch dropped before completion" [])
        p.chain.complete p.exchange.request p.exchange.response (some .asyncCancelled))
      fun _ t _ => t = Callback.completed p.chain.interceptors.length (some .asyncCancelled) := by
    apply Does.emit_bind
    apply (Chain.complete_does hp.1 (Nat.le_refl _) (by simp [hp.2]) _ _).mono
    intro x t s hx
    exact hx.1
  obtain ⟨t, s, ht, hw, rfl⟩ := hcalls
  have hworld : ((Dispatcher.drop p).run w).2 =
      s.world.withChannel p.result.channel Channel.close := by
    rw [← hw]
    rfl
  refine ⟨_, s, id, Channel.close, ?_, hworld, .dropped, ?_⟩
  · rw [World.withChannel_id]
    exact ht
  · intro _
    change (((Dispatcher.drop p).run w).2.channel _).isOpen = false
    rw [hworld]
    exact World.shut_withChannel fun _ => rfl

/-- How far some moves have brought a dispatch that was suspended in a world: it is still there, or
has ended. -/
inductive Course (d : Dispatcher σ) (p : Pending σ) (w : World σ) :
    Option (Option AsyncValue) → List Callback → List Answer → Suspension σ → Prop where
  | waiting {answers : List Answer} (f : Channel → Channel)
      (hanswers : answers.filterMap Answer.ended? = []) :
      Course d p w none [] answers ⟨w.withChannel p.result.channel f, some p⟩
  | ended {cause : Option AsyncValue} {t : List Callback} {answers : List Answer}
      {r : Option (Except DispatchError Exchange)} {s : Scene σ} (f g : Channel → Channel)
      (calls : Performs d p.chain.handler p.chain.interceptors t
        (p.sceneAt d (w.withChannel p.result.channel f) cause) s)
      (hend : Concludes p.chain.interceptors.length s.exchange cause t r)
      (hanswers : answers.filterMap Answer.ended? = [r]) :
      Course d p w (some cause) t answers ⟨s.world.withChannel p.result.channel g, none⟩

/-- Some moves go as `Course` says, and leave the channel shut if they end the dispatch. -/
def Goes (d : Dispatcher σ) (p : Pending σ) (w : World σ) (ms : List Move)
    (cause : Option (Option AsyncValue)) : Prop :=
  let after := Suspension.run d p.result ms ⟨w, some p⟩
  ∃ t, p.Course d w cause t after.1 after.2 ∧
    (KeepsShut d p.chain.handler p.chain.interceptors p.result.channel → cause.isSome →
      (after.2.world.channel p.result.channel).isOpen = false)

private theorem Goes.cons {m : Move} {ms : List Move} {cause : Option (Option AsyncValue)}
    {answer : Answer} {f : Channel → Channel}
    (hstep : Suspension.step d p.result ⟨w, some p⟩ m =
      (answer, ⟨w.withChannel p.result.channel f, some p⟩))
    (hanswer : answer.ended? = none) (hms : p.Goes d (w.withChannel p.result.channel f) ms cause) :
    p.Goes d w (m :: ms) cause := by
  obtain ⟨t, hcourse, hshut⟩ := hms
  rw [Goes, Suspension.run_cons, hstep]
  refine ⟨t, ?_, hshut⟩
  generalize Suspension.run d p.result ms _ = after at hcourse ⊢
  obtain ⟨answers, s⟩ := after
  have hcons : (answer :: answers).filterMap Answer.ended? = answers.filterMap Answer.ended? :=
    List.filterMap_cons_none hanswer
  cases hcourse with
  | waiting g hanswers =>
    rw [World.withChannel_withChannel]
    exact .waiting _ (hcons.trans hanswers)
  | ended g g' calls hend hanswers =>
    rw [World.withChannel_withChannel] at calls
    exact .ended _ g' calls hend (hcons.trans hanswers)

private theorem step_ended (d : Dispatcher σ) (result : Deferred) (w : World σ) (m : Move) :
    ∃ f answer, Suspension.step d result ⟨w, none⟩ m =
        (answer, ⟨w.withChannel result.channel f, none⟩) ∧ answer.ended? = none ∧
      ((w.channel result.channel).isOpen = false →
        ((w.withChannel result.channel f).channel result.channel).isOpen = false) := by
  have same : ∃ f answer, ((Answer.nothing, ⟨w, none⟩) : Answer × Suspension σ) =
        (answer, ⟨w.withChannel result.channel f, none⟩) ∧ answer.ended? = none ∧
      ((w.channel result.channel).isOpen = false →
        ((w.withChannel result.channel f).channel result.channel).isOpen = false) := by
    refine ⟨id, .nothing, ?_, rfl, ?_⟩
    · rw [World.withChannel_id]
    · rw [World.withChannel_id]
      exact id
  cases m with
  | send value =>
    refine ⟨fun _ => ((w.channel result.channel).send value).2, _, rfl, rfl, ?_⟩
    intro hw
    apply World.shut_withChannel
    intro _
    rw [Channel.send, hw]
    exact hw
  | clone => exact ⟨_, _, rfl, rfl, fun hw => World.shut_withChannel_of_shut hw fun _ => rfl⟩
  | dropSender => exact ⟨_, _, rfl, rfl, fun hw => World.shut_withChannel_of_shut hw fun _ => rfl⟩
  | resume value => exact same
  | wait =>
    rw [Suspension.step]
    split
    · exact same
    · exact same
  | drop => exact same

private theorem run_ended (d : Dispatcher σ) (result : Deferred) (ms : List Move) (w : World σ) :
    ∃ f answers, Suspension.run d result ms ⟨w, none⟩ =
        (answers, ⟨w.withChannel result.channel f, none⟩) ∧
      answers.filterMap Answer.ended? = [] ∧
      ((w.channel result.channel).isOpen = false →
        ((w.withChannel result.channel f).channel result.channel).isOpen = false) := by
  induction ms generalizing w with
  | nil =>
    refine ⟨id, [], ?_, rfl, ?_⟩
    · rw [World.withChannel_id]
      rfl
    · rw [World.withChannel_id]
      exact id
  | cons m ms ih =>
    obtain ⟨f, answer, hstep, hanswer, hshut⟩ := step_ended d result w m
    obtain ⟨g, answers, hrun, hanswers, hshut'⟩ := ih (w.withChannel result.channel f)
    rw [World.withChannel_withChannel] at hrun hshut'
    refine ⟨g ∘ f, answer :: answers, ?_, ?_, fun hw => hshut' (hshut hw)⟩
    · rw [Suspension.run_cons, hstep, hrun]
    · rw [List.filterMap_cons_none hanswer]
      exact hanswers

private theorem Goes.ended {m : Move} {cause : Option AsyncValue}
    {a : Act σ (Option (Except DispatchError Exchange))} (hends : p.EndsBy d w cause a)
    (hstep : Suspension.step d p.result ⟨w, some p⟩ m = (.ended (a.run w).1, ⟨(a.run w).2, none⟩))
    (ms : List Move) : p.Goes d w (m :: ms) (some cause) := by
  obtain ⟨t, s, f, g, ht, hw, hend, hshut⟩ := hends
  obtain ⟨g', answers, hrun, hanswers, hshut'⟩ := run_ended d p.result ms (a.run w).2
  rw [Goes, Suspension.run_cons, hstep, hrun]
  refine ⟨t, ?_, fun hkeeps _ => hshut' (hshut hkeeps)⟩
  rw [hw, World.withChannel_withChannel]
  refine .ended f _ ht hend ?_
  change (a.run w).1 :: answers.filterMap Answer.ended? = _
  rw [hanswers]

/-- Whatever moves are made, the dispatch ends as the first of them that ends it says. -/
private theorem goes (hp : p.IsReady) {sent : List AsyncValue} {senders : Nat}
    (hw : w.channel p.result.channel = ⟨sent, senders, true⟩) (ms : List Move) :
    p.Goes d w ms (Move.ending? p.result.timeout sent senders ms) := by
  have hopen : (w.channel p.result.channel).isOpen = true := by rw [hw]
  induction ms generalizing w sent senders with
  | nil =>
    refine ⟨[], ?_, fun _ hsome => by cases hsome⟩
    have hwaiting : p.Course d w none [] [] ⟨w.withChannel p.result.channel id, some p⟩ :=
      .waiting id rfl
    rw [World.withChannel_id] at hwaiting
    exact hwaiting
  | cons m ms ih =>
    have later {f : Channel → Channel} {sent' : List AsyncValue} {senders' : Nat}
        (hf : f ⟨sent, senders, true⟩ = ⟨sent', senders', true⟩) :
        p.Goes d (w.withChannel p.result.channel f) ms
          (Move.ending? p.result.timeout sent' senders' ms) := by
      have hchannel : (w.withChannel p.result.channel f).channel p.result.channel =
          ⟨sent', senders', true⟩ := by
        rw [World.channel_withChannel_of_open hopen, hw, hf]
      apply ih hchannel
      rw [hchannel]
    cases m with
    | send value =>
      have hstep : Suspension.step d p.result ⟨w, some p⟩ (.send value) =
          (.sent true, ⟨w.withChannel p.result.channel fun _ => ⟨sent ++ [value], senders, true⟩,
            some p⟩) := by
        change (Answer.sent ((w.channel p.result.channel).send value).1,
          Suspension.mk (w.withChannel p.result.channel fun _ =>
            ((w.channel p.result.channel).send value).2) (some p)) = _
        rw [hw]
        rfl
      exact Goes.cons hstep rfl (later rfl)
    | clone => exact Goes.cons rfl rfl (later rfl)
    | dropSender => exact Goes.cons rfl rfl (later rfl)
    | resume value => exact Goes.ended (resume_ends hp value w) rfl ms
    | drop => exact Goes.ended (drop_ends hp w) rfl ms
    | wait =>
      have hends := wait_ends (d := d) hp w
      rw [hw] at hends
      have hstep (hspeaks : (⟨sent, senders, true⟩ : Channel).isSilent p.result.timeout = false) :
          Suspension.step d p.result ⟨w, some p⟩ .wait =
            (.ended ((some <$> d.wait p).run w).1, ⟨((some <$> d.wait p).run w).2, none⟩) := by
        rw [Suspension.step, hw, hspeaks]
        rfl
      cases sent with
      | cons value sent => exact Goes.ended hends (hstep rfl) ms
      | nil =>
        cases senders with
        | zero => exact Goes.ended hends (hstep rfl) ms
        | succ senders =>
          cases htimeout : p.result.timeout with
          | some milliseconds =>
            rw [htimeout] at hends hstep
            exact Goes.ended hends (hstep rfl) ms
          | none =>
            have hsilent : Suspension.step d p.result ⟨w, some p⟩ .wait =
                (.nothing, ⟨w.withChannel p.result.channel id, some p⟩) := by
              rw [Suspension.step, hw, htimeout, World.withChannel_id]
              rfl
            have hlater := later (f := id) rfl
            rw [htimeout] at hlater
            exact Goes.cons hsilent rfl hlater

private theorem Course.calls_of_failed {e : DispatchError} {t : List Callback}
    {answers : List Answer}
    {s : Suspension σ} (hc : p.Course d w (some (some (.error e))) t answers s) :
    t = Callback.completed p.chain.interceptors.length (some e) := by
  cases hc with
  | ended f g calls hend =>
    cases hend
    rfl

private theorem Course.record_eq {record : World σ → List Callback}
    (hr : Records d p.chain.handler p.chain.interceptors record)
    (hchannel : ∀ w f, record (World.withChannel w p.result.channel f) = record w)
    {cause : Option (Option AsyncValue)} {t : List Callback} {answers : List Answer}
    {s : Suspension σ} (hc : p.Course d w cause t answers s) :
    record s.world = record w ++ t.filter Callback.isRecorded := by
  cases hc with
  | waiting f => rw [hchannel, List.filter_nil, List.append_nil]
  | @ended cause t answers r s f g calls =>
    have hstart : record (p.sceneAt d (w.withChannel p.result.channel f) cause).world = record w := by
      rw [← hchannel w f]
      cases cause <;> rfl
    rw [hchannel, calls.record_eq hr, hstart]

end Pending

namespace Dispatcher

/-- The whole way of a request whose handler went on, by whatever moves: the dispatch itself makes
the calls before the handler went on and those that tell of it, and the first move that ends what
is left makes those of `Concludes`. Then no sender delivers any more. -/
theorem suspended_ends_once (d : Dispatcher σ) (res : Response) {req req' : Request}
    {w w₀ w₁ : World σ} {c : Chain σ} {p : Pending σ} {sent : List AsyncValue} {senders : Nat}
    (found : (chainFor d.mappings req).run w = ((.ok (some c), req'), w₀))
    (suspended : (d.dispatch req res).run w = (.ok (.suspended p), w₁))
    (live : w₁.channel p.result.channel = ⟨sent, senders, true⟩) (ms : List Move) :
    let n := c.interceptors.length
    let u := Callback.passed 0 n ++ .handle (.ok (.async p.result)) :: Callback.handedOff c.interceptors
    let cause := Move.ending? p.result.timeout sent senders ms
    let after := Suspension.run d p.result ms ⟨w₁, some p⟩
    ∃ s t, Performs d c.handler c.interceptors u ⟨w₀, ⟨req', res⟩, none⟩ s ∧
      s.world = w₁ ∧ s.exchange = p.exchange ∧ p.chain = c.suspended ∧
      p.Course d w₁ cause t after.1 after.2 ∧
      (KeepsShut d c.handler c.interceptors p.result.channel → cause.isSome →
        ∀ value, (after.2.step d p.result (.send value)).1 = .sent false) ∧
      ∀ record, Records d c.handler c.interceptors record →
        (∀ w f, record (World.withChannel w p.result.channel f) = record w) →
        record after.2.world = record w₀ ++ (u ++ t).filter Callback.isRecorded := by
  intro n u cause after
  obtain ⟨u', s, hu, hw, hprotocol⟩ := dispatch_performs d res found
  rw [suspended] at hw hprotocol
  have hw : w₁ = s.world := hw
  obtain ⟨rfl, hchain, hexchange⟩ := hprotocol.of_suspended rfl
  have hready : p.IsReady := by
    rw [Pending.IsReady, hchain]
    exact ⟨rfl, rfl⟩
  obtain ⟨t, hcourse, hshut⟩ := Pending.goes (d := d) hready live ms
  refine ⟨s, t, hu, hw.symm, hexchange.symm, hchain, hcourse, ?_, ?_⟩
  · intro hkeeps hended value
    rw [hchain] at hshut
    have hclosed := hshut hkeeps hended
    change Answer.sent ((after.2.world.channel p.result.channel).send value).1 = _
    rw [Channel.send, hclosed]
    rfl
  · intro record hrecord hchannel
    have hlater := hcourse.record_eq (by rw [hchain]; exact hrecord) hchannel
    rw [hlater, hw, hu.record_eq hrecord, List.append_assoc, ← List.filter_append]

/-- A wait whose time is up, with a value that comes too late. -/
theorem suspended_ends_once_recording :
    let is := [Interceptor.recording 0, Interceptor.recording 1]
    let answer := Except.ok (Outcome.async ⟨0, some 20⟩)
    let d := recording is answer
    let req : Request := { method := .get, path := "/" }
    let p : Pending (List Callback) :=
      ⟨Chain.suspended { handler := .recording answer, interceptors := is }, ⟨req, {}⟩, ⟨0, some 20⟩⟩
    let w₁ := ((d.dispatch req).run ⟨[], #[], #[{}], #[], #[]⟩).2
    let ms : List Move := [.clone, .dropSender, .wait, .send (.ok none), .drop]
    (d.dispatch req).run ⟨[], #[], #[{}], #[], #[]⟩ = (.ok (.suspended p), w₁) ∧
      (Suspension.run d p.result ms ⟨w₁, some p⟩).2.world.app = [.pre 0 (.ok true),
        .pre 1 (.ok true), .handle answer, .handOff 1, .handOff 0,
        .after 1 (some (.asyncTimeout 20)), .after 0 (some (.asyncTimeout 20))] ∧
      ∀ value, ((Suspension.run d p.result ms ⟨w₁, some p⟩).2.step d p.result (.send value)).1 =
        .sent false := by
  intro is answer d req p w₁ ms
  have found : ∃ w₀, (chainFor d.mappings req).run ⟨[], #[], #[{}], #[], #[]⟩ =
      ((.ok (some { handler := .recording answer, interceptors := is }), req), w₀) := ⟨_, rfl⟩
  obtain ⟨w₀, found⟩ := found
  have suspended : (d.dispatch req).run ⟨[], #[], #[{}], #[], #[]⟩ = (.ok (.suspended p), w₁) := rfl
  have live : w₁.channel p.result.channel = ⟨[], 1, true⟩ := rfl
  have his : ∀ place i, is[place]? = some i →
      ∃ pre post after started, i = Interceptor.recording place pre post after started := by
    intro place i here
    rcases place with _ | _ | place <;> cases here <;> exact ⟨_, _, _, _, rfl⟩
  obtain ⟨s, t, -, -, -, -, hcourse, hshut, hrecord⟩ :=
    suspended_ends_once d {} found suspended live ms
  refine ⟨suspended, ?_, hshut (keepsShut_recording rfl his 0) rfl⟩
  have hbefore : w₀.app = [] := (congrArg (·.2.app) found).symm
  have hafter := hrecord (·.app) (records_recording rfl his) fun _ _ => rfl
  have ht : t = Callback.completed 2 (some (.asyncTimeout 20)) := hcourse.calls_of_failed
  rw [hbefore, ht] at hafter
  exact hafter

end Dispatcher

end Switchyard
