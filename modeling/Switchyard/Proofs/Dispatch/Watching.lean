import Switchyard.Proofs.Dispatch.Operations
/-!
# Watched chains

Each callback of a chain may be made to enter its calls in a log, which stands beside the state of
the application, and to do what it did before. Without the log a run of watched callbacks is the run
itself (`Chain.watchAll_mirrors`), and the log is that of its life (`Chain.watchAll_life`).
-/

namespace Switchyard

variable {σ α β α' β' : Type}

/-- The application's state beside a log of calls. -/
abbrev Watched (σ : Type) := σ × List Callback

namespace World

def withApp {τ : Type} (w : World σ) (app : τ) : World τ :=
  ⟨app, w.journal, w.channels, w.meters, w.caches⟩

def watched (w : World σ) : World (Watched σ) := w.withApp (w.app, [])

def unwatched (w : World (Watched σ)) : World σ := w.withApp w.app.1

def log (w : World (Watched σ)) : List Callback := w.app.2

end World

/-- An action that enters itself in the log when it is done. -/
def Act.watched (a : Act σ α) (entry : α → Callback) : Act (Watched σ) α := fun w =>
  let (x, w') := a.run w.unwatched
  (x, w'.withApp (w'.app, w.log ++ [entry x]))

/-- The interceptor, known to the log by a number. -/
def Interceptor.watched (n : Nat) (i : Interceptor σ) : Interceptor (Watched σ) where
  name := i.name
  preHandle call res := (i.preHandle call res).watched fun x => .pre n x.1
  postHandle call res shown := (i.postHandle call res shown).watched fun x => .post n x.1
  afterCompletion call res error :=
    (i.afterCompletion call res error).watched fun _ => .after n error
  asyncStarted := i.asyncStarted.map fun started call res =>
    (started call res).watched fun _ => .handOff n

def Handler.watched (h : Handler σ) : Handler (Watched σ) where
  name := h.name
  cors := h.cors
  run req res := (h.run req res).watched fun x => .handle x.1

/-- The chain with watched callbacks, its interceptors under the numbers beside them. -/
def Chain.watched (c : Chain σ) (es : List (Nat × Interceptor σ)) : Chain (Watched σ) where
  handler := c.handler.watched
  interceptors := es.map fun e => e.2.watched e.1
  cursor := c.cursor
  state := c.state
  asyncNotified := c.asyncNotified

namespace Operation

def watched (n : Nat) : Operation σ → Operation (Watched σ)
  | preHandle req res => preHandle req res
  | invoke req res => invoke req res
  | postHandle req res shown => postHandle req res shown
  | notifyAsync req res => notifyAsync req res
  | complete req res error => complete req res error
  | add i => add (i.watched n)
  | insert place i => insert place (i.watched n)

def enter (es : List (Nat × Interceptor σ)) : Operation σ → List (Nat × Interceptor σ)
  | add i => es ++ [(es.length, i)]
  | insert place i => es.take place ++ (es.length, i) :: es.drop place
  | _ => es

def enterAll (ops : List (Operation σ)) (es : List (Nat × Interceptor σ)) :
    List (Nat × Interceptor σ) := ops.foldl (fun es op => op.enter es) es

private theorem enrol_watched (op : Operation σ) (n : Nat) (nums : List Nat) :
    (op.watched n).enrol nums = op.enrol nums := by cases op <;> rfl

private theorem map_fst_enter (op : Operation σ) (es : List (Nat × Interceptor σ)) :
    (op.enter es).map (·.1) = op.enrol (es.map (·.1)) := by
  cases op <;> simp [enter, enrol, List.map_take, List.map_drop]

end Operation

namespace Chain

/-- Operations one after the other on a watched chain; what is put into it is watched as well. -/
def watchAll (ops : List (Operation σ)) (c : Chain (Watched σ)) :
    Act (Watched σ) (Chain (Watched σ)) :=
  ops.foldlM (fun c op => (op.watched c.interceptors.length).perform c) c

/-- The run of operations on a chain, watched from the beginning. -/
def observe (c : Chain σ) (ops : List (Operation σ)) (w : World σ) :
    Chain (Watched σ) × World (Watched σ) :=
  (watchAll ops (c.watched (placed c.interceptors))).run w.watched

/-- The calls that operations on a chain come to. Interceptors go by the numbers of their
registration. -/
def transcript (c : Chain σ) (ops : List (Operation σ)) (w : World σ) : List Callback :=
  (c.observe ops w).2.log

end Chain

/-- A watched action comes to what another one does, and leaves the same world but for the log. -/
def Act.Mirrors (a' : Act (Watched σ) α') (a : Act σ α) (R : α' → α → Prop) : Prop :=
  ∀ w, R (a'.run w).1 (a.run w.unwatched).1 ∧ (a'.run w).2.unwatched = (a.run w.unwatched).2

namespace Act.Mirrors

variable {a' : Act (Watched σ) α'} {a : Act σ α} {R : α' → α → Prop}

protected theorem pure {x' : α'} {x : α} (h : R x' x) :
    Act.Mirrors (pure x') (pure x : Act σ α) R := fun _ => ⟨h, rfl⟩

protected theorem bind {f' : α' → Act (Watched σ) β'} {f : α → Act σ β} {S : β' → β → Prop}
    (ha : a'.Mirrors a R) (hf : ∀ x' x, R x' x → (f' x').Mirrors (f x) S) :
    (a' >>= f').Mirrors (a >>= f) S := by
  intro w
  obtain ⟨hresult, hworld⟩ := ha w
  change S ((f' (a'.run w).1).run (a'.run w).2).1
      ((f (a.run w.unwatched).1).run (a.run w.unwatched).2).1 ∧
    ((f' (a'.run w).1).run (a'.run w).2).2.unwatched =
      ((f (a.run w.unwatched).1).run (a.run w.unwatched).2).2
  rw [← hworld]
  exact hf _ _ hresult _

protected theorem map {f' : α' → β'} {f : α → β} {S : β' → β → Prop} (ha : a'.Mirrors a R)
    (hf : ∀ x' x, R x' x → S (f' x') (f x)) : (f' <$> a').Mirrors (f <$> a) S :=
  fun w => ⟨hf _ _ (ha w).1, (ha w).2⟩

theorem emit_bind {e : Event} {f' : Unit → Act (Watched σ) β'} {f : Unit → Act σ β}
    {S : β' → β → Prop} (hf : (f' ()).Mirrors (f ()) S) :
    (Act.emit e >>= f').Mirrors (Act.emit e >>= f) S :=
  fun w => hf (w.reported e)

protected theorem watched (a : Act σ α) (entry : α → Callback) :
    (a.watched entry).Mirrors a Eq := fun _ => ⟨rfl, rfl⟩

end Act.Mirrors

open Act (Mirrors)

private theorem Interceptor.preHandle_mirrors (i : Interceptor σ) (n : Nat) (call : Call)
    (res : Response) :
    Mirrors ((i.watched n).preHandle call res) (i.preHandle call res) Eq := .watched _ _

private theorem Interceptor.postHandle_mirrors (i : Interceptor σ) (n : Nat) (call : Call)
    (res : Response) (shown : Option ModelAndView) :
    Mirrors ((i.watched n).postHandle call res shown) (i.postHandle call res shown) Eq :=
  .watched _ _

private theorem Interceptor.afterCompletion_mirrors (i : Interceptor σ) (n : Nat) (call : Call)
    (res : Response) (error : Option DispatchError) :
    Mirrors ((i.watched n).afterCompletion call res error) (i.afterCompletion call res error) Eq :=
  .watched _ _

private theorem Handler.run_mirrors (h : Handler σ) (req : Request) (res : Response) :
    Mirrors (h.watched.run req res) (h.run req res) Eq := .watched _ _

namespace Chain

private theorem placed_numbered (es : List (Nat × Interceptor σ)) :
    placed (es.map (·.2)) = es.zipIdx.map fun p => (p.2, p.1.2) := by
  rw [placed, List.zipIdx_map, List.map_map]
  rfl

private theorem placed_watched (es : List (Nat × Interceptor σ)) :
    placed (es.map fun e => e.2.watched e.1) =
      es.zipIdx.map fun p => (p.2, p.1.2.watched p.1.1) := by
  rw [placed, List.zipIdx_map, List.map_map]
  rfl

private theorem completeEach_mirrors (call : Call) (error : Option DispatchError)
    (l : List ((Nat × Interceptor σ) × Nat)) (res : Response) :
    Mirrors (completeEach call error (l.map fun p => (p.2, p.1.2.watched p.1.1)) res)
      (completeEach call error (l.map fun p => (p.2, p.1.2)) res) Eq := by
  induction l generalizing res with
  | nil => exact .pure rfl
  | cons p l ih =>
    rw [List.map_cons, List.map_cons, completeEach, completeEach]
    apply Mirrors.bind (p.1.2.afterCompletion_mirrors p.1.1 call res error)
    rintro ⟨answer, res⟩ _ rfl
    cases answer with
    | ok => exact ih res
    | error e => exact .emit_bind (ih res)

/-- A phase leaves the one chain as the watched form of the other, with its interceptors. -/
def Kept (c : Chain σ) (es : List (Nat × Interceptor σ)) (c₁' : Chain (Watched σ))
    (c₁ : Chain σ) : Prop :=
  c₁' = c₁.watched es ∧ c₁.interceptors = c.interceptors

variable {c : Chain σ} {es : List (Nat × Interceptor σ)}

private theorem complete_mirrors (hes : c.interceptors = es.map (·.2)) (req : Request)
    (res : Response) (error : Option DispatchError) :
    Mirrors ((c.watched es).complete req res error) (c.complete req res error)
      fun x' x => c.Kept es x'.1 x.1 ∧ x'.2 = x.2 := by
  by_cases h : c.AtRest
  · rw [complete_of_atRest h, complete_of_atRest (c := c.watched es) h]
    exact .pure ⟨⟨rfl, rfl⟩, rfl⟩
  · have hwalk := completeEach_mirrors (c.call req) error
      (es.take (reach c.cursor)).zipIdx.reverse res
    rw [List.map_reverse, List.map_reverse, ← placed_watched, ← placed_numbered, List.map_take,
      List.map_take, ← hes, ← completed_of_cursorAt (cursorAt_reach c.cursor).symm] at hwalk
    have hcompleted := completed_of_cursorAt (c := c.watched es) (cursorAt_reach c.cursor).symm
    rw [complete_of_not_atRest h, complete_of_not_atRest (c := c.watched es) h, hcompleted]
    apply Mirrors.bind hwalk
    rintro res _ rfl
    exact .pure ⟨⟨rfl, rfl⟩, rfl⟩

/-- Walks before the handler that ended alike. -/
inductive PreResult.Like : PreResult (Watched σ) → PreResult σ → Prop where
  | passed : Like .passed .passed
  | refused {place n : Nat} {i : Interceptor σ} :
      Like (.refused place (i.watched n)) (.refused place i)
  | failed {place n : Nat} {i : Interceptor σ} {e : DispatchError} :
      Like (.failed place (i.watched n) e) (.failed place i e)

private theorem preHandleEach_mirrors (call : Call) (l : List ((Nat × Interceptor σ) × Nat))
    (cursor : Option Nat) (res : Response) :
    Mirrors (preHandleEach call (l.map fun p => (p.2, p.1.2.watched p.1.1)) cursor res)
      (preHandleEach call (l.map fun p => (p.2, p.1.2)) cursor res)
      fun x' x => x'.1.Like x.1 ∧ x'.2 = x.2 := by
  induction l generalizing cursor res with
  | nil => exact .pure ⟨.passed, rfl⟩
  | cons p l ih =>
    rw [List.map_cons, List.map_cons, preHandleEach, preHandleEach]
    apply Mirrors.bind (p.1.2.preHandle_mirrors p.1.1 call res)
    rintro ⟨answer, res⟩ _ rfl
    cases answer with
    | error e => exact .pure ⟨.failed, rfl⟩
    | ok passes =>
      cases passes with
      | false => exact .pure ⟨.refused, rfl⟩
      | true => exact ih _ _

private theorem preHandle_mirrors (hes : c.interceptors = es.map (·.2)) (req : Request)
    (res : Response) :
    Mirrors ((c.watched es).preHandle req res) (c.preHandle req res)
      fun x' x => c.Kept es x'.2.1 x.2.1 := by
  have hwalk := preHandleEach_mirrors (c.call req) es.zipIdx c.cursor res
  rw [← placed_watched, ← placed_numbered, ← hes] at hwalk
  rw [preHandle, preHandle]
  apply Mirrors.bind hwalk
  rintro ⟨result', cursor, res⟩ ⟨result, _⟩ ⟨hlike, rfl⟩
  have stop (error : Option DispatchError) := complete_mirrors
    (c := { c with cursor, state := .shortCircuited }) hes req res error
  cases hlike with
  | passed => exact .pure ⟨rfl, rfl⟩
  | refused | failed =>
    apply Mirrors.emit_bind
    apply Mirrors.bind (stop _)
    rintro ⟨c', res⟩ ⟨c₁, _⟩ ⟨hkept, rfl⟩
    exact .pure hkept

private theorem invoke_mirrors (req : Request) (res : Response) :
    Mirrors ((c.watched es).invoke req res) (c.invoke req res)
      fun x' x => c.Kept es x'.2.1 x.2.1 := by
  rw [invoke, invoke]
  apply Mirrors.bind (c.handler.run_mirrors req res)
  rintro ⟨answer, res⟩ _ rfl
  exact .pure ⟨rfl, rfl⟩

private theorem postHandleEach_mirrors (call : Call) (es : List (Nat × Interceptor σ))
    (res : Response) (shown : Option ModelAndView) :
    Mirrors (postHandleEach call (es.map fun e => e.2.watched e.1) res shown)
      (postHandleEach call (es.map (·.2)) res shown) Eq := by
  induction es generalizing res shown with
  | nil => exact .pure rfl
  | cons e es ih =>
    rw [List.map_cons, List.map_cons, postHandleEach, postHandleEach]
    apply Mirrors.bind (e.2.postHandle_mirrors e.1 call res shown)
    rintro ⟨answer, res, shown⟩ _ rfl
    cases answer with
    | ok => exact ih res shown
    | error e => exact .pure rfl

private theorem postHandle_mirrors (hes : c.interceptors = es.map (·.2)) (req : Request)
    (res : Response) (shown : Option ModelAndView) :
    Mirrors ((c.watched es).postHandle req res shown) (c.postHandle req res shown)
      fun x' x => c.Kept es x'.2.1 x.2.1 := by
  have hwalk := postHandleEach_mirrors (c.call req) es.reverse res shown
  rw [List.map_reverse, List.map_reverse, ← hes] at hwalk
  rw [postHandle, postHandle]
  apply Mirrors.bind hwalk
  rintro ⟨answer, res, shown⟩ _ rfl
  exact .pure ⟨rfl, rfl⟩

private theorem notifyEach_mirrors (call : Call) (l : List ((Nat × Interceptor σ) × Nat))
    (res : Response) :
    Mirrors (notifyEach call (l.map fun p => (p.2, p.1.2.watched p.1.1)) res)
      (notifyEach call (l.map fun p => (p.2, p.1.2)) res) Eq := by
  induction l generalizing res with
  | nil => exact .pure rfl
  | cons p l ih =>
    rw [List.map_cons, List.map_cons, notifyEach, notifyEach]
    dsimp only [Interceptor.watched]
    cases p.1.2.asyncStarted with
    | none => exact ih res
    | some started =>
      apply Mirrors.bind (.watched _ _)
      rintro ⟨answer, res⟩ _ rfl
      cases answer with
      | ok => exact ih res
      | error e => exact .emit_bind (ih res)

private theorem notifyAsync_mirrors (hes : c.interceptors = es.map (·.2)) (req : Request)
    (res : Response) :
    Mirrors ((c.watched es).notifyAsync req res) (c.notifyAsync req res)
      fun x' x => c.Kept es x'.1 x.1 := by
  have hwalk := notifyEach_mirrors (c.call req) es.zipIdx.reverse res
  rw [List.map_reverse, List.map_reverse, ← placed_watched, ← placed_numbered, ← hes] at hwalk
  by_cases h : c.state = .asyncStarted ∧ c.asyncNotified = false
  · rw [notifyAsync, notifyAsync, if_neg (by simp [Chain.watched, h]), if_neg (by simp [h])]
    apply Mirrors.bind hwalk
    rintro res _ rfl
    exact .pure ⟨rfl, rfl⟩
  · have htold : c.state ≠ .asyncStarted ∨ c.asyncNotified = true := by
      rwa [not_and_or, Bool.not_eq_false] at h
    rw [notifyAsync_of_told htold, notifyAsync_of_told (c := c.watched es) htold]
    exact .pure ⟨rfl, rfl⟩

/-- Any operation on a watched chain is the operation itself. -/
private theorem perform_mirrors (hes : c.interceptors = es.map (·.2)) (op : Operation σ) :
    Mirrors ((op.watched es.length).perform (c.watched es)) (op.perform c) fun c₁' c₁ =>
      c₁' = c₁.watched (op.enter es) ∧ c₁.interceptors = (op.enter es).map (·.2) := by
  have kept (c₁' : Chain (Watched σ)) (c₁ : Chain σ) (h : c.Kept es c₁' c₁) :
      c₁' = c₁.watched es ∧ c₁.interceptors = es.map (·.2) := ⟨h.1, h.2.trans hes⟩
  cases op with
  | preHandle req res => exact (preHandle_mirrors hes req res).map fun _ _ => kept _ _
  | invoke req res => exact (invoke_mirrors req res).map fun _ _ => kept _ _
  | postHandle req res shown => exact (postHandle_mirrors hes req res shown).map fun _ _ => kept _ _
  | notifyAsync req res => exact (notifyAsync_mirrors hes req res).map fun _ _ => kept _ _
  | complete req res error =>
    exact (complete_mirrors hes req res error).map fun _ _ h => kept _ _ h.1
  | add i =>
    apply Mirrors.pure
    simp [Chain.watched, Chain.add, Operation.enter, hes]
  | insert place i =>
    apply Mirrors.pure
    simp [Chain.watched, Chain.insert, Operation.enter, hes, List.map_take, List.map_drop]

/-- Any operations on a watched chain are the operations themselves, and its interceptors have the
numbers of their registration. -/
theorem watchAll_enters (hes : c.interceptors = es.map (·.2)) (ops : List (Operation σ)) :
    Mirrors (watchAll ops (c.watched es)) (performAll ops c) fun c₁' c₁ =>
      c₁' = c₁.watched (Operation.enterAll ops es) ∧
        c₁.interceptors = (Operation.enterAll ops es).map (·.2) := by
  induction ops generalizing c es with
  | nil => exact .pure ⟨rfl, hes⟩
  | cons op ops ih =>
    rw [watchAll, performAll, List.foldlM_cons, List.foldlM_cons]
    have first := perform_mirrors hes op
    rw [← List.length_map fun e => e.2.watched e.1] at first
    apply Mirrors.bind first
    rintro _ c₁ ⟨rfl, hes₁⟩
    exact ih hes₁

theorem watchAll_mirrors (hes : c.interceptors = es.map (·.2)) (ops : List (Operation σ)) :
    Mirrors (watchAll ops (c.watched es)) (performAll ops c) fun c₁' c₁ =>
      ∃ es₁, c₁' = c₁.watched es₁ ∧ c₁.interceptors = es₁.map (·.2) :=
  fun w => ⟨⟨_, (watchAll_enters hes ops w).1⟩, (watchAll_enters hes ops w).2⟩

end Chain

private theorem Act.log_watched (a : Act σ α) (entry : α → Callback) {w w' : World (Watched σ)}
    {x : α} (run : (a.watched entry).run w = (x, w')) : w'.log = w.log ++ [entry x] := by
  cases run
  rfl

section

variable {d : Dispatcher (Watched σ)} {h : Handler σ} {es : List (Nat × Interceptor σ)}
  {s s' : Scene (Watched σ)}

private theorem Calls.log_eq {b : Callback} (hb : b.isRecorded)
    (hcall : Calls d h.watched (es.map fun e => e.2.watched e.1) b s s') :
    s'.world.log = s.world.log ++ [b.under (es.map (·.1))] := by
  have entry {place : Nat} {i : Interceptor (Watched σ)}
      (here : (es.map fun e => e.2.watched e.1)[place]? = some i) :
      ∃ e : Nat × Interceptor σ, (es.map (·.1)).getD place 0 = e.1 ∧ i = e.2.watched e.1 := by
    rw [List.getElem?_map] at here
    obtain ⟨e, he, rfl⟩ := Option.map_eq_some_iff.mp here
    refine ⟨e, ?_, rfl⟩
    rw [List.getD_eq_getElem?_getD, List.getElem?_map, he]
    rfl
  cases hcall with
  | noView | unresolved | rendered => cases hb
  | handle run => exact Act.log_watched (h.run _ _) (fun x => .handle x.1) run
  | pre here run =>
    obtain ⟨e, hnumber, rfl⟩ := entry here
    rw [Callback.under, hnumber]
    exact Act.log_watched (e.2.preHandle _ _) (fun x => .pre e.1 x.1) run
  | post here run =>
    obtain ⟨e, hnumber, rfl⟩ := entry here
    rw [Callback.under, hnumber]
    exact Act.log_watched (e.2.postHandle _ _ _) (fun x => .post e.1 x.1) run
  | @after _ _ _ error _ _ _ here run =>
    obtain ⟨e, hnumber, rfl⟩ := entry here
    rw [Callback.under, hnumber]
    exact Act.log_watched (e.2.afterCompletion _ _ _) (fun _ => .after e.1 error) run
  | handOff here hi run =>
    obtain ⟨e, hnumber, rfl⟩ := entry here
    obtain ⟨started, -, rfl⟩ := Option.map_eq_some_iff.mp hi
    rw [Callback.under, hnumber]
    exact Act.log_watched (started _ _) (fun _ => .handOff e.1) run

private theorem Performs.log_eq {t : List Callback} (ht : ∀ b ∈ t, b.isRecorded)
    (h : Performs d h.watched (es.map fun e => e.2.watched e.1) t s s') :
    s'.world.log = s.world.log ++ t.map (Callback.under (es.map (·.1))) := by
  induction h with
  | done => simp
  | report e _ ih => exact ih ht
  | @call b t s s₁ s' first _ ih =>
    rw [ih fun b hb => ht b (List.mem_cons_of_mem _ hb), first.log_eq (ht b List.mem_cons_self),
      List.append_assoc]
    rfl

end

namespace Chain

theorem Took.isRecorded {c c' : Chain σ} {op : Operation σ} {t : List Callback}
    (took : Took c op t c') : ∀ b ∈ t, b.isRecorded := by
  intro b hb
  have hmakes := took.makes b hb
  cases b with
  | view => cases op <;> cases hmakes
  | _ => rfl

variable {c : Chain σ} {es : List (Nat × Interceptor σ)}

private theorem perform_watched (hreach : reach c.cursor ≤ es.length) (op : Operation σ)
    (w : World (Watched σ)) : ∃ t,
      Took (c.watched es) (op.watched es.length) t
        (((op.watched es.length).perform (c.watched es)).run w).1 ∧
      (((op.watched es.length).perform (c.watched es)).run w).2.log =
        w.log ++ t.map (Callback.under (es.map (·.1))) := by
  have hreach' : reach (c.watched es).cursor ≤ (c.watched es).interceptors.length := by
    rwa [Chain.watched, List.length_map]
  -- a chain calls no views, so that any dispatcher will do for the account
  obtain ⟨s, rfl, t, s', ht, hworld, took⟩ :=
    perform_took hreach' {} (op.watched es.length) w
  refine ⟨t, took, ?_⟩
  rw [hworld]
  exact Performs.log_eq took.isRecorded ht

variable {P : Operation σ → Chain σ → Prop}
  {P' : Operation (Watched σ) → Chain (Watched σ) → Prop}

/-- A watched run is part of the life of the watched chain. -/
theorem watchAll_life (hP : ∀ op c es n, P op c → P' (op.watched n) (c.watched es))
    (hes : c.interceptors = es.map (·.2)) {ops : List (Operation σ)} {w : World (Watched σ)}
    (before : Life P' (c.watched es) (es.map (·.1)) w.log)
    (hops : Throughout P ops c w.unwatched) :
    Life P' ((watchAll ops (c.watched es)).run w).1 ((Operation.enterAll ops es).map (·.1))
      ((watchAll ops (c.watched es)).run w).2.log := by
  induction ops generalizing c es w with
  | nil => exact before
  | cons op ops ih =>
    obtain ⟨hop, hrest⟩ := hops
    have hreach : reach c.cursor ≤ es.length := by
      simpa [Chain.watched] using before.orderly.reach
    obtain ⟨t, took, hlog⟩ := perform_watched hreach op w
    obtain ⟨⟨hc₁, hes₁⟩, hworld⟩ := perform_mirrors hes op w
    have after := before.step (hP op c es es.length hop) took
    rw [Operation.enrol_watched, ← Operation.map_fst_enter, ← hlog, hc₁] at after
    rw [← hworld] at hrest
    have hfirst : (watchAll (op :: ops) (c.watched es)).run w =
        (watchAll ops (((op.watched es.length).perform (c.watched es)).run w).1).run
          (((op.watched es.length).perform (c.watched es)).run w).2 := by
      rw [watchAll, List.foldlM_cons, Chain.watched, List.length_map]
      rfl
    rw [hfirst, hc₁]
    exact ih hes₁ after hrest

end Chain

end Switchyard
