import Mathlib.Data.List.Basic
import Mathlib.Data.List.Nodup
import Switchyard.Proofs.Dispatch.Phases
/-!
# Operations on a chain

Whoever holds a chain may run its phases in any order, complete it, and put interceptors into it at
any time. `Took` says once what such an operation can do; a `Life` is what any number of them come
to, with the calls that were made on the way. As places change when an interceptor is put between
others, calls are told apart by numbers that interceptors keep: those of their registration.
-/

namespace Switchyard

variable {σ : Type}

/-- A call of a function of a chain that may change it. -/
inductive Operation (σ : Type) where
  | preHandle (req : Request) (res : Response)
  | invoke (req : Request) (res : Response)
  | postHandle (req : Request) (res : Response) (shown : Option ModelAndView)
  | notifyAsync (req : Request) (res : Response)
  | complete (req : Request) (res : Response) (error : Option DispatchError)
  | add (i : Interceptor σ)
  | insert (place : Nat) (i : Interceptor σ)

namespace Operation

def perform (c : Chain σ) : Operation σ → Act σ (Chain σ)
  | preHandle req res => (·.2.1) <$> c.preHandle req res
  | invoke req res => (·.2.1) <$> c.invoke req res
  | postHandle req res shown => (·.2.1) <$> c.postHandle req res shown
  | notifyAsync req res => (·.1) <$> c.notifyAsync req res
  | complete req res error => (·.1) <$> c.complete req res error
  | add i => pure (c.add i)
  | insert place i => pure (c.insert place i)

/-- The numbers of the interceptors after the operation; a new one is given the next number. -/
def enrol (nums : List Nat) : Operation σ → List Nat
  | add _ => nums ++ [nums.length]
  | insert place _ => nums.take place ++ nums.length :: nums.drop place
  | _ => nums

def makes : Operation σ → Callback → Bool
  | preHandle .., .pre .. | preHandle .., .after .. => true
  | invoke .., .handle _ => true
  | postHandle .., .post .. => true
  | notifyAsync .., .handOff _ => true
  | complete .., .after .. => true
  | _, _ => false

end Operation

namespace Chain

def performAll (ops : List (Operation σ)) (c : Chain σ) : Act σ (Chain σ) :=
  ops.foldlM (fun c op => op.perform c) c

/-- Each operation meets a condition on the chain that it is performed on. -/
def Throughout (P : Operation σ → Chain σ → Prop) :
    List (Operation σ) → Chain σ → World σ → Prop
  | [], _, _ => True
  | op :: ops, c, w => P op c ∧
      Throughout P ops ((op.perform c).run w).1 ((op.perform c).run w).2

/-- The calls of an operation, by places, and the chain that it leaves. -/
inductive Took (c : Chain σ) : Operation σ → List Callback → Chain σ → Prop where
  | passed {req : Request} {res : Response} :
      Took c (.preHandle req res) (Callback.passed 0 c.interceptors.length)
        { c with cursor := c.cursorPast c.interceptors.length, state := .preHandling }
  | stopped {req : Request} {res : Response} {k : Nat} {answer : Except DispatchError Bool}
      {error : Option DispatchError} (hk : k < c.interceptors.length) (ha : answer ≠ .ok true) :
      Took c (.preHandle req res)
        (Callback.passed 0 k ++
          .pre k answer :: Callback.completed (reach (c.cursorPast k)) error)
        { c with cursor := c.cursorPast k, state := .done }
  | invoked {req : Request} {res : Response} {answer : Except DispatchError Outcome} :
      Took c (.invoke req res) [.handle answer] { c with state := stateAfter answer }
  | posted {req : Request} {res : Response} {shown : Option ModelAndView} {t : List Callback}
      {answer : Except DispatchError Unit} (ht : PostWalked c.interceptors.length t answer) :
      Took c (.postHandle req res shown) t { c with state := .postHandling }
  | notified {req : Request} {res : Response} (hstate : c.state = .asyncStarted)
      (hnew : c.asyncNotified = false) :
      Took c (.notifyAsync req res) (Callback.handedOff c.interceptors)
        { c with asyncNotified := true }
  | unnotified {req : Request} {res : Response}
      (h : c.state ≠ .asyncStarted ∨ c.asyncNotified = true) : Took c (.notifyAsync req res) [] c
  | completed {req : Request} {res : Response} {error : Option DispatchError}
      (h : ¬ c.AtRest) :
      Took c (.complete req res error) (Callback.completed (reach c.cursor) error)
        { c with state := .done }
  | rested {req : Request} {res : Response} {error : Option DispatchError} (h : c.AtRest) :
      Took c (.complete req res error) [] c
  | added {i : Interceptor σ} : Took c (.add i) [] (c.add i)
  | inserted {place : Nat} {i : Interceptor σ} :
      Took c (.insert place i) [] (c.insert place i)

theorem Took.makes {c c' : Chain σ} {op : Operation σ} {t : List Callback}
    (took : Took c op t c') : ∀ b ∈ t, op.makes b := by
  have hmap {γ : Type} {f : γ → Callback} {op : Operation σ} (hf : ∀ x, op.makes (f x))
      (l : List γ) : ∀ b ∈ l.map f, op.makes b := List.forall_mem_map.mpr fun x _ => hf x
  cases took with
  | passed | notified | completed => exact hmap (fun _ => rfl) _
  | stopped =>
    rw [List.forall_mem_append, List.forall_mem_cons]
    exact ⟨hmap (fun _ => rfl) _, rfl, hmap (fun _ => rfl) _⟩
  | invoked =>
    rw [List.forall_mem_singleton]
    rfl
  | @posted _ _ _ t answer ht =>
    cases answer with
    | ok =>
      rw [show t = _ from ht]
      exact hmap (fun _ => rfl) _
    | error e =>
      obtain ⟨j, -, rfl⟩ := ht
      rw [List.forall_mem_append, List.forall_mem_singleton]
      exact ⟨hmap (fun _ => rfl) _, rfl⟩
  | unnotified | rested | added | inserted => simp

theorem Asked.took {c c' : Chain σ} {t : List Callback} {answer : Except DispatchError Bool}
    (h : c.Asked t answer c') (req : Request) (res : Response) :
    Took c (.preHandle req res) t c' := by
  cases answer with
  | error e =>
    obtain ⟨k, hk, rfl, rfl⟩ := h
    exact .stopped hk (by simp)
  | ok passes =>
    cases passes with
    | false =>
      obtain ⟨k, hk, rfl, rfl⟩ := h
      exact .stopped hk (by simp)
    | true =>
      obtain ⟨rfl, rfl⟩ := h
      exact .passed

theorem notifyAsync_of_told {c : Chain σ} (h : c.state ≠ .asyncStarted ∨ c.asyncNotified = true)
    (req : Request) (res : Response) : c.notifyAsync req res = pure (c, res) := by
  rw [notifyAsync, if_pos]
  rcases h with hstate | htold
  · simp [hstate]
  · simp [htold]

/-- Whatever the callbacks answer, an operation takes one of these steps. -/
theorem perform_took {c : Chain σ} (hc : reach c.cursor ≤ c.interceptors.length)
    (d : Dispatcher σ) (op : Operation σ) (w : World σ) : ∃ s : Scene σ, s.world = w ∧
      Does d c.handler c.interceptors s (op.perform c) fun c' t _ => Took c op t c' := by
  cases op with
  | preHandle req res =>
    refine ⟨⟨w, ⟨req, res⟩, none⟩, rfl, Does.map ((preHandle_asks hc _).mono ?_)⟩
    intro x t s' hx
    exact hx.1.took req res
  | invoke req res =>
    refine ⟨⟨w, ⟨req, res⟩, none⟩, rfl, Does.map ((invoke_does c _).mono ?_)⟩
    intro x t s' hx
    obtain ⟨rfl, hc', -⟩ := hx
    rw [hc']
    exact .invoked
  | postHandle req res shown =>
    refine ⟨⟨w, ⟨req, res⟩, shown⟩, rfl, Does.map ((postHandle_does c _).mono ?_)⟩
    intro x t s' hx
    obtain ⟨hwalk, hc', -⟩ := hx
    rw [hc']
    exact .posted hwalk
  | notifyAsync req res =>
    by_cases h : c.state = .asyncStarted ∧ c.asyncNotified = false
    · refine ⟨⟨w, ⟨req, res⟩, none⟩, rfl, Does.map ((notifyAsync_does h.1 h.2 _).mono ?_)⟩
      intro x t s' hx
      obtain ⟨rfl, hc', -⟩ := hx
      rw [hc']
      exact .notified h.1 h.2
    · have htold : c.state ≠ .asyncStarted ∨ c.asyncNotified = true := by
        rwa [not_and_or, Bool.not_eq_false] at h
      refine ⟨⟨w, ⟨req, res⟩, none⟩, rfl, ?_⟩
      rw [Operation.perform, notifyAsync_of_told htold]
      exact Does.map (.pure (.unnotified htold))
  | complete req res error =>
    by_cases h : c.AtRest
    · refine ⟨⟨w, ⟨req, res⟩, none⟩, rfl, ?_⟩
      rw [Operation.perform, complete_of_atRest h]
      exact Does.map (.pure (.rested h))
    · refine ⟨⟨w, ⟨req, res⟩, none⟩, rfl, Does.map ((complete_ends hc h error _).mono ?_)⟩
      intro x t s' hx
      obtain ⟨hc', rfl, -⟩ := hx
      rw [hc']
      exact .completed h
  | add i => exact ⟨⟨w, ⟨default, {}⟩, none⟩, rfl, .pure .added⟩
  | insert place i => exact ⟨⟨w, ⟨default, {}⟩, none⟩, rfl, .pure .inserted⟩

end Chain

/-- The same call, with the number of the interceptor instead of its place. -/
def Callback.under (nums : List Nat) : Callback → Callback
  | pre place answer => pre (nums.getD place 0) answer
  | post place answer => post (nums.getD place 0) answer
  | after place error => after (nums.getD place 0) error
  | handOff place => handOff (nums.getD place 0)
  | handle answer => handle answer
  | view ref answer => view ref answer

theorem map_getD_range {nums : List Nat} {n : Nat} (hn : n ≤ nums.length) :
    (List.range n).map (nums.getD · 0) = nums.take n := by
  apply List.ext_getElem
  · rw [List.length_map, List.length_range, List.length_take, Nat.min_eq_left hn]
  · intro k hk hk'
    have hlt : k < nums.length := by
      rw [List.length_map, List.length_range] at hk
      exact Nat.lt_of_lt_of_le hk hn
    simp [hlt]

theorem map_under_passed {nums : List Nat} {k : Nat} (hk : k ≤ nums.length) :
    (Callback.passed 0 k).map (Callback.under nums) =
      (nums.take k).map (Callback.pre · (.ok true)) := by
  rw [← map_getD_range hk, Callback.passed, List.drop_zero, List.map_map, List.map_map]
  rfl

theorem map_under_completed {nums : List Nat} {n : Nat} (hn : n ≤ nums.length)
    (error : Option DispatchError) :
    (Callback.completed n error).map (Callback.under nums) =
      (nums.take n).reverse.map (Callback.after · error) := by
  rw [← map_getD_range hn, Callback.completed, ← List.map_reverse, List.map_map, List.map_map]
  rfl

namespace Chain

/-- Chains that operations under a condition make of a new one, with the numbers of their
interceptors and the calls that were made. -/
inductive Life (P : Operation σ → Chain σ → Prop) :
    Chain σ → List Nat → List Callback → Prop where
  | start (h : Handler σ) (is : List (Interceptor σ)) :
      Life P { handler := h, interceptors := is } (List.range is.length) []
  | step {c c' : Chain σ} {nums : List Nat} {log t : List Callback} {op : Operation σ}
      (before : Life P c nums log) (hop : P op c) (took : Took c op t c') :
      Life P c' (op.enrol nums) (log ++ t.map (Callback.under nums))

/-- The numbers of the interceptors are those below their count, each once, and the cursor lies
among the interceptors. -/
structure Orderly (c : Chain σ) (nums : List Nat) : Prop where
  length : nums.length = c.interceptors.length
  perm : nums.Perm (List.range nums.length)
  reach : reach c.cursor ≤ nums.length

theorem Orderly.nodup {c : Chain σ} {nums : List Nat} (h : c.Orderly nums) : nums.Nodup :=
  h.perm.nodup_iff.mpr List.nodup_range

theorem Orderly.step {c c' : Chain σ} {nums : List Nat} {op : Operation σ} {t : List Callback}
    (h : c.Orderly nums) (took : Took c op t c') : c'.Orderly (op.enrol nums) := by
  obtain ⟨hlength, hperm, hreach⟩ := h
  have past {k : Nat} (hk : k ≤ c.interceptors.length) :
      Chain.reach (c.cursorPast k) ≤ nums.length :=
    reach_cursorPast_le (hlength ▸ hk) hreach
  cases took with
  | passed => exact ⟨hlength, hperm, past (Nat.le_refl _)⟩
  | stopped hk => exact ⟨hlength, hperm, past (Nat.le_of_lt hk)⟩
  | invoked | posted | notified | unnotified | completed | rested =>
    exact ⟨hlength, hperm, hreach⟩
  | added =>
    refine ⟨by simp [Operation.enrol, Chain.add, hlength], ?_, ?_⟩
    · rw [Operation.enrol, List.length_append, List.length_singleton, List.range_succ]
      exact hperm.append_right _
    · rw [Operation.enrol, List.length_append]
      exact Nat.le_add_right_of_le hreach
  | @inserted place i =>
    have hmiddle : (nums.take place ++ nums.length :: nums.drop place).Perm
        (nums.length :: nums) := by
      have hswap : (nums.take place ++ nums.length :: nums.drop place).Perm
          (nums.length :: (nums.take place ++ nums.drop place)) := List.perm_middle
      rwa [List.take_append_drop] at hswap
    have hcount : (nums.take place ++ nums.length :: nums.drop place).length =
        nums.length + 1 := hmiddle.length_eq
    refine ⟨?_, ?_, ?_⟩
    · have hlist := congrArg List.length (List.take_append_drop place c.interceptors)
      rw [List.length_append] at hlist
      rw [Operation.enrol, hcount, Chain.insert, List.length_append, List.length_cons]
      omega
    · rw [Operation.enrol, hcount, List.range_succ]
      apply hmiddle.trans
      apply (List.Perm.cons _ hperm).trans
      exact (List.perm_append_singleton _ _).symm
    · rw [Operation.enrol, hcount]
      exact Nat.le_succ_of_le hreach

theorem Life.orderly {P : Operation σ → Chain σ → Prop} {c : Chain σ} {nums : List Nat}
    {log : List Callback} (h : Life P c nums log) : c.Orderly nums := by
  induction h with
  | start h is => exact ⟨List.length_range, by rw [List.length_range], Nat.zero_le _⟩
  | step _ _ took ih => exact ih.step took

end Chain

end Switchyard
