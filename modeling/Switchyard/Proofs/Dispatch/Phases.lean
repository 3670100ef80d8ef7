import Switchyard.Proofs.Dispatch.Calls
/-!
# The phases of a chain

The calls that each phase of an execution chain makes. The walk before the handler ends with the
first interceptor that does not let the request pass, the walk behind it with the first that fails,
and completion and the news of background work reach all that they are for, whatever these answer.
-/

namespace Switchyard

variable {σ : Type} {d : Dispatcher σ} {h : Handler σ} {is : List (Interceptor σ)}

namespace Callback

/-- The interceptors from place `k` up to place `n` let the request pass. -/
def passed (k n : Nat) : List Callback := ((List.range n).drop k).map (.pre · (.ok true))

/-- The interceptors below place `n` run after the handler, down to place `k`. -/
def posted (n k : Nat) : List Callback := ((List.range n).drop k).reverse.map (.post · (.ok ()))

/-- The first `n` interceptors see the end of the request, the last of them first. -/
def completed (n : Nat) (error : Option DispatchError) : List Callback :=
  (List.range n).reverse.map (.after · error)

/-- The interceptors that want to know hear of background work, the last of them first. -/
def handedOff (is : List (Interceptor σ)) : List Callback :=
  ((Chain.placed is).reverse.filter (·.2.isAsyncCapable)).map (.handOff ·.1)

private theorem passed_cons {k n : Nat} (hk : k < n) :
    passed k n = .pre k (.ok true) :: passed (k + 1) n := by
  have hdrop : (List.range n).drop k = k :: (List.range n).drop (k + 1) := by
    rw [List.drop_eq_getElem_cons (by simpa using hk), List.getElem_range]
  rw [passed, hdrop]
  rfl

@[simp] theorem passed_self (n : Nat) : passed n n = [] := by
  rw [passed, List.drop_eq_nil_of_le (by simp)]
  rfl

theorem posted_succ {n k : Nat} (hk : k ≤ n) :
    posted (n + 1) k = .post n (.ok ()) :: posted n k := by
  rw [posted, List.range_succ, List.drop_append_of_le_length (by simpa using hk), List.reverse_append]
  rfl

@[simp] theorem posted_self (n : Nat) : posted n n = [] := by
  rw [posted, List.drop_eq_nil_of_le (by simp)]
  rfl

end Callback

namespace Chain

/-- The cursor when `n` interceptors have let the request pass. -/
def cursorAt : Nat → Option Nat
  | 0 => none
  | n + 1 => some n

/-- How many interceptors completion reaches from a cursor. -/
def reach : Option Nat → Nat
  | none => 0
  | some last => last + 1

@[simp] theorem cursorAt_reach (cursor : Option Nat) : cursorAt (reach cursor) = cursor := by
  cases cursor <;> rfl

@[simp] theorem reach_cursorAt (n : Nat) : reach (cursorAt n) = n := by
  cases n <;> rfl

/-- The cursor when one more walk let `k` interceptors pass the request on: without any it stays. -/
def cursorPast (c : Chain σ) (k : Nat) : Option Nat := (cursorAt k).or c.cursor

theorem reach_cursorPast_le {c : Chain σ} {k n : Nat} (hk : k ≤ n) (hc : reach c.cursor ≤ n) :
    reach (c.cursorPast k) ≤ n := by
  cases k with
  | zero => exact hc
  | succ k => exact hk

/-- The interceptors from place `k` on with their places. -/
def placedFrom (k : Nat) (l : List (Interceptor σ)) : List (Nat × Interceptor σ) :=
  (l.zipIdx k).map fun p => (p.2, p.1)

theorem getElem?_of_mem_placed {l : List (Interceptor σ)} {p : Nat × Interceptor σ}
    (hp : p ∈ placed l) : l[p.1]? = some p.2 := by
  obtain ⟨q, hq, rfl⟩ := List.mem_map.mp hp
  exact List.mem_zipIdx_iff_getElem?.mp hq

theorem map_fst_placed (l : List (Interceptor σ)) : (placed l).map (·.1) = List.range l.length := by
  rw [placed, List.map_map]
  change l.zipIdx.map Prod.snd = _
  rw [List.zipIdx_map_snd, List.range_eq_range']

theorem map_snd_placed (l : List (Interceptor σ)) : (placed l).map (·.2) = l := by
  rw [placed, List.map_map]
  exact List.zipIdx_map_fst 0 l

theorem completed_of_cursorAt {c : Chain σ} {n : Nat} (hc : c.cursor = cursorAt n) :
    c.completed = (placed (c.interceptors.take n)).reverse := by
  rw [Chain.completed, hc]
  cases n with
  | zero => rfl
  | succ n => rfl

private theorem completeEach_does (error : Option DispatchError) {l : List (Nat × Interceptor σ)}
    (hl : ∀ p ∈ l, is[p.1]? = some p.2) (s : Scene σ) :
    Does d h is s (completeEach (s.call h) error l s.response) fun res t s' =>
      t = l.map (fun p => .after p.1 error) ∧ ∃ w, s' = s.wrote w res := by
  induction l generalizing s with
  | nil => exact .pure ⟨rfl, s.world, rfl⟩
  | cons p l ih =>
    have hp : is[p.1]? = some p.2 := hl p (by simp)
    have ih := ih fun q hq => hl q (by simp [hq])
    rw [completeEach]
    apply Does.bind (p.2.afterCompletion_does hp error s)
    intro x t s₁ hx
    obtain ⟨answer, res⟩ := x
    obtain ⟨rfl, w, rfl⟩ := hx
    have rest (w : World σ) : Does d h is (s.wrote w res) (completeEach (s.call h) error l res)
        fun res u s' => [.after p.1 error] ++ u = (p :: l).map (fun p => .after p.1 error) ∧
          ∃ w, s' = s.wrote w res := by
      apply (ih (s.wrote w res)).mono
      intro res u s' hu
      rw [hu.1]
      exact ⟨rfl, hu.2⟩
    cases answer with
    | ok => exact rest w
    | error e => exact Does.emit_bind (rest (w.reported _))

def AtRest (c : Chain σ) : Prop :=
  c.state = .notStarted ∨ c.state = .completing ∨ c.state = .done

theorem complete_of_atRest {c : Chain σ} (h : c.AtRest) (req : Request) (res : Response)
    (error : Option DispatchError) : c.complete req res error = pure (c, res) := by
  rw [complete]
  rcases h with hstate | hstate | hstate <;> rw [hstate]

theorem complete_of_not_atRest {c : Chain σ} (h : ¬ c.AtRest) (req : Request) (res : Response)
    (error : Option DispatchError) : c.complete req res error =
      (completeEach (c.call req) error c.completed res >>= fun res =>
        pure ({ c with state := .done }, res)) := by
  rw [complete]
  cases hs : c.state with
  | notStarted => exact absurd (.inl hs) h
  | completing => exact absurd (.inr (.inl hs)) h
  | done => exact absurd (.inr (.inr hs)) h
  | _ => rfl

/-- A chain on its way completes the interceptors that it reaches from its cursor, the last first. -/
theorem complete_ends {c : Chain σ} (hc : reach c.cursor ≤ c.interceptors.length)
    (h : ¬ c.AtRest) (error : Option DispatchError) (s : Scene σ) :
    Does d c.handler c.interceptors s (c.complete s.request s.response error) fun x t s' =>
      x.1 = { c with state := .done } ∧ t = Callback.completed (reach c.cursor) error ∧
        ∃ w, s' = s.wrote w x.2 := by
  have hcompleted := completed_of_cursorAt (cursorAt_reach c.cursor).symm
  have hplaces : c.completed.map (fun p => Callback.after p.1 error) =
      Callback.completed (reach c.cursor) error := by
    have hlength : (c.interceptors.take (reach c.cursor)).length = reach c.cursor := by
      rw [List.length_take, Nat.min_eq_left hc]
    rw [hcompleted, List.map_reverse, Callback.completed, List.map_reverse]
    congr 1
    rw [← hlength, ← map_fst_placed, List.map_map, hlength]
    rfl
  have hmem : ∀ p ∈ c.completed, c.interceptors[p.1]? = some p.2 := by
    intro p hp
    rw [hcompleted, List.mem_reverse] at hp
    have h := getElem?_of_mem_placed hp
    rw [List.getElem?_take] at h
    split at h
    · exact h
    · exact absurd h (by simp)
  rw [complete_of_not_atRest h]
  apply Does.bind (completeEach_does error hmem s)
  intro res t s' hs
  apply Does.pure
  rw [List.append_nil, hs.1, hplaces]
  exact ⟨rfl, rfl, hs.2⟩

theorem complete_does {c : Chain σ} {n : Nat} (hc : c.cursor = cursorAt n)
    (hn : n ≤ c.interceptors.length)
    (hstate : c.state ≠ .notStarted ∧ c.state ≠ .completing ∧ c.state ≠ .done)
    (error : Option DispatchError) (s : Scene σ) :
    Does d c.handler c.interceptors s (c.complete s.request s.response error) fun x t s' =>
      t = Callback.completed n error ∧ ∃ w, s' = s.wrote w x.2 := by
  have hreach : reach c.cursor = n := by rw [hc, reach_cursorAt]
  have h : ¬ c.AtRest := by simpa [AtRest] using hstate
  apply (complete_ends (hreach ▸ hn) h error s).mono
  intro x t s' hx
  rw [hreach] at hx
  exact hx.2

/-- The calls of a walk before the handler that begins at place `k` of `n`. -/
def PreResult.Walked (k n : Nat) (cursor : Option Nat) (t : List Callback) : PreResult σ → Prop
  | .passed => cursor = cursorAt n ∧ t = Callback.passed k n
  | .refused j _ => k ≤ j ∧ j < n ∧ cursor = cursorAt j ∧ t = Callback.passed k j ++ [.pre j (.ok false)]
  | .failed j _ e => k ≤ j ∧ j < n ∧ cursor = cursorAt j ∧ t = Callback.passed k j ++ [.pre j (.error e)]

private theorem preHandleEach_does {l : List (Interceptor σ)} {k : Nat} (hl : is.drop k = l)
    (hk : k ≤ is.length) (s : Scene σ) :
    Does d h is s (preHandleEach (s.call h) (placedFrom k l) (cursorAt k) s.response)
      fun x t s' => x.1.Walked k is.length x.2.1 t ∧ ∃ w, s' = s.wrote w x.2.2 := by
  induction l generalizing k s with
  | nil =>
    have hn : k = is.length := Nat.le_antisymm hk (List.drop_eq_nil_iff.mp hl)
    apply Does.pure
    exact ⟨⟨by rw [hn], by rw [hn, Callback.passed_self]⟩, s.world, rfl⟩
  | cons i l ih =>
    have hlt : k < is.length := by
      apply Nat.lt_of_not_le
      intro hle
      rw [List.drop_eq_nil_of_le hle] at hl
      cases hl
    have hcons := List.drop_eq_getElem_cons hlt
    rw [hl] at hcons
    obtain ⟨hi, hrest⟩ := List.cons.inj hcons
    have here : is[k]? = some i := by rw [List.getElem?_eq_getElem hlt, hi]
    change Does d h is s (preHandleEach (s.call h) ((k, i) :: placedFrom (k + 1) l) _ _) _
    rw [preHandleEach]
    apply Does.bind (i.preHandle_does here s)
    intro x t s₁ hx
    obtain ⟨answer, res⟩ := x
    obtain ⟨rfl, w, rfl⟩ := hx
    cases answer with
    | error e =>
      apply Does.pure
      exact ⟨⟨Nat.le_refl k, hlt, rfl, by simp⟩, w, rfl⟩
    | ok passes =>
      cases passes with
      | false =>
        apply Does.pure
        exact ⟨⟨Nat.le_refl k, hlt, rfl, by simp⟩, w, rfl⟩
      | true =>
        apply (ih hrest.symm hlt (s.wrote w res)).mono
        intro x u s' hu
        obtain ⟨hwalk, hs'⟩ := hu
        refine ⟨?_, hs'⟩
        cases hresult : x.1 with
        | passed =>
          rw [hresult] at hwalk
          exact ⟨hwalk.1, by rw [hwalk.2, Callback.passed_cons hlt]; rfl⟩
        | refused j i' =>
          rw [hresult] at hwalk
          obtain ⟨hkj, hj, hcursor, hu⟩ := hwalk
          exact ⟨Nat.le_of_lt hkj, hj, hcursor, by rw [hu, Callback.passed_cons hkj]; rfl⟩
        | failed j i' e =>
          rw [hresult] at hwalk
          obtain ⟨hkj, hj, hcursor, hu⟩ := hwalk
          exact ⟨Nat.le_of_lt hkj, hj, hcursor, by rw [hu, Callback.passed_cons hkj]; rfl⟩

/-- What a chain of `n` interceptors has called when its walk before the handler is over. One that
ends early has been completed. -/
def PreHandled (c : Chain σ) (t : List Callback) : Except DispatchError Bool → Chain σ → Prop
  | .ok true, c' => t = Callback.passed 0 c.interceptors.length ∧
      c' = { c with cursor := cursorAt c.interceptors.length, state := .preHandling }
  | .ok false, _ => ∃ k < c.interceptors.length,
      t = Callback.passed 0 k ++ .pre k (.ok false) :: Callback.completed k none
  | .error e, _ => ∃ k < c.interceptors.length,
      t = Callback.passed 0 k ++ .pre k (.error e) :: Callback.completed k (some e)

/-- The cursor of a walk is that of one which begins without a cursor, if this sets one. -/
private theorem preHandleEach_cursor (call : Call) (l : List (Nat × Interceptor σ))
    (cursor : Option Nat) (res : Response) : preHandleEach call l cursor res =
      (fun x => (x.1, x.2.1.or cursor, x.2.2)) <$> preHandleEach call l none res := by
  induction l generalizing cursor res with
  | nil => rfl
  | cons p l ih =>
    rw [preHandleEach, preHandleEach, map_bind]
    congr 1
    funext x
    obtain ⟨answer, res⟩ := x
    cases answer with
    | error e => rfl
    | ok passes =>
      cases passes with
      | false => rfl
      | true =>
        dsimp only
        rw [ih (some p.1), Functor.map_map]
        congr 1
        funext y
        cases y.2.1 <;> rfl

/-- What a walk before the handler comes to, wherever the cursor was before. -/
def Asked (c : Chain σ) (t : List Callback) : Except DispatchError Bool → Chain σ → Prop
  | .ok true, c' => t = Callback.passed 0 c.interceptors.length ∧
      c' = { c with cursor := c.cursorPast c.interceptors.length, state := .preHandling }
  | .ok false, c' => ∃ k < c.interceptors.length,
      t = Callback.passed 0 k ++
        .pre k (.ok false) :: Callback.completed (reach (c.cursorPast k)) none ∧
      c' = { c with cursor := c.cursorPast k, state := .done }
  | .error e, c' => ∃ k < c.interceptors.length,
      t = Callback.passed 0 k ++
        .pre k (.error e) :: Callback.completed (reach (c.cursorPast k)) (some e) ∧
      c' = { c with cursor := c.cursorPast k, state := .done }

theorem preHandle_asks {c : Chain σ} (hc : reach c.cursor ≤ c.interceptors.length) (s : Scene σ) :
    Does d c.handler c.interceptors s (c.preHandle s.request s.response) fun x t s' =>
      c.Asked t x.1 x.2.1 ∧ ∃ w, s' = s.wrote w x.2.2 := by
  have stop (j : Nat) (hj : j < c.interceptors.length) (error : Option DispatchError)
      (s : Scene σ) := complete_ends (d := d)
    (c := { c with cursor := c.cursorPast j, state := .shortCircuited })
    (reach_cursorPast_le (Nat.le_of_lt hj) hc) (by simp [AtRest]) error s
  have walk := preHandleEach_does (d := d) (h := c.handler) (List.drop_zero (l := c.interceptors))
    (Nat.zero_le _) s
  rw [preHandle, preHandleEach_cursor, bind_map_left]
  apply Does.bind walk
  intro x t s₁ hx
  obtain ⟨result, cursor, res⟩ := x
  obtain ⟨hwalk, w, rfl⟩ := hx
  cases result with
  | passed =>
    obtain ⟨rfl, rfl⟩ := hwalk
    apply Does.pure
    exact ⟨⟨List.append_nil _, rfl⟩, w, rfl⟩
  | refused j i =>
    obtain ⟨-, hj, rfl, rfl⟩ := hwalk
    apply Does.emit_bind
    apply Does.bind (stop j hj none _)
    intro y u s₂ hy
    obtain ⟨c', res⟩ := y
    obtain ⟨rfl, rfl, w', rfl⟩ := hy
    apply Does.pure
    exact ⟨⟨j, hj, by simp, rfl⟩, w', rfl⟩
  | failed j i e =>
    obtain ⟨-, hj, rfl, rfl⟩ := hwalk
    apply Does.emit_bind
    apply Does.bind (stop j hj (some e) _)
    intro y u s₂ hy
    obtain ⟨c', res⟩ := y
    obtain ⟨rfl, rfl, w', rfl⟩ := hy
    apply Does.pure
    exact ⟨⟨j, hj, by simp, rfl⟩, w', rfl⟩

theorem preHandle_does {c : Chain σ} (hc : c.cursor = none) (s : Scene σ) :
    Does d c.handler c.interceptors s (c.preHandle s.request s.response) fun x t s' =>
      c.PreHandled t x.1 x.2.1 ∧ ∃ w, s' = s.wrote w x.2.2 := by
  have hpast (k : Nat) : c.cursorPast k = cursorAt k := by rw [cursorPast, hc, Option.or_none]
  have hreach : reach c.cursor ≤ c.interceptors.length := by
    rw [hc]
    exact Nat.zero_le _
  apply (preHandle_asks hreach s).mono
  intro x t s' hx
  obtain ⟨answer, c', res⟩ := x
  obtain ⟨hasked, hs'⟩ := hx
  refine ⟨?_, hs'⟩
  cases answer with
  | error e =>
    obtain ⟨k, hk, ht, -⟩ := hasked
    rw [hpast, reach_cursorAt] at ht
    exact ⟨k, hk, ht⟩
  | ok passes =>
    cases passes with
    | false =>
      obtain ⟨k, hk, ht, -⟩ := hasked
      rw [hpast, reach_cursorAt] at ht
      exact ⟨k, hk, ht⟩
    | true =>
      obtain ⟨ht, hc'⟩ := hasked
      rw [hpast] at hc'
      exact ⟨ht, hc'⟩

/-- Where a chain is after its handler answered. -/
def stateAfter : Except DispatchError Outcome → ChainState
  | .ok (.async _) => .asyncStarted
  | _ => .handlerInvoking

theorem invoke_does (c : Chain σ) (s : Scene σ) :
    Does d c.handler c.interceptors s (c.invoke s.request s.response) fun x t s' =>
      t = [.handle x.1] ∧ x.2.1 = { c with state := stateAfter x.1 } ∧
        ∃ w, s' = { s.wrote w x.2.2 with
          shown := (x.1.toOption.bind Outcome.shown?).map (d.named s.request) } := by
  rw [invoke]
  apply Does.bind (Handler.run_does s)
  intro x t s₁ hx
  obtain ⟨answer, res⟩ := x
  obtain ⟨rfl, w, rfl⟩ := hx
  apply Does.pure
  exact ⟨rfl, rfl, w, rfl⟩

/-- The calls of a walk after the handler through the first `k` interceptors. -/
def PostWalked (k : Nat) (t : List Callback) : Except DispatchError Unit → Prop
  | .ok () => t = Callback.posted k 0
  | .error e => ∃ j < k, t = Callback.posted k (j + 1) ++ [.post j (.error e)]

private theorem postHandleEach_does {k : Nat} (hk : k ≤ is.length) (s : Scene σ) :
    Does d h is s (postHandleEach (s.call h) (is.take k).reverse s.response s.shown)
      fun x t s' => PostWalked k t x.1 ∧ ∃ w, s' = { s.wrote w x.2.1 with shown := x.2.2 } := by
  induction k generalizing s with
  | zero => exact .pure ⟨rfl, s.world, rfl⟩
  | succ k ih =>
    have here : is[k]? = some is[k] := List.getElem?_eq_getElem hk
    rw [List.take_succ_eq_append_getElem hk, List.reverse_append]
    change Does d h is s (postHandleEach _ (is[k] :: (is.take k).reverse) _ _) _
    rw [postHandleEach]
    apply Does.bind (is[k].postHandle_does here s)
    intro x t s₁ hx
    obtain ⟨answer, res, shown⟩ := x
    obtain ⟨rfl, w, rfl⟩ := hx
    cases answer with
    | error e =>
      apply Does.pure
      exact ⟨⟨k, Nat.lt_succ_self k, by simp⟩, w, rfl⟩
    | ok =>
      apply (ih (Nat.le_of_succ_le hk) { s.wrote w res with shown }).mono
      intro x u s' hu
      obtain ⟨hwalk, hs'⟩ := hu
      refine ⟨?_, hs'⟩
      cases hresult : x.1 with
      | ok =>
        rw [hresult] at hwalk
        rw [PostWalked, Callback.posted_succ (Nat.zero_le k), hwalk]
        rfl
      | error e =>
        rw [hresult] at hwalk
        obtain ⟨j, hj, rfl⟩ := hwalk
        exact ⟨j, Nat.lt_succ_of_lt hj, by rw [Callback.posted_succ hj]; rfl⟩

theorem postHandle_does (c : Chain σ) (s : Scene σ) :
    Does d c.handler c.interceptors s (c.postHandle s.request s.response s.shown) fun x t s' =>
      PostWalked c.interceptors.length t x.1 ∧ x.2.1 = { c with state := .postHandling } ∧
        ∃ w, s' = { s.wrote w x.2.2.1 with shown := x.2.2.2 } := by
  have walk := postHandleEach_does (d := d) (h := c.handler) (Nat.le_refl c.interceptors.length) s
  rw [List.take_length] at walk
  apply Does.bind walk
  intro x t s₁ hx
  apply Does.pure
  rw [List.append_nil]
  exact ⟨hx.1, rfl, hx.2⟩

private theorem notifyEach_does {l : List (Nat × Interceptor σ)} (hl : ∀ p ∈ l, is[p.1]? = some p.2)
    (s : Scene σ) :
    Does d h is s (notifyEach (s.call h) l s.response) fun res t s' =>
      t = (l.filter (·.2.isAsyncCapable)).map (.handOff ·.1) ∧ ∃ w, s' = s.wrote w res := by
  induction l generalizing s with
  | nil => exact .pure ⟨rfl, s.world, rfl⟩
  | cons p l ih =>
    have hp : is[p.1]? = some p.2 := hl p (by simp)
    have ih := ih fun q hq => hl q (by simp [hq])
    rw [notifyEach]
    cases hi : p.2.asyncStarted with
    | none =>
      have hcapable : p.2.isAsyncCapable = false := by rw [Interceptor.isAsyncCapable, hi]; rfl
      rw [List.filter_cons_of_neg (by simp [hcapable])]
      exact ih s
    | some started =>
      have hcapable : p.2.isAsyncCapable = true := by rw [Interceptor.isAsyncCapable, hi]; rfl
      have hfilter : (p :: l).filter (·.2.isAsyncCapable) = p :: l.filter (·.2.isAsyncCapable) :=
        List.filter_cons_of_pos hcapable
      rw [hfilter]
      apply Does.bind (Interceptor.asyncStarted_does hp hi s)
      intro x t s₁ hx
      obtain ⟨answer, res⟩ := x
      obtain ⟨rfl, w, rfl⟩ := hx
      have rest (w : World σ) : Does d h is (s.wrote w res) (notifyEach (s.call h) l res)
          fun res u s' => [.handOff p.1] ++ u =
              (p :: l.filter (·.2.isAsyncCapable)).map (.handOff ·.1) ∧
            ∃ w, s' = s.wrote w res := by
        apply (ih (s.wrote w res)).mono
        intro res u s' hu
        rw [hu.1]
        exact ⟨rfl, hu.2⟩
      cases answer with
      | ok => exact rest w
      | error e => exact Does.emit_bind (rest (w.reported _))

theorem notifyAsync_does {c : Chain σ} (hc : c.state = .asyncStarted)
    (hnew : c.asyncNotified = false) (s : Scene σ) :
    Does d c.handler c.interceptors s (c.notifyAsync s.request s.response) fun x t s' =>
      t = Callback.handedOff c.interceptors ∧ x.1 = { c with asyncNotified := true } ∧
        ∃ w, s' = s.wrote w x.2 := by
  have hmem : ∀ p ∈ (placed c.interceptors).reverse, c.interceptors[p.1]? = some p.2 := by
    intro p hp
    exact getElem?_of_mem_placed (List.mem_reverse.mp hp)
  rw [notifyAsync, hc, hnew]
  apply Does.bind (notifyEach_does hmem s)
  intro res t s₁ hs
  apply Does.pure
  rw [List.append_nil]
  exact ⟨hs.1, rfl, hs.2⟩

end Chain

end Switchyard
