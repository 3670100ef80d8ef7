import Mathlib.Data.List.Nodup
import Switchyard.Proofs.Dispatch.Giving
/-!
# Meters

What the calls of a dispatch do to the counters of a metrics interceptor when all other callbacks
leave these alone: they count the visits of that interceptor (`Visits.meter`). It sees the end of
each request that it let pass, unless that is suspended (`Protocol.balance`, `Concludes.balance`).
-/

namespace Switchyard

variable {σ α β : Type} {k : Nat}

/-- An action leaves a meter as it is. -/
def Act.Spares (k : Nat) (a : Act σ α) : Prop := ∀ w, (a.run w).2.meters[k]? = w.meters[k]?

namespace Act.Spares

protected theorem pure (x : α) : Act.Spares k (pure x : Act σ α) := fun _ => rfl

protected theorem bind {a : Act σ α} {f : α → Act σ β} (ha : a.Spares k)
    (hf : ∀ x, (f x).Spares k) : (a >>= f).Spares k := fun w =>
  (hf _ _).trans (ha w)

theorem emit (e : Event) : Act.Spares k (Act.emit e : Act σ Unit) := fun _ => rfl

theorem of_run {a : Act σ α} (ha : a.Spares k) {x : α} {w w' : World σ}
    (run : a.run w = (x, w')) : w'.meters[k]? = w.meters[k]? := by
  rw [← ha w, run]

end Act.Spares

/-- All callbacks of an interceptor leave a meter as it is. -/
structure Interceptor.Spares (k : Nat) (i : Interceptor σ) : Prop where
  pre : ∀ call res, (i.preHandle call res).Spares k
  post : ∀ call res shown, (i.postHandle call res shown).Spares k
  after : ∀ call res error, (i.afterCompletion call res error).Spares k
  started : ∀ started, i.asyncStarted = some started → ∀ call res, (started call res).Spares k

def Handler.Spares (k : Nat) (h : Handler σ) : Prop := ∀ req res, (h.run req res).Spares k

/-- The lookups and the resolvers of a dispatcher leave a meter as it is. -/
structure Dispatcher.Spares (k : Nat) (d : Dispatcher σ) : Prop where
  lookup : ∀ m ∈ d.mappings, ∀ req method, (m.lookup req method).Spares k
  resolver : ∀ r ∈ d.resolvers, ∀ name locale req, (r.resolve name locale req).Spares k

private theorem ViewResolver.first_spares {name locale : String} {rs : List (ViewResolver σ)}
    (hrs : ∀ r ∈ rs, ∀ name locale req, (r.resolve name locale req).Spares k) (req : Request) :
    (ViewResolver.first name locale rs req).Spares k := by
  induction rs generalizing req with
  | nil => exact .pure _
  | cons r rs ih =>
    rw [List.forall_mem_cons] at hrs
    rw [first]
    apply Act.Spares.bind (hrs.1 name locale req)
    rintro ⟨e | _ | view, published⟩
    · exact .pure _
    · exact .bind (ih hrs.2 _) fun _ => .pure _
    · exact .pure _

private theorem Dispatcher.viewOf_spares {d : Dispatcher σ} (hd : d.Spares k) (req : Request)
    (ref : ViewRef) : (d.viewOf req ref).Spares k := by
  cases ref with
  | view v => exact .pure _
  | name name =>
    apply Act.Spares.bind (ViewResolver.first_spares hd.resolver req)
    rintro ⟨e | _ | view, published⟩
    · exact .pure _
    · exact .bind (.emit _) fun _ => .pure _
    · exact .pure _

private theorem appearance_meter (k : Nat) :
    Appearance fun w w' : World σ => w'.meters[k]? = w.meters[k]? where
  equivalence := ⟨fun _ => rfl, Eq.symm, fun h h' => h'.trans h⟩
  reported _ _ := rfl
  closed _ _ := rfl

theorem Dispatcher.chainFor_spares {ms : List (HandlerMapping σ)}
    (hms : ∀ m ∈ ms, ∀ req method, (m.lookup req method).Spares k) (req : Request) :
    (Dispatcher.chainFor ms req).Spares k := by
  have hgives := Dispatcher.chainFor_gives (appearance_meter k)
    (fun m hm req method w => ⟨trivial, hms m hm req method w⟩) req
  exact fun w => (hgives w).2

namespace Callback

/-- One of some interceptors let a request pass. -/
def opens (mine : Nat → Bool) : Callback → Bool
  | .pre place (.ok true) => mine place
  | _ => false

/-- One of some interceptors saw the end of a request. -/
def closes (mine : Nat → Bool) : Callback → Bool
  | .after place _ => mine place
  | _ => false

/-- One of some interceptors heard of background work. -/
def handsOff (mine : Nat → Bool) : Callback → Bool
  | .handOff place => mine place
  | _ => false

private theorem opens_of_not_mine {mine : Nat → Bool} {place : Nat} (h : mine place = false)
    (answer : Except DispatchError Bool) : opens mine (.pre place answer) = false := by
  cases answer with
  | error e => rfl
  | ok passes =>
    cases passes with
    | false => rfl
    | true => exact h

end Callback

/-- The end of a request that an error ended, or whose status tells of a failure at that moment. -/
def Visit.fails (v : Visit) : Bool :=
  match v.callback with
  | .after _ error => error.isSome || 400 ≤ v.exchange.response.status
  | _ => false

namespace Meter

/-- What some visits amount to, as some interceptors count them. -/
def tally (mine : Nat → Bool) (v : List Visit) : Meter where
  requests := v.countP (·.callback.opens mine)
  failures := (v.filter (·.callback.closes mine)).countP Visit.fails
  asyncStarted := v.countP (·.callback.handsOff mine)
  completions := v.countP (·.callback.closes mine)

def plus (m n : Meter) : Meter where
  requests := m.requests + n.requests
  failures := m.failures + n.failures
  asyncStarted := m.asyncStarted + n.asyncStarted
  completions := m.completions + n.completions

private theorem tally_cons (mine : Nat → Bool) (x : Visit) (v : List Visit) :
    tally mine (x :: v) = (tally mine [x]).plus (tally mine v) := by
  have happend : x :: v = [x] ++ v := rfl
  rw [happend]
  simp only [tally, plus, List.countP_append, List.filter_append]

theorem plus_assoc (m n o : Meter) : (m.plus n).plus o = m.plus (n.plus o) := by
  simp only [plus, Nat.add_assoc]

end Meter

open Classical in
noncomputable def counter (k : Nat) (is : List (Interceptor σ)) (place : Nat) : Bool :=
  decide (is[place]? = some (.metrics k))

private theorem counter_iff {is : List (Interceptor σ)} {place : Nat} :
    counter k is place = true ↔ is[place]? = some (.metrics k) := by
  simp only [counter, decide_eq_true_eq]

/-- A chain in which one metrics interceptor may stand, among others that leave its meter alone. -/
structure Chain.Metered (k : Nat) (c : Chain σ) : Prop where
  handler : c.handler.Spares k
  interceptor : ∀ i ∈ c.interceptors, i = .metrics k ∨ i.Spares k
  once : ∀ i j : Nat, c.interceptors[i]? = some (.metrics k) →
    c.interceptors[j]? = some (.metrics k) → i = j

open Classical in
/-- Whether the metrics interceptor of a meter is in a chain. -/
noncomputable def Chain.counts (k : Nat) (c : Chain σ) : Bool :=
  decide (Interceptor.metrics k ∈ c.interceptors)

section

variable {d : Dispatcher σ} {c : Chain σ} {m : Meter}

private theorem plus_tally_of_idle {mine : Nat → Bool} {v : Visit}
    (hopens : v.callback.opens mine = false) (hcloses : v.callback.closes mine = false)
    (hoff : v.callback.handsOff mine = false) : m.plus (Meter.tally mine [v]) = m := by
  simp [Meter.plus, Meter.tally, hopens, hcloses, hoff]

/-- What a call adds to a meter that only the metrics interceptor of the chain touches. -/
theorem Calls.meter (hd : d.Spares k) (hc : c.Metered k) {b : Callback} {s s' : Scene σ}
    (hcall : Calls d c.handler c.interceptors b s s') (hs : s.world.meters[k]? = some m) :
    s'.world.meters[k]? =
      some (m.plus (Meter.tally (counter k c.interceptors) [s.visit b])) := by
  have other {place : Nat} {i : Interceptor σ} (here : c.interceptors[place]? = some i)
      (hi : i ≠ .metrics k) : i.Spares k ∧ counter k c.interceptors place = false := by
    refine ⟨(hc.interceptor i (List.mem_of_getElem? here)).resolve_left hi, ?_⟩
    rw [Bool.eq_false_iff, ne_eq, counter_iff, here]
    exact fun h => hi (Option.some.inj h)
  have idle {w : World σ} {v : Visit} (hw : w.meters[k]? = s.world.meters[k]?)
      (hopens : v.callback.opens (counter k c.interceptors) = false)
      (hcloses : v.callback.closes (counter k c.interceptors) = false)
      (hoff : v.callback.handsOff (counter k c.interceptors) = false) :
      w.meters[k]? = some (m.plus (Meter.tally (counter k c.interceptors) [v])) := by
    rw [hw, hs, plus_tally_of_idle hopens hcloses hoff]
  cases hcall with
  | @pre place i s answer res w here run =>
    by_cases hi : i = .metrics k
    · subst hi
      have hmine := counter_iff.mpr here
      cases run
      simp [Scene.wrote, Scene.visit, Array.getElem?_modify, hs, Meter.plus, Meter.tally,
        Callback.opens, Callback.closes, Callback.handsOff, hmine]
    · obtain ⟨hi, hmine⟩ := other here hi
      exact idle ((hi.pre _ _).of_run run) (Callback.opens_of_not_mine hmine answer) rfl rfl
  | @after place i s error answer res w here run =>
    by_cases hi : i = .metrics k
    · subst hi
      have hmine := counter_iff.mpr here
      cases run
      by_cases hstatus : 400 ≤ s.exchange.response.status <;> cases error <;>
        simp [Scene.wrote, Scene.visit, Scene.response, Array.getElem?_modify, hs, Meter.plus,
          Meter.tally, Visit.fails, Callback.opens, Callback.closes, Callback.handsOff, hmine,
          hstatus]
    · obtain ⟨hi, hmine⟩ := other here hi
      exact idle ((hi.after _ _ _).of_run run) rfl hmine rfl
  | @handOff place i s started answer res w here hi run =>
    by_cases hmetrics : i = .metrics k
    · subst hmetrics
      have hmine := counter_iff.mpr here
      cases hi
      cases run
      simp [Scene.wrote, Scene.visit, Array.getElem?_modify, hs, Meter.plus, Meter.tally,
        Callback.opens, Callback.closes, Callback.handsOff, hmine]
    · obtain ⟨hspares, hmine⟩ := other here hmetrics
      exact idle ((hspares.started started hi _ _).of_run run) rfl rfl hmine
  | handle run => exact idle ((hc.handler _ _).of_run run) rfl rfl rfl
  | @post place i s answer res shown w here run =>
    by_cases hi : i = .metrics k
    · subst hi
      cases run
      exact idle rfl rfl rfl rfl
    · exact idle (((other here hi).1.post _ _ _).of_run run) rfl rfl rfl
  | noView hview => exact idle rfl rfl rfl rfl
  | unresolved hshown hview resolve => exact idle ((d.viewOf_spares hd _ _).of_run resolve) rfl rfl rfl
  | rendered hshown hview resolve render =>
    exact idle ((d.viewOf_spares hd _ _).of_run resolve) rfl rfl rfl

theorem Visits.meter (hd : d.Spares k) (hc : c.Metered k) {v : List Visit} {s s' : Scene σ}
    (hv : Visits d c.handler c.interceptors v s s') (hs : s.world.meters[k]? = some m) :
    s'.world.meters[k]? = some (m.plus (Meter.tally (counter k c.interceptors) v)) := by
  induction hv generalizing m with
  | done => exact hs
  | report e _ ih => exact ih hs
  | @call b v s s₁ s' first _ ih =>
    rw [ih (first.meter hd hc hs), Meter.plus_assoc, ← Meter.tally_cons]

end

/-- How many of the first `n` interceptors are some. -/
def amount (mine : Nat → Bool) (n : Nat) : Nat := (List.range n).countP mine

/-- How often some interceptors let requests pass, saw their ends and heard of background work. -/
structure Balance (mine : Nat → Bool) (t : List Callback) (opened closed handed : Nat) : Prop where
  opens : t.countP (Callback.opens mine) = opened
  closes : t.countP (Callback.closes mine) = closed
  handsOff : t.countP (Callback.handsOff mine) = handed

/-- The places of interceptors that want to know about background work. -/
def Hears (mine : Nat → Bool) (is : List (Interceptor σ)) : Prop :=
  ∀ j i, is[j]? = some i → mine j = true → i.isAsyncCapable = true

namespace Balance

variable {mine : Nat → Bool} {t u : List Callback} {opened closed handed : Nat}

theorem append {opened' closed' handed' : Nat} (ht : Balance mine t opened closed handed)
    (hu : Balance mine u opened' closed' handed') :
    Balance mine (t ++ u) (opened + opened') (closed + closed') (handed + handed') where
  opens := by rw [List.countP_append, ht.opens, hu.opens]
  closes := by rw [List.countP_append, ht.closes, hu.closes]
  handsOff := by rw [List.countP_append, ht.handsOff, hu.handsOff]

theorem skip {b : Callback} (ht : Balance mine t opened closed handed)
    (hopens : b.opens mine = false) (hcloses : b.closes mine = false)
    (hhandsOff : b.handsOff mine = false) : Balance mine (b :: t) opened closed handed where
  opens := by rw [List.countP_cons_of_neg (by simp [hopens]), ht.opens]
  closes := by rw [List.countP_cons_of_neg (by simp [hcloses]), ht.closes]
  handsOff := by rw [List.countP_cons_of_neg (by simp [hhandsOff]), ht.handsOff]

private theorem countP_map_of_idle {p : Callback → Bool} {f : α → Callback}
    (hf : ∀ a, p (f a) = false) (l : List α) : (l.map f).countP p = 0 := by
  rw [List.countP_eq_zero]
  intro b hb
  obtain ⟨a, -, rfl⟩ := List.mem_map.mp hb
  rw [hf a]
  exact Bool.false_ne_true

theorem passed (mine : Nat → Bool) (n : Nat) :
    Balance mine (Callback.passed 0 n) (amount mine n) 0 0 where
  opens := List.countP_map
  closes := countP_map_of_idle (fun _ => rfl) _
  handsOff := countP_map_of_idle (fun _ => rfl) _

theorem posted (mine : Nat → Bool) (n k : Nat) : Balance mine (Callback.posted n k) 0 0 0 where
  opens := countP_map_of_idle (fun _ => rfl) _
  closes := countP_map_of_idle (fun _ => rfl) _
  handsOff := countP_map_of_idle (fun _ => rfl) _

theorem completed (mine : Nat → Bool) (n : Nat) (error : Option DispatchError) :
    Balance mine (Callback.completed n error) 0 (amount mine n) 0 where
  opens := countP_map_of_idle (fun _ => rfl) _
  closes := by
    rw [Callback.completed, List.countP_map, List.countP_reverse]
    rfl
  handsOff := countP_map_of_idle (fun _ => rfl) _

theorem handedOff {is : List (Interceptor σ)} (hmine : Hears mine is) :
    Balance mine (Callback.handedOff is) 0 0 (amount mine is.length) where
  opens := countP_map_of_idle (fun _ => rfl) _
  closes := countP_map_of_idle (fun _ => rfl) _
  handsOff := by
    have hcapable : ∀ q ∈ Chain.placed is,
        ((Callback.handsOff mine ∘ fun q => .handOff q.1) q && q.2.isAsyncCapable) = true ↔
          mine q.1 = true := by
      intro q hq
      rw [Bool.and_eq_true]
      exact ⟨And.left, fun h => ⟨h, hmine q.1 q.2 (Chain.getElem?_of_mem_placed hq) h⟩⟩
    rw [Callback.handedOff, List.countP_map, List.countP_filter, List.countP_reverse,
      List.countP_congr hcapable, amount, ← Chain.map_fst_placed, List.countP_map]
    rfl

end Balance

theorem Meter.tally_of_balance {mine : Nat → Bool} {v : List Visit} {opened closed handed : Nat}
    (hv : Balance mine (v.map Visit.callback) opened closed handed) :
    (tally mine v).requests = opened ∧ (tally mine v).completions = closed ∧
      (tally mine v).asyncStarted = handed := by
  obtain ⟨hopens, hcloses, hhandsOff⟩ := hv
  rw [List.countP_map] at hopens hcloses hhandsOff
  exact ⟨hopens, hcloses, hhandsOff⟩

section

variable {c : Chain σ}

theorem Chain.hears_counter (k : Nat) (c : Chain σ) :
    Hears (counter k c.interceptors) c.interceptors := by
  intro j i here hmine
  rw [counter_iff, here] at hmine
  rw [Option.some.inj hmine]
  rfl

theorem Chain.Metered.amount_eq (hc : c.Metered k) :
    amount (counter k c.interceptors) c.interceptors.length = (c.counts k).toNat := by
  cases hcounts : c.counts k with
  | false =>
    have hnot : Interceptor.metrics k ∉ c.interceptors := by simpa [Chain.counts] using hcounts
    rw [amount, Bool.toNat_false, List.countP_eq_zero]
    intro j _ hj
    exact hnot (List.mem_of_getElem? (counter_iff.mp hj))
  | true =>
    have hmem : Interceptor.metrics k ∈ c.interceptors := by simpa [Chain.counts] using hcounts
    obtain ⟨place, here⟩ := List.mem_iff_getElem?.mp hmem
    have hlt : place < c.interceptors.length := (List.getElem?_eq_some_iff.mp here).1
    have honly : ∀ j ∈ List.range c.interceptors.length,
        counter k c.interceptors j = true ↔ (j == place) = true := by
      intro j _
      rw [counter_iff, beq_iff_eq]
      exact ⟨fun hj => hc.once j place hj here, fun hj => hj ▸ here⟩
    rw [amount, List.countP_congr honly, Bool.toNat_true]
    exact List.count_eq_one_of_mem List.nodup_range (List.mem_range.mpr hlt)

end

section

variable {mine : Nat → Bool} {n : Nat} {x : Exchange} {t : List Callback}

theorem Finishes.balance (mine : Nat → Bool) {r : Except DispatchError Exchange}
    (ht : Finishes n x t r) :
    Balance mine t 0 (amount mine n) 0 := by
  cases ht with
  | @postFailed k e hk =>
    simpa using (Balance.posted mine n (k + 1)).append
      ((Balance.completed mine n (some e)).skip (b := .post k (.error e)) rfl rfl rfl)
  | @viewFailed ref e =>
    simpa using (Balance.posted mine n 0).append
      ((Balance.completed mine n (some e)).skip (b := .view (some ref) (.error e)) rfl rfl rfl)
  | @shown ref =>
    simpa using (Balance.posted mine n 0).append
      ((Balance.completed mine n none).skip (b := .view ref (.ok ())) rfl rfl rfl)

theorem Concludes.balance (mine : Nat → Bool) {cause : Option AsyncValue}
    {r : Option (Except DispatchError Exchange)} (ht : Concludes n x cause t r) :
    Balance mine t 0 (amount mine n) 0 := by
  cases ht with
  | finished ht => exact ht.balance mine
  | failed => exact Balance.completed mine n _
  | dropped => exact Balance.completed mine n _

/-- What a dispatch leaves behind when it is suspended. -/
def Dispatcher.left? : Except DispatchError (DispatchOutcome σ) → Option (Pending σ)
  | .ok (.suspended p) => some p
  | _ => none

/-- A dispatch tells the interceptors that let the request pass of its end, unless it is suspended.
Then it tells those that want to know. -/
theorem Protocol.balance {c : Chain σ} {r : Except DispatchError (DispatchOutcome σ)}
    (hmine : Hears mine c.interceptors) (ht : Protocol c x t r) :
    let left := if (Dispatcher.left? r).isSome then amount mine c.interceptors.length else 0
    ∃ closed, Balance mine t (closed + left) closed left := by
  have all := Balance.passed mine c.interceptors.length
  cases ht with
  | @refused k hk =>
    refine ⟨amount mine k, ?_⟩
    simpa [Dispatcher.left?] using (Balance.passed mine k).append
      ((Balance.completed mine k none).skip (b := .pre k (.ok false)) rfl rfl rfl)
  | @preFailed k e hk =>
    refine ⟨amount mine k, ?_⟩
    simpa [Dispatcher.left?] using (Balance.passed mine k).append
      ((Balance.completed mine k (some e)).skip (b := .pre k (.error e)) rfl rfl rfl)
  | @handlerFailed e =>
    refine ⟨amount mine c.interceptors.length, ?_⟩
    simpa [Dispatcher.left?] using all.append
      ((Balance.completed mine _ (some e)).skip (b := .handle (.error e)) rfl rfl rfl)
  | @finished o t r ho ht =>
    have hleft : Dispatcher.left? (r.map .completed : Except DispatchError (DispatchOutcome σ)) =
        none := by
      cases r <;> rfl
    refine ⟨amount mine c.interceptors.length, ?_⟩
    rw [hleft]
    simpa using all.append ((ht.balance mine).skip (b := .handle (.ok o)) rfl rfl rfl)
  | @suspended deferred =>
    refine ⟨0, ?_⟩
    simpa [Dispatcher.left?] using all.append
      ((Balance.handedOff hmine).skip (b := .handle (.ok (.async deferred))) rfl rfl rfl)

end

end Switchyard
