import Switchyard.Proofs.Dispatch.Completion
/-!
# News of background work under any operations

Interceptors may be put into a chain anywhere between its phases, and every phase sets its state
anew. Still the cursor stays among the interceptors, and news of background work goes to each
interceptor once at most, to those that want it, and behind a handler that went on in the background
(`Chain.hand_off_discipline`).
-/

namespace Switchyard

variable {σ : Type}

namespace Callback

/-- The call tells the interceptor of the number about background work. -/
def offers (n : Nat) : Callback → Bool
  | handOff m => m == n
  | _ => false

def isHandOff : Callback → Bool
  | handOff _ => true
  | _ => false

def Unoffered (t : List Callback) : Prop := ∀ b ∈ t, ¬ b.isHandOff

/-- Who is told about background work is told behind a handler that went on in the background. -/
def Prompted (log : List Callback) : Prop :=
  ∀ before n rest, log = before ++ .handOff n :: rest →
    ∃ result, .handle (.ok (.async result)) ∈ before

variable {t u log : List Callback} {nums : List Nat} {is : List (Interceptor σ)}

private theorem isHandOff_under (b : Callback) (nums : List Nat) :
    (b.under nums).isHandOff = b.isHandOff := by cases b <;> rfl

theorem Unoffered.append (ht : Unoffered t) (hu : Unoffered u) : Unoffered (t ++ u) :=
  List.forall_mem_append.mpr ⟨ht, hu⟩

theorem Unoffered.map_under (h : Unoffered t) (nums : List Nat) :
    Unoffered (t.map (under nums)) := by
  rw [Unoffered, List.forall_mem_map]
  intro b hb
  rw [isHandOff_under]
  exact h b hb

theorem Unoffered.countP (h : Unoffered t) (n : Nat) : t.countP (offers n) = 0 := by
  rw [List.countP_eq_zero]
  intro b hb
  cases b with
  | handOff m => exact absurd rfl (h _ hb)
  | _ => simp [offers]

theorem Prompted.append (h : Prompted log)
    (hu : ∀ n, .handOff n ∈ u → ∃ result, .handle (.ok (.async result)) ∈ log) :
    Prompted (log ++ u) := by
  intro before n rest heq
  rcases append_eq_append_cons heq with ⟨more, hlog⟩ | ⟨more, rfl, rfl⟩
  · exact h before n more hlog
  · obtain ⟨result, hresult⟩ := hu n (by simp)
    exact ⟨result, List.mem_append_left _ hresult⟩

private theorem map_under_handedOff (hlength : nums.length = is.length) :
    (handedOff is).map (under nums) =
      ((nums.zip is).reverse.filter (·.2.isAsyncCapable)).map (.handOff ·.1) := by
  have hnums : (Chain.placed is).map (fun p => nums.getD p.1 0) = nums := by
    calc (Chain.placed is).map (fun p => nums.getD p.1 0)
      _ = ((Chain.placed is).map (·.1)).map (nums.getD · 0) := by
        rw [List.map_map]
        rfl
      _ = nums.take nums.length := by
        rw [Chain.map_fst_placed, ← hlength, map_getD_range (Nat.le_refl _)]
      _ = nums := List.take_length
  have hzip : nums.zip is = (Chain.placed is).map fun p => (nums.getD p.1 0, p.2) := by
    rw [← List.zip_map', hnums, Chain.map_snd_placed]
  rw [hzip, handedOff, ← List.map_reverse, List.filter_map, List.map_map, List.map_map]
  rfl

private theorem countP_handedOff (hlength : nums.length = is.length) (hnums : nums.Nodup)
    (n : Nat) : ((handedOff is).map (under nums)).countP (offers n) ≤ 1 := by
  have hfirst : (nums.zip is).map (·.1) = nums := List.map_fst_zip (Nat.le_of_eq hlength)
  have htold : (((nums.zip is).reverse.filter (·.2.isAsyncCapable)).map (·.1)).Sublist
      ((nums.zip is).reverse.map (·.1)) := List.filter_sublist.map _
  rw [List.map_reverse, hfirst] at htold
  have hdistinct := (List.nodup_reverse.mpr hnums).sublist htold
  rw [map_under_handedOff hlength, List.countP_map]
  rw [List.nodup_iff_count_le_one] at hdistinct
  have hcount := hdistinct n
  rw [List.count, List.countP_map] at hcount
  exact hcount

end Callback

namespace Operation

/-- The interceptor that an operation puts into the chain. -/
def brings : Operation σ → List (Interceptor σ)
  | add i => [i]
  | insert _ i => [i]
  | _ => []

private theorem enter_perm (op : Operation σ) (es : List (Nat × Interceptor σ)) :
    (op.enter es).Perm (es ++ op.brings.map (es.length, ·)) := by
  cases op with
  | add i => rfl
  | insert place i =>
    have hmiddle : (es.take place ++ (es.length, i) :: es.drop place).Perm
        ((es.length, i) :: (es.take place ++ es.drop place)) := List.perm_middle
    rw [List.take_append_drop] at hmiddle
    exact hmiddle.trans (List.perm_append_singleton _ _).symm
  | _ => simp [enter, brings]

/-- Interceptors under the numbers that they have in a list of all that were registered. -/
def Numbers (all : List (Interceptor σ)) (es : List (Nat × Interceptor σ)) : Prop :=
  all.length = es.length ∧ ∀ e ∈ es, all[e.1]? = some e.2

theorem Numbers.enter {all : List (Interceptor σ)} {es : List (Nat × Interceptor σ)}
    (h : Numbers all es) (op : Operation σ) : Numbers (all ++ op.brings) (op.enter es) := by
  obtain ⟨hlength, hall⟩ := h
  refine ⟨?_, ?_⟩
  · simp [(op.enter_perm es).length_eq, hlength]
  · intro e he
    rcases List.mem_append.mp ((op.enter_perm es).mem_iff.mp he) with hold | hnew
    · have hsome := hall e hold
      have hlt : e.1 < all.length := (List.getElem?_eq_some_iff.mp hsome).1
      rwa [List.getElem?_append_left hlt]
    · -- an operation brings one interceptor at most, which is given the next number
      obtain ⟨i, hi, rfl⟩ := List.mem_map.mp hnew
      rw [← hlength, List.getElem?_append_right (Nat.le_refl _), Nat.sub_self]
      cases op <;> simp_all [brings]

theorem Numbers.enterAll {all : List (Interceptor σ)} {es : List (Nat × Interceptor σ)}
    (h : Numbers all es) (ops : List (Operation σ)) :
    Numbers (all ++ ops.flatMap brings) (Operation.enterAll ops es) := by
  induction ops generalizing all es with
  | nil =>
    rw [List.flatMap_nil, List.append_nil]
    exact h
  | cons op ops ih =>
    rw [List.flatMap_cons, ← List.append_assoc]
    exact ih (h.enter op)

private theorem isPhase_watched (op : Operation σ) (n : Nat) :
    (op.watched n).isPhase = op.isPhase := by
  cases op <;> rfl

end Operation

namespace Chain

open Callback (Unoffered Prompted offers)

variable {c c' : Chain σ} {op : Operation σ} {t log : List Callback} {nums : List Nat}
  {P : Operation σ → Chain σ → Prop}

/-- The interceptors of a chain and those that operations bring, in the order of their
registration. -/
def registered (c : Chain σ) (ops : List (Operation σ)) : List (Interceptor σ) :=
  c.interceptors ++ ops.flatMap Operation.brings

private theorem numbers_enterAll (is : List (Interceptor σ)) (ops : List (Operation σ)) :
    Operation.Numbers (is ++ ops.flatMap Operation.brings)
      (Operation.enterAll ops (placed is)) := by
  have start : Operation.Numbers is (placed is) := by
    refine ⟨?_, fun e he => getElem?_of_mem_placed he⟩
    rw [← List.length_map (f := Prod.fst), map_fst_placed, List.length_range]
  exact start.enterAll ops

/-- Only the news of background work tells interceptors of it: once, and when the handler has just
gone on in the background. -/
private theorem Took.offers (took : Took c op t c') :
    (c.state = .asyncStarted ∧ c.asyncNotified = false ∧ c'.asyncNotified = true ∧
      t = Callback.handedOff c.interceptors) ∨
    Unoffered t ∧ c'.asyncNotified = c.asyncNotified := by
  have hmakes := took.makes
  have unoffered (hop : ∀ n, ¬ op.makes (.handOff n)) : Unoffered t := by
    intro b hb
    cases b with
    | handOff n => exact absurd (hmakes _ hb) (hop n)
    | _ => exact Bool.false_ne_true
  cases took with
  | notified hstate hnew => exact .inl ⟨hstate, hnew, rfl, rfl⟩
  | unnotified => exact .inr ⟨by simp [Unoffered], rfl⟩
  | passed | stopped | invoked | posted | completed | rested | added | inserted =>
    exact .inr ⟨unoffered fun _ => Bool.false_ne_true, rfl⟩

private theorem Took.starts (took : Took c op t c') (h : c'.state = .asyncStarted) :
    c.state = .asyncStarted ∨ ∃ result, t = [.handle (.ok (.async result))] := by
  cases took with
  | @invoked _ _ answer =>
    right
    match answer with
    | .ok (.async result) => exact ⟨result, rfl⟩
    | .ok .handled | .ok (.view _) | .error _ => cases h
  | passed | stopped | posted | completed => cases h
  | notified hstate => exact .inl hstate
  | unnotified | rested | added | inserted => exact .inl h

/-- Until the chain has given the news, nobody has it, and nobody is given it twice. -/
private theorem Life.offered (h : Life P c nums log) :
    (c.asyncNotified = false → Unoffered log) ∧ ∀ n, log.countP (offers n) ≤ 1 := by
  induction h with
  | start => exact ⟨fun _ => by simp [Unoffered], by simp⟩
  | @step c c' nums log t op before _ took ih =>
    obtain ⟨hnobody, honce⟩ := ih
    rcases took.offers with ⟨-, hnew, htold, rfl⟩ | ⟨ht, hsame⟩
    · constructor
      · intro h
        rw [htold] at h
        cases h
      · intro n
        rw [List.countP_append, (hnobody hnew).countP, Nat.zero_add]
        exact Callback.countP_handedOff before.orderly.length before.orderly.nodup n
    · have hu := ht.map_under nums
      rw [hsame]
      constructor
      · exact fun h => (hnobody h).append hu
      · intro n
        rw [List.countP_append, hu.countP]
        exact honce n

private theorem Life.prompted (h : Life P c nums log) :
    (c.state = .asyncStarted → ∃ result, .handle (.ok (.async result)) ∈ log) ∧
      Prompted log := by
  induction h with
  | start =>
    refine ⟨fun h => (nomatch h), ?_⟩
    intro before n rest h
    simp at h
  | @step c c' nums log t op before _ took ih =>
    obtain ⟨hstarted, hprompted⟩ := ih
    constructor
    · intro hstate
      rcases took.starts hstate with hbefore | ⟨result, rfl⟩
      · obtain ⟨result, hresult⟩ := hstarted hbefore
        exact ⟨result, List.mem_append_left _ hresult⟩
      · exact ⟨result, by simp [Callback.under]⟩
    · rcases took.offers with ⟨hstate, -⟩ | ⟨ht, -⟩
      · exact hprompted.append fun _ _ => hstarted hstate
      · exact hprompted.append fun n hmem => absurd rfl (ht.map_under nums _ hmem)

/-- Who is told about background work is an interceptor of the chain that wants to know. -/
private theorem Life.capable (h : Life P c nums log) :
    ∀ n, .handOff n ∈ log → ∃ i, (n, i) ∈ nums.zip c.interceptors ∧ i.isAsyncCapable := by
  induction h with
  | start => simp
  | @step c c' nums log t op before _ took ih =>
    have hlength := before.orderly.length
    -- interceptors keep their numbers
    have stays (p : Nat × Interceptor σ) (hp : p ∈ nums.zip c.interceptors) :
        p ∈ (op.enrol nums).zip c'.interceptors := by
      cases took with
      | added =>
        rw [Operation.enrol, Chain.add, List.zip_append hlength]
        exact List.mem_append_left _ hp
      | @inserted place i =>
        have hfront : (nums.take place).length = (c.interceptors.take place).length := by
          rw [List.length_take, List.length_take, hlength]
        rw [← List.take_append_drop place (nums.zip c.interceptors), List.zip, List.take_zipWith,
          List.drop_zipWith, List.mem_append] at hp
        rw [Operation.enrol, Chain.insert, List.zip_append hfront, List.zip_cons_cons,
          List.mem_append, List.mem_cons]
        exact hp.imp_right .inr
      | _ => exact hp
    intro n hn
    rcases List.mem_append.mp hn with hold | hnew
    · obtain ⟨i, hi, hcapable⟩ := ih n hold
      exact ⟨i, stays _ hi, hcapable⟩
    · rcases took.offers with ⟨-, -, -, rfl⟩ | ⟨ht, -⟩
      · rw [Callback.map_under_handedOff hlength, List.mem_map] at hnew
        obtain ⟨⟨m, i⟩, hmem, heq⟩ := hnew
        cases heq
        rw [List.mem_filter, List.mem_reverse] at hmem
        exact ⟨i, stays _ hmem.1, hmem.2⟩
      · exact absurd rfl (ht.map_under nums _ hnew)

theorem Life.untouched (h : Life (fun op _ => ¬ op.isPhase) c nums log) :
    c.state = .notStarted ∧ log = [] := by
  induction h with
  | start => exact ⟨rfl, rfl⟩
  | @step c c' nums log t op before hop took ih =>
    obtain ⟨hstate, rfl⟩ := ih
    cases took with
    | passed | stopped | invoked | posted => exact absurd rfl hop
    | notified hstarted => simp [hstate] at hstarted
    | completed hon => exact absurd (.inl hstate) hon
    | unnotified | rested | added | inserted => exact ⟨hstate, rfl⟩

private theorem throughout_of_forall {ops : List (Operation σ)} (hops : ∀ op ∈ ops, ∀ c, P op c)
    (c : Chain σ) (w : World σ) : Throughout P ops c w := by
  induction ops generalizing c w with
  | nil => trivial
  | cons op ops ih =>
    rw [List.forall_mem_cons] at hops
    exact ⟨hops.1 c, ih hops.2 _ _⟩

private theorem map_fst_completed {last : Nat} (hcursor : c.cursor = some last)
    (hlast : last < c.interceptors.length) :
    c.completed.map (·.1) = (List.range (last + 1)).reverse := by
  rw [completed, hcursor]
  dsimp only
  rw [List.map_reverse, map_fst_placed, List.length_take, Nat.min_eq_left hlast]

/-- Operations on a new chain, in any order and with any callbacks, their transcript being that of
the run. The cursor is the place of an interceptor, so that completion finds all that it is to tell.
Each interceptor is told at most once about background work, only if it wants to know, and only
behind a handler that went on in the background. Completion leaves a chain alone on which no phase
has been run, and such a chain has called nothing. -/
theorem hand_off_discipline (h : Handler σ) (is : List (Interceptor σ))
    (ops : List (Operation σ)) (w : World σ) :
    let c : Chain σ := { handler := h, interceptors := is }
    let after := (performAll ops c).run w
    ((∃ es, (c.observe ops w).1 = after.1.watched es ∧ after.1.interceptors = es.map (·.2)) ∧
      (c.observe ops w).2.unwatched = after.2) ∧
    (∀ last, after.1.cursor = some last → last < after.1.interceptors.length ∧
      after.1.completed.map (·.1) = (List.range (last + 1)).reverse) ∧
    (∀ n, (c.transcript ops w).countP (offers n) ≤ 1) ∧
    (∀ n, .handOff n ∈ c.transcript ops w →
      ∃ i, (c.registered ops)[n]? = some i ∧ i.isAsyncCapable) ∧
    Prompted (c.transcript ops w) ∧
    ((∀ op ∈ ops, ¬ op.isPhase) → c.transcript ops w = [] ∧
      ∀ req res error, after.1.complete req res error = pure (after.1, res)) := by
  intro c after
  have hmirrors := watchAll_enters (c := c) (map_snd_placed is).symm ops w.watched
  obtain ⟨⟨hchain, hentered⟩, hworld⟩ := hmirrors
  have hlife : Life (fun _ _ => True) (c.observe ops w).1
      ((Operation.enterAll ops (placed is)).map (·.1)) (c.transcript ops w) :=
    observe_life (P := fun _ _ => True) (fun _ _ _ _ => id)
      (throughout_of_forall (fun _ _ _ => trivial) _ w)
  refine ⟨⟨⟨_, hchain, hentered⟩, hworld⟩, ?_, hlife.offered.2, ?_, hlife.prompted.2, ?_⟩
  · intro last hcursor
    have hreach := hlife.orderly.reach
    have hobserved : (c.observe ops w).1.cursor = after.1.cursor := congrArg Chain.cursor hchain
    rw [hobserved, hcursor, List.length_map, ← List.length_map (f := Prod.snd),
      ← hentered] at hreach
    exact ⟨hreach, map_fst_completed hcursor hreach⟩
  · intro n hn
    obtain ⟨i, hi, hcapable⟩ := hlife.capable n hn
    have hinterceptors : (c.observe ops w).1.interceptors =
        (Operation.enterAll ops (placed is)).map fun e => e.2.watched e.1 :=
      congrArg Chain.interceptors hchain
    rw [hinterceptors, List.zip_map'] at hi
    obtain ⟨e, he, heq⟩ := List.mem_map.mp hi
    cases heq
    refine ⟨e.2, (numbers_enterAll is ops).2 e he, ?_⟩
    rwa [Interceptor.isAsyncCapable, Interceptor.watched, Option.isSome_map] at hcapable
  · intro hops
    have huntouched : Life (fun op _ => ¬ op.isPhase) (c.observe ops w).1
        ((Operation.enterAll ops (placed is)).map (·.1)) (c.transcript ops w) := by
      apply observe_life (P := fun op _ => ¬ op.isPhase)
      · intro op _ _ n hop
        rwa [op.isPhase_watched]
      · exact throughout_of_forall (fun op hop _ => hops op hop) _ w
    obtain ⟨hstate, hlog⟩ := huntouched.untouched
    have hobserved : (c.observe ops w).1.state = after.1.state := congrArg Chain.state hchain
    exact ⟨hlog, complete_of_atRest (.inl (hobserved ▸ hstate))⟩

/-- An interceptor that wants to know about background work. -/
def curious (name : String) : Interceptor Unit where
  name := name
  asyncStarted := some fun _ res => return (.ok (), res)

/-- A chain whose handler goes on in the background, with an interceptor that wants to know of it and
one that does not. -/
def reportChain : Chain Unit where
  handler := { name := "report", run := fun _ res => return (.ok (.async ⟨0, none⟩), res) }
  interceptors := [curious "a", { name := "b" }]

/-- One more interceptor is put in front between the phases, and the news is to be given twice. -/
theorem hand_off_discipline_report :
    let req : Request := { method := .get, path := "/" }
    let ops : List (Operation Unit) :=
      [.preHandle req {}, .insert 0 (curious "c"), .invoke req {}, .notifyAsync req {},
        .notifyAsync req {}, .complete req {} none]
    let idle : List (Operation Unit) := [.add (curious "c"), .complete req {} none]
    let w : World Unit := ⟨(), #[], #[], #[], #[]⟩
    let after := (performAll ops reportChain).run w
    reportChain.transcript ops w = [.pre 0 (.ok true), .pre 1 (.ok true),
      .handle (.ok (.async ⟨0, none⟩)), .handOff 0, .handOff 2, .after 0 none, .after 2 none] ∧
    (after.1.cursor = some 1 ∧ 1 < after.1.interceptors.length) ∧
    (∀ n, (reportChain.transcript ops w).countP (offers n) ≤ 1) ∧
    (∃ i, (reportChain.registered ops)[2]? = some i ∧ i.isAsyncCapable) ∧
    Prompted (reportChain.transcript ops w) ∧
    (∀ op ∈ idle, ¬ op.isPhase) ∧ reportChain.transcript idle w = [] := by
  intro req ops idle w after
  have hlog : reportChain.transcript ops w = [.pre 0 (.ok true), .pre 1 (.ok true),
      .handle (.ok (.async ⟨0, none⟩)), .handOff 0, .handOff 2, .after 0 none, .after 2 none] := rfl
  have hcursor : after.1.cursor = some 1 := rfl
  have hidle : ∀ op ∈ idle, ¬ op.isPhase := by simp [idle, Operation.isPhase]
  obtain ⟨-, hreach, honce, hcapable, hprompted, -⟩ :=
    hand_off_discipline reportChain.handler reportChain.interceptors ops w
  obtain ⟨-, -, -, -, -, hrest⟩ :=
    hand_off_discipline reportChain.handler reportChain.interceptors idle w
  exact ⟨hlog, ⟨hcursor, (hreach 1 hcursor).1⟩, honce, hcapable 2 (hlog ▸ by simp), hprompted,
    hidle, (hrest hidle).1⟩

end Chain

end Switchyard
