import Switchyard.Proofs.Dispatch.Watching
/-!
# Completion under any operations

Completion is kept from happening twice by the state of a chain, which every phase sets anew, and
reaches back from the cursor, which is a place. So interceptors hear of the end of a request once
unless a phase is run behind it, and only if they let the request pass unless one is put in front of
the cursor (`Chain.completion_discipline`).
-/

namespace Switchyard

variable {σ : Type}

namespace Callback

/-- The call tells the interceptor of the number that the request is done. -/
def tells (n : Nat) : Callback → Bool
  | after m _ => m == n
  | _ => false

/-- No interceptor is told that the request is done. -/
def Silent (t : List Callback) : Prop := ∀ n error, .after n error ∉ t

/-- Who is told that the request is done has let it pass before. -/
def Earned (log : List Callback) : Prop :=
  ∀ before n error rest, log = before ++ .after n error :: rest → .pre n (.ok true) ∈ before

variable {t u log : List Callback} {nums : List Nat} {k n : Nat}

theorem Silent.append (ht : Silent t) (hu : Silent u) : Silent (t ++ u) := by
  intro n error hmem
  rcases List.mem_append.mp hmem with hmem | hmem
  · exact ht n error hmem
  · exact hu n error hmem

theorem Silent.map_under (h : Silent t) (nums : List Nat) : Silent (t.map (under nums)) := by
  intro n error hmem
  obtain ⟨b, hb, hunder⟩ := List.mem_map.mp hmem
  cases b with
  | after place e => exact h place e hb
  | _ => cases hunder

private theorem silent_of_map {γ : Type} {f : γ → Callback} (hf : ∀ x n error, f x ≠ .after n error)
    (l : List γ) : Silent (l.map f) := by
  intro n error hmem
  obtain ⟨x, -, hx⟩ := List.mem_map.mp hmem
  exact hf x n error hx

theorem Silent.countP (h : Silent t) (n : Nat) : t.countP (tells n) = 0 := by
  rw [List.countP_eq_zero]
  intro b hb
  cases b with
  | after m error => exact absurd hb (h m error)
  | _ => simp [tells]

private theorem countP_completed (hnums : nums.Nodup) (k n : Nat) (error : Option DispatchError) :
    ((nums.take k).reverse.map (Callback.after · error)).countP (tells n) ≤ 1 := by
  have hreached : (nums.take k).reverse.Nodup :=
    List.nodup_reverse.mpr (hnums.sublist (List.take_sublist k nums))
  rw [List.countP_map]
  exact List.nodup_iff_count_le_one.mp hreached n

private theorem earned_nil : Earned [] := by
  intro before n error rest h
  simp at h

/-- An entry of two lists in a row stands in the first, or in the second behind all of the first. -/
theorem append_eq_append_cons {γ : Type} {l u before rest : List γ} {x : γ}
    (h : l ++ u = before ++ x :: rest) :
    (∃ more, l = before ++ x :: more) ∨ ∃ more, before = l ++ more ∧ u = more ++ x :: rest := by
  rcases List.append_eq_append_iff.mp h with ⟨more, hbefore, hu⟩ | ⟨more, hl, hrest⟩
  · exact .inr ⟨more, hbefore, hu⟩
  · cases more with
    | nil => exact .inr ⟨[], by simpa using hl.symm, by simpa using hrest.symm⟩
    | cons y more =>
      obtain ⟨rfl, -⟩ := List.cons.inj hrest
      exact .inl ⟨more, hl⟩

theorem Earned.append (h : Earned log)
    (hu : ∀ n error, .after n error ∈ u → .pre n (.ok true) ∈ log) : Earned (log ++ u) := by
  intro before n error rest heq
  rcases append_eq_append_cons heq with ⟨more, hlog⟩ | ⟨more, rfl, rfl⟩
  · exact h before n error more hlog
  · exact List.mem_append_left _ (hu n error (by simp))

private theorem Earned.append_silent (h : Earned log) (hu : Silent u) : Earned (log ++ u) :=
  h.append fun n error hmem => absurd hmem (hu n error)

end Callback

def Chain.IsOver (c : Chain σ) : Prop := c.state = .done ∧ c.cursor ≠ none

namespace Operation

def isPhase : Operation σ → Bool
  | preHandle .. | invoke .. | postHandle .. => true
  | _ => false

/-- The operation runs a phase of a chain that is over. -/
def Restarts (c : Chain σ) (op : Operation σ) : Prop := op.isPhase ∧ c.IsOver

/-- The operation moves interceptors that completion reaches to other places. -/
def Displaces (c : Chain σ) : Operation σ → Prop
  | insert place _ => place < Chain.reach c.cursor
  | _ => False

private theorem restarts_watched (op : Operation σ) (c : Chain σ) (es : List (Nat × Interceptor σ))
    (n : Nat) : (op.watched n).Restarts (c.watched es) ↔ op.Restarts c := by cases op <;> rfl

private theorem displaces_watched (op : Operation σ) (c : Chain σ) (es : List (Nat × Interceptor σ))
    (n : Nat) : (op.watched n).Displaces (c.watched es) ↔ op.Displaces c := by cases op <;> rfl

end Operation

namespace Chain

open Callback (Silent Earned tells)

variable {c c' : Chain σ} {op : Operation σ} {t log : List Callback} {nums : List Nat}

/-- An operation ends with telling all that completion reaches, or tells nobody. Only a phase moves
a chain that is over. -/
theorem Took.told (took : Took c op t c') :
    (∃ u error, t = u ++ Callback.completed (reach c'.cursor) error ∧ Silent u ∧
      c'.state = .done ∧ (op.isPhase ∨ ¬ c.IsOver) ∧ ∀ nums, op.enrol nums = nums) ∨
    Silent t ∧ (op.isPhase ∨ c'.state = c.state ∧ c'.cursor = c.cursor) := by
  have hmakes := took.makes
  have silent (hop : ∀ n error, ¬ op.makes (.after n error)) : Silent t :=
    fun n error hmem => hop n error (hmakes _ hmem)
  cases took with
  | passed => exact .inr ⟨Callback.silent_of_map (by simp) _, .inl rfl⟩
  | @stopped _ _ k answer error hk ha =>
    refine .inl ⟨Callback.passed 0 k ++ [.pre k answer], error, by simp, ?_, rfl, .inl rfl,
      fun _ => rfl⟩
    exact (Callback.silent_of_map (by simp) _).append (by simp [Silent])
  | invoked | posted => exact .inr ⟨silent fun _ _ => Bool.false_ne_true, .inl rfl⟩
  | notified => exact .inr ⟨silent fun _ _ => Bool.false_ne_true, .inr ⟨rfl, rfl⟩⟩
  | completed h =>
    refine .inl ⟨[], _, rfl, by simp [Silent], rfl, .inr ?_, fun _ => rfl⟩
    intro hover
    exact h (.inr (.inr hover.1))
  | unnotified | rested | added | inserted => exact .inr ⟨by simp [Silent], .inr ⟨rfl, rfl⟩⟩

/-- As long as no phase is run on a chain that is over, nobody has been told before it is over. -/
theorem Life.told (h : Life (fun op c => ¬ op.Restarts c) c nums log) :
    (Silent log ∨ c.IsOver) ∧ ∀ n, log.countP (tells n) ≤ 1 := by
  induction h with
  | start => exact ⟨.inl (by simp [Silent]), by simp⟩
  | @step c c' nums log t op before hop took ih =>
    -- who is told anything leaves the chain over, and then only a phase could start it again
    obtain ⟨hsilent, honce⟩ := ih
    have horderly := before.orderly.step took
    have hrun (hphase : op.isPhase) : Silent log := hsilent.resolve_right fun hover =>
      hop ⟨hphase, hover⟩
    rcases took.told with ⟨u, error, rfl, hu, hdone, hfirst, henrol⟩ | ⟨ht, hfirst⟩
    · have hlog : Silent log := by
        rcases hfirst with hphase | hon
        · exact hrun hphase
        · exact hsilent.resolve_right hon
      rw [henrol] at horderly
      rw [List.map_append, map_under_completed horderly.reach, ← List.append_assoc]
      have hbefore := hlog.append (hu.map_under nums)
      constructor
      · cases hcursor : c'.cursor with
        | none =>
          left
          simpa [reach] using hbefore
        | some last => exact .inr ⟨hdone, by simp [hcursor]⟩
      · intro n
        rw [List.countP_append, hbefore.countP, Nat.zero_add]
        exact Callback.countP_completed horderly.nodup _ n error
    · have hu := ht.map_under nums
      constructor
      · rcases hfirst with hphase | ⟨hstate, hcursor⟩
        · exact .inl ((hrun hphase).append hu)
        · refine hsilent.imp (fun hlog => hlog.append hu) fun hover => ?_
          exact ⟨hstate.trans hover.1, hcursor ▸ hover.2⟩
      · intro n
        rw [List.countP_append, hu.countP]
        exact honce n

private theorem mem_take_cursorPast {k n : Nat}
    (h : n ∈ nums.take (reach (c.cursorPast k))) :
    n ∈ nums.take k ∨ n ∈ nums.take (reach c.cursor) := by
  cases k with
  | zero => exact .inr h
  | succ k => exact .inl h

/-- As long as none that completion reaches is displaced, all these have let the request pass. -/
theorem Life.known (h : Life (fun op c => ¬ op.Displaces c) c nums log) :
    ∀ n ∈ nums.take (reach c.cursor), .pre n (.ok true) ∈ log := by
  induction h with
  | start => simp [reach]
  | @step c c' nums log t op before hop took ih =>
    have horderly := before.orderly
    have past {k : Nat} (hk : k ≤ c.interceptors.length) {n : Nat}
        (hn : n ∈ nums.take (reach (c.cursorPast k))) :
        .pre n (.ok true) ∈ log ++ (Callback.passed 0 k).map (Callback.under nums) := by
      rw [map_under_passed (horderly.length ▸ hk)]
      rcases mem_take_cursorPast hn with hnew | hold
      · exact List.mem_append_right _ (List.mem_map_of_mem hnew)
      · exact List.mem_append_left _ (ih n hold)
    intro n hn
    cases took with
    | passed => exact past (Nat.le_refl _) hn
    | stopped hk =>
      rw [List.map_append, ← List.append_assoc]
      exact List.mem_append_left _ (past (Nat.le_of_lt hk) hn)
    | invoked | posted | notified | unnotified | completed | rested =>
      exact List.mem_append_left _ (ih n hn)
    | added =>
      change n ∈ (nums ++ [nums.length]).take (reach c.cursor) at hn
      rw [List.take_append_of_le_length horderly.reach] at hn
      exact List.mem_append_left _ (ih n hn)
    | @inserted place i =>
      -- behind all that completion reaches, which keep their places
      have hplace : reach c.cursor ≤ place := Nat.le_of_not_lt hop
      have hlength : reach c.cursor ≤ (nums.take place).length := by
        rw [List.length_take]
        exact Nat.le_min.mpr ⟨hplace, horderly.reach⟩
      change n ∈ (nums.take place ++ nums.length :: nums.drop place).take (reach c.cursor) at hn
      rw [List.take_append_of_le_length hlength, List.take_take, Nat.min_eq_left hplace] at hn
      exact List.mem_append_left _ (ih n hn)

private theorem Life.earned (h : Life (fun op c => ¬ op.Displaces c) c nums log) : Earned log := by
  have hknown := h.known
  induction h with
  | start => exact Callback.earned_nil
  | @step c c' nums log t op before hop took ih =>
    have hlog := ih before.known
    rcases took.told with ⟨u, error, rfl, hu, -, -, henrol⟩ | ⟨ht, -⟩
    · have hreach := (before.orderly.step took).reach
      rw [henrol] at hreach hknown
      rw [List.map_append, map_under_completed hreach, ← List.append_assoc] at hknown ⊢
      apply (hlog.append_silent (hu.map_under nums)).append
      intro n e hmem
      obtain ⟨m, hm, heq⟩ := List.mem_map.mp hmem
      cases heq
      rcases List.mem_append.mp (hknown n (List.mem_reverse.mp hm)) with hpassed | hafter
      · exact hpassed
      · obtain ⟨_, -, heq⟩ := List.mem_map.mp hafter
        cases heq
    · exact hlog.append_silent (ht.map_under _)

variable {P : Operation σ → Chain σ → Prop}
  {P' : Operation (Watched σ) → Chain (Watched σ) → Prop}

/-- Any operations on a new chain are part of the life of a watched one, whose interceptors have the
numbers of their registration. -/
theorem observe_life (hP : ∀ op c es n, P op c → P' (op.watched n) (c.watched es))
    {h : Handler σ} {is : List (Interceptor σ)} {ops : List (Operation σ)} {w : World σ}
    (hops : Throughout P ops { handler := h, interceptors := is } w) :
    Life P' (observe { handler := h, interceptors := is } ops w).1
      ((Operation.enterAll ops (placed is)).map (·.1))
      (transcript { handler := h, interceptors := is } ops w) := by
  have start : Life P' (Chain.watched { handler := h, interceptors := is } (placed is))
      ((placed is).map (·.1)) w.watched.log := by
    have hnums : (placed is).map (·.1) =
        List.range ((placed is).map fun e => e.2.watched e.1).length := by
      rw [map_fst_placed, List.length_map, placed, List.length_map, List.length_zipIdx]
    rw [hnums]
    exact .start _ _
  exact watchAll_life hP (map_snd_placed is).symm start hops

/-- The transcript of any operations on a new chain is that of the life of a watched one. -/
private theorem transcript_life (hP : ∀ op c es n, P op c → P' (op.watched n) (c.watched es))
    {h : Handler σ} {is : List (Interceptor σ)} {ops : List (Operation σ)} {w : World σ}
    (hops : Throughout P ops { handler := h, interceptors := is } w) : ∃ c nums,
      Life P' c nums (transcript { handler := h, interceptors := is } ops w) :=
  ⟨_, _, observe_life hP hops⟩

/-- Operations on a new chain, in any order and with any callbacks. The transcript is that of the
run: watching the callbacks changes neither the chain nor the world. If no phase is run on a chain
that is over, each interceptor is told at most once that the request is done. If none is put in
front of the cursor, only those are told that let the request pass before. -/
theorem completion_discipline (h : Handler σ) (is : List (Interceptor σ))
    (ops : List (Operation σ)) (w : World σ) :
    let c : Chain σ := { handler := h, interceptors := is }
    let after := (performAll ops c).run w
    ((∃ es, (c.observe ops w).1 = after.1.watched es ∧ after.1.interceptors = es.map (·.2)) ∧
      (c.observe ops w).2.unwatched = after.2) ∧
    (Throughout (fun op c => ¬ op.Restarts c) ops c w →
      ∀ n, (c.transcript ops w).countP (tells n) ≤ 1) ∧
    (Throughout (fun op c => ¬ op.Displaces c) ops c w → Earned (c.transcript ops w)) := by
  intro c after
  refine ⟨?_, ?_, ?_⟩
  · exact watchAll_mirrors (c := c) (map_snd_placed is).symm ops w.watched
  · intro hops
    have hlife : ∃ c' nums, Life (fun op c => ¬ op.Restarts c) c' nums (c.transcript ops w) :=
      transcript_life (fun op c es n => mt (op.restarts_watched c es n).mp) hops
    obtain ⟨_, _, hlife⟩ := hlife
    exact hlife.told.2
  · intro hops
    have hlife : ∃ c' nums, Life (fun op c => ¬ op.Displaces c) c' nums (c.transcript ops w) :=
      transcript_life (fun op c es n => mt (op.displaces_watched c es n).mp) hops
    obtain ⟨_, _, hlife⟩ := hlife
    exact hlife.earned

/-- A chain of one interceptor that lets every request pass. -/
def openChain : Chain Unit where
  handler := { name := "page", run := fun _ res => return (.ok .handled, res) }
  interceptors := [{ name := "a" }]

theorem completion_discipline_open :
    let req : Request := { method := .get, path := "/" }
    let ops : List (Operation Unit) :=
      [.preHandle req {}, .insert 1 { name := "b" }, .complete req {} none, .complete req {} none]
    let w : World Unit := ⟨(), #[], #[], #[], #[]⟩
    Throughout (fun op c => ¬ op.Restarts c) ops openChain w ∧
    Throughout (fun op c => ¬ op.Displaces c) ops openChain w ∧
    openChain.transcript ops w = [.pre 0 (.ok true), .after 0 none] ∧
    (∀ n, (openChain.transcript ops w).countP (tells n) ≤ 1) ∧
    Earned (openChain.transcript ops w) := by
  intro req ops w
  have hrestarts : Throughout (fun op c => ¬ op.Restarts c) ops openChain w := by
    refine ⟨?_, ?_, ?_, ?_, trivial⟩
    · rintro ⟨-, hdone, -⟩
      cases hdone
    all_goals
      rintro ⟨hphase, -⟩
      cases hphase
  have hdisplaces : Throughout (fun op c => ¬ op.Displaces c) ops openChain w :=
    ⟨id, Nat.lt_irrefl 1, id, id, trivial⟩
  obtain ⟨-, honce, hearned⟩ :=
    completion_discipline openChain.handler openChain.interceptors ops w
  exact ⟨hrestarts, hdisplaces, rfl, honce hrestarts, hearned hdisplaces⟩

/-- A phase behind completion has an interceptor told twice, and one that is put in front of the
cursor is told in place of the one that was asked. -/
theorem told_twice_or_unasked :
    let req : Request := { method := .get, path := "/" }
    let w : World Unit := ⟨(), #[], #[], #[], #[]⟩
    (openChain.transcript [.preHandle req {}, .complete req {} none, .postHandle req {} none,
      .complete req {} none] w).countP (tells 0) = 2 ∧
    openChain.transcript [.preHandle req {}, .insert 0 { name := "b" }, .complete req {} none] w =
      [.pre 0 (.ok true), .after 1 none] ∧
    ¬ Earned (openChain.transcript
      [.preHandle req {}, .insert 0 { name := "b" }, .complete req {} none] w) := by
  intro req w
  have hunasked : openChain.transcript
      [.preHandle req {}, .insert 0 { name := "b" }, .complete req {} none] w =
        [.pre 0 (.ok true), .after 1 none] := rfl
  refine ⟨rfl, hunasked, ?_⟩
  rw [hunasked]
  intro hearned
  have hasked := hearned [.pre 0 (.ok true)] 1 none [] rfl
  simp at hasked

end Chain

end Switchyard
