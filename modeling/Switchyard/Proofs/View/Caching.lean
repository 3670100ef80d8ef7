import Mathlib.Data.List.Induction
import Switchyard.Proofs.Dispatch.Watching
/-!
# Cached views

A resolver with a cache answers what the resolver inside answers, and asks that one only for what was
not used lately. The keys that its cache holds are at all times the most recently used ones
(`ViewResolver.Remembers`), whatever calls came before (`ViewResolver.performAll_remembers`).
-/

namespace Switchyard

variable {σ α : Type}

section

variable [BEq α] [LawfulBEq α] {k : α} {ks : List α} {n : Nat}

private theorem eraseDups_filter (p : α → Bool) : ∀ ks : List α,
    (ks.filter p).eraseDups = ks.eraseDups.filter p
  | [] => by simp
  | k :: ks => by
    rw [List.eraseDups_cons]
    by_cases hk : p k
    · rw [List.filter_cons_of_pos hk, List.filter_cons_of_pos hk, List.eraseDups_cons,
        List.filter_comm, eraseDups_filter p (ks.filter _)]
    · have hrest : (ks.filter fun d => !d == k).filter p = ks.filter p := by
        rw [List.filter_filter]
        apply List.filter_congr
        intro d _
        by_cases hd : d == k
        · rw [eq_of_beq hd]
          simp [hk]
        · simp [hd]
      rw [List.filter_cons_of_neg hk, List.filter_cons_of_neg hk,
        ← eraseDups_filter p (ks.filter _), hrest]
termination_by ks => ks.length
decreasing_by all_goals exact Nat.lt_succ_of_le (List.length_filter_le _ _)

private theorem eraseDups_cons_eq (k : α) (ks : List α) :
    (k :: ks).eraseDups = k :: ks.eraseDups.filter (· != k) := by
  rw [List.eraseDups_cons, eraseDups_filter]
  rfl

private theorem not_mem_filter_ne : k ∉ ks.filter (· != k) := by
  simp

private theorem filter_ne_of_not_mem (hk : k ∉ ks) : ks.filter (· != k) = ks := by
  rw [List.filter_eq_self]
  intro d hd
  rw [bne_iff_ne]
  rintro rfl
  exact hk hd

private theorem nodup_eraseDups (ks : List α) : ks.eraseDups.Nodup := by
  induction ks with
  | nil => simp
  | cons k ks ih =>
    rw [eraseDups_cons_eq, List.nodup_cons]
    exact ⟨not_mem_filter_ne, ih.filter _⟩

private theorem take_filter_ne_of_mem (hks : ks.Nodup) (hk : k ∈ ks.take (n + 1)) :
    (ks.filter (· != k)).take n = (ks.take (n + 1)).filter (· != k) := by
  induction ks generalizing n with
  | nil => cases hk
  | cons d ks ih =>
    rw [List.nodup_cons] at hks
    rw [List.take_succ_cons] at hk ⊢
    by_cases hd : d = k
    · subst hd
      have hfirst : d ∉ ks.take n := fun h => hks.1 (List.mem_of_mem_take h)
      simp [filter_ne_of_not_mem hks.1, filter_ne_of_not_mem hfirst]
    · have hrest : k ∈ ks.take n := (List.mem_cons.mp hk).resolve_left (Ne.symm hd)
      cases n with
      | zero => cases hrest
      | succ n => simp [hd, ih hks.2 hrest]

private theorem take_filter_ne_of_not_mem (hk : k ∉ ks.take n) :
    (ks.filter (· != k)).take n = ks.take n := by
  induction ks generalizing n with
  | nil => rfl
  | cons d ks ih =>
    cases n with
    | zero => rfl
    | succ n =>
      rw [List.take_succ_cons, List.mem_cons, not_or] at hk
      simp [Ne.symm hk.1, ih hk.2]

end

/-- What a resolver answers to a key: a view, none or an error. -/
abbrev ViewSource := ViewKey → Except DispatchError (Option View)

/-- A call to a resolver with a cache. -/
inductive CacheCall where
  | resolve (key : ViewKey) (req : Request)
  | clear

namespace CacheCall

variable {source : ViewSource} {calls : List CacheCall} {key : ViewKey} {req : Request}

def isClear : CacheCall → Bool
  | clear => true
  | _ => false

/-- The key that a call uses: the one it asks for, unless that is answered with an error. -/
def use? (source : ViewSource) : CacheCall → Option ViewKey
  | resolve key _ => if (source key).isOk then some key else none
  | clear => none

/-- The keys that were used since the cache was last cleared, the latest use first. -/
def used (source : ViewSource) (calls : List CacheCall) : List ViewKey :=
  (calls.reverse.takeWhile fun call => !call.isClear).filterMap (use? source)

def recent (n : Nat) (source : ViewSource) (calls : List CacheCall) : List ViewKey :=
  (used source calls).eraseDups.take n

private theorem recent_nil (n : Nat) (source : ViewSource) : recent n source [] = [] := by
  simp [recent, used]

private theorem recent_zero (source : ViewSource) (calls : List CacheCall) :
    recent 0 source calls = [] :=
  List.take_zero

private theorem recent_clear (n : Nat) (source : ViewSource) (calls : List CacheCall) :
    recent n source (calls ++ [clear]) = [] := by
  simp [recent, used, isClear]

private theorem recent_of_error {n : Nat} {e : DispatchError} (hkey : source key = .error e) :
    recent n source (calls ++ [resolve key req]) = recent n source calls := by
  have huse : use? source (resolve key req) = none := by
    rw [use?, hkey]
    rfl
  simp [recent, used, isClear, huse]

private theorem used_of_ok {answer : Option View} (hkey : source key = .ok answer) :
    used source (calls ++ [resolve key req]) = key :: used source calls := by
  have huse : use? source (resolve key req) = some key := by
    rw [use?, hkey]
    rfl
  simp [used, isClear, huse]

/-- A key that is used again comes to the front of the most recent ones. -/
private theorem recent_of_mem {n : Nat} {answer : Option View} (hkey : source key = .ok answer)
    (hrecent : key ∈ recent n source calls) :
    recent n source (calls ++ [resolve key req]) =
      key :: (recent n source calls).filter (· != key) := by
  cases n with
  | zero => cases hrecent
  | succ n =>
    rw [recent, used_of_ok hkey, eraseDups_cons_eq, List.take_succ_cons,
      take_filter_ne_of_mem (nodup_eraseDups _) hrecent]
    rfl

/-- A key that was not used lately comes to the front, and the last of a full row goes. -/
private theorem recent_of_not_mem {n : Nat} {answer : Option View} (hkey : source key = .ok answer)
    (hrecent : key ∉ recent n source calls) :
    recent n source (calls ++ [resolve key req]) = (key :: recent n source calls).take n := by
  cases n with
  | zero => rfl
  | succ n =>
    have hfewer : key ∉ (used source calls).eraseDups.take n :=
      fun h => hrecent (List.take_subset_take_left _ n.le_succ h)
    rw [recent, used_of_ok hkey, eraseDups_cons_eq, List.take_succ_cons, List.take_succ_cons,
      take_filter_ne_of_not_mem hfewer, recent, List.take_take, Nat.min_eq_left n.le_succ]

end CacheCall

namespace ViewCache

variable {source : ViewSource} {c after : ViewCache} {n : Nat} {keys : List ViewKey}
  {key : ViewKey} {answer : Option View}

/-- A cache that holds answers to the given keys, each as its source gives it. -/
structure Holds (c : ViewCache) (n : Nat) (source : ViewSource) (keys : List ViewKey) : Prop where
  limit : c.limit = n
  keys : c.entries.map (·.1) = keys
  answers : ∀ e ∈ c.entries, source e.1 = .ok e.2

private theorem map_without (entries : List (ViewKey × Option View)) (key : ViewKey) :
    (without entries key).map (·.1) = (entries.map (·.1)).filter (· != key) := by
  rw [without, List.filter_map]
  rfl

private theorem Holds.get?_eq_none_iff (h : c.Holds n source keys) :
    c.get? key = none ↔ key ∉ keys := by
  rw [get?, Option.map_eq_none_iff, List.find?_eq_none, ← h.keys, List.mem_map]
  constructor
  · rintro hnone ⟨e, he, rfl⟩
    exact hnone e he (beq_self_eq_true _)
  · intro hkey e he heq
    exact hkey ⟨e, he, eq_of_beq heq⟩

theorem Holds.found (h : c.Holds n source keys) (hget : c.get? key = some (answer, after)) :
    source key = .ok answer ∧ after.Holds n source (key :: keys.filter (· != key)) := by
  obtain ⟨e, hfind, heq⟩ := Option.map_eq_some_iff.mp hget
  cases heq
  have hmem : e ∈ c.entries := List.mem_of_find?_eq_some hfind
  have hmatch := List.find?_some hfind
  obtain rfl : e.1 = key := eq_of_beq hmatch
  refine ⟨h.answers e hmem, h.limit, ?_, ?_⟩
  · rw [List.map_cons, map_without, h.keys]
  · intro d hd
    rcases List.mem_cons.mp hd with rfl | hd
    · exact h.answers d hmem
    · exact h.answers d (List.mem_of_mem_filter hd)

/-- A new answer becomes the latest one, and the last of a full cache goes. -/
theorem Holds.stored (h : c.Holds n source keys) (hlength : keys.length ≤ n) (hnew : key ∉ keys)
    (hkey : source key = .ok answer) :
    (c.store key answer).2.Holds n source ((key :: keys).take n) := by
  have hwithout : (without c.entries key).map (·.1) = keys := by
    rw [map_without, h.keys, filter_ne_of_not_mem hnew]
  have hcount : (without c.entries key).length = keys.length := by
    rw [← hwithout, List.length_map]
  have hanswers : ∀ e ∈ (key, answer) :: without c.entries key, source e.1 = .ok e.2 := by
    intro e he
    rcases List.mem_cons.mp he with rfl | he
    · exact hkey
    · exact h.answers e (List.mem_of_mem_filter he)
  rw [ViewCache.store, h.limit]
  by_cases hzero : n = 0
  · subst hzero
    obtain rfl : keys = [] := List.eq_nil_of_length_eq_zero (Nat.le_zero.mp hlength)
    exact h
  · rw [if_neg hzero]
    dsimp only
    rw [List.length_cons, hcount]
    by_cases hfull : n < keys.length + 1
    · rw [if_pos hfull]
      refine ⟨rfl, ?_, fun e he => hanswers e (List.dropLast_subset _ he)⟩
      rw [List.dropLast_eq_take, List.map_take, List.map_cons, hwithout, List.length_cons, hcount]
      congr 1
      omega
    · rw [if_neg hfull]
      refine ⟨rfl, ?_, hanswers⟩
      rw [List.map_cons, hwithout, List.take_of_length_le (by rw [List.length_cons]; omega)]

end ViewCache

namespace ViewResolver

variable {inner : ViewResolver σ} {cache n : Nat} {source : ViewSource} {calls : List CacheCall}
  {key : ViewKey} {req : Request} {w : World σ}

/-- A resolver whose answers depend on view name and locale alone. It has no access to the cache of the
given number, which belongs to the resolver around it. -/
structure Follows (r : ViewResolver σ) (cache : Nat) (source : ViewSource) : Prop where
  answers : ∀ name locale req w, ((r.resolve name locale req).run w).1.1 = source (name, locale)
  spares : ∀ name locale req w,
    ((r.resolve name locale req).run w).2.caches[cache]? = w.caches[cache]?

/-- Makes a call to the resolver with a cache around another one. -/
def perform (cache : Nat) (inner : ViewResolver σ) : CacheCall → Act σ Unit
  | .resolve key req => do let _ ← (caching cache inner).resolve key.1 key.2 req
  | .clear => do Act.setCache cache (← Act.getCache cache).clear

def performAll (cache : Nat) (inner : ViewResolver σ) (calls : List CacheCall) : Act σ Unit :=
  calls.forM (perform cache inner)

/-- The resolver, which enters what it is asked in a log beside the application's state. -/
def logged (r : ViewResolver σ) : ViewResolver (σ × List ViewKey) where
  order := r.order
  resolve name locale req := fun w =>
    let (answer, after) := (r.resolve name locale req).run (w.withApp w.app.1)
    (answer, after.withApp (after.app, w.app.2 ++ [(name, locale)]))

/-- What the inner resolver is asked in the course of some calls. -/
def asked (cache : Nat) (inner : ViewResolver σ) (calls : List CacheCall) (w : World σ) :
    List ViewKey :=
  ((performAll cache inner.logged calls).run (w.withApp (w.app, []))).2.app.2

/-- The cache of a resolver after some calls: it holds the answers to the most recent keys. -/
def Remembers (cache n : Nat) (source : ViewSource) (calls : List CacheCall) (w : World σ) : Prop :=
  ∃ c, w.caches[cache]? = some c ∧ c.Holds n source (CacheCall.recent n source calls)

private theorem Follows.logged (h : inner.Follows cache source) :
    inner.logged.Follows cache source where
  answers name locale req w := h.answers name locale req (w.withApp w.app.1)
  spares name locale req w := h.spares name locale req (w.withApp w.app.1)

private theorem getCache_run {c : ViewCache} (hc : w.caches[cache]? = some c) :
    (Act.getCache cache).run w = (c, w) := by
  have hget : w.caches.getD cache default = c := by simp [hc]
  rw [← hget]
  rfl

private theorem remembers_set {c after : ViewCache} (hc : w.caches[cache]? = some c)
    (hafter : after.Holds n source (CacheCall.recent n source calls)) (journal : Array Event) :
    Remembers cache n source calls
      { w with journal, caches := w.caches.setIfInBounds cache after } := by
  obtain ⟨hlt, -⟩ := Array.getElem?_eq_some_iff.mp hc
  exact ⟨after, Array.getElem?_setIfInBounds_self_of_lt hlt, hafter⟩

private theorem caching_run_of_found {c after : ViewCache} {answer : Option View}
    (hc : w.caches[cache]? = some c) (hget : c.get? key = some (answer, after)) :
    ((caching cache inner).resolve key.1 key.2 req).run w =
      ((.ok answer, []), { w with caches := w.caches.setIfInBounds cache after }) := by
  simp only [caching]
  rw [StateT.run_bind, getCache_run hc]
  dsimp only [bind, pure]
  rw [hget]
  rfl

private theorem caching_run_of_error {c : ViewCache} {w' : World σ} {e : DispatchError}
    {published : List Attribute} (hc : w.caches[cache]? = some c) (hget : c.get? key = none)
    (run : (inner.resolve key.1 key.2 req).run w = ((.error e, published), w')) :
    ((caching cache inner).resolve key.1 key.2 req).run w = ((.error e, published), w') := by
  simp only [caching]
  rw [StateT.run_bind, getCache_run hc]
  dsimp only [bind, pure]
  rw [hget]
  change ((inner.resolve key.1 key.2 req >>= _).run w) = _
  rw [StateT.run_bind, run]
  rfl

private theorem caching_run_of_answer {c c' : ViewCache} {w' : World σ} {answer : Option View}
    {published : List Attribute} (hc : w.caches[cache]? = some c) (hget : c.get? key = none)
    (run : (inner.resolve key.1 key.2 req).run w = ((.ok answer, published), w'))
    (hc' : w'.caches[cache]? = some c') :
    ∃ journal, ((caching cache inner).resolve key.1 key.2 req).run w = ((.ok answer, published),
      { w' with journal, caches := w'.caches.setIfInBounds cache (c'.store key answer).2 }) := by
  obtain ⟨name, locale⟩ := key
  simp only [caching]
  rw [StateT.run_bind, getCache_run hc]
  dsimp only [bind, pure]
  rw [hget]
  change ∃ journal, (inner.resolve name locale req >>= _).run w = _
  rw [StateT.run_bind, run]
  change ∃ journal, (Act.emit _ >>= fun _ => Act.getCache cache >>= _).run w' = _
  rw [StateT.run_bind]
  change ∃ journal, (Act.getCache cache >>= _).run (w'.reported _) = _
  rw [StateT.run_bind, getCache_run (w := w'.reported _) hc']
  dsimp only [bind]
  generalize c'.store (name, locale) answer = stored
  obtain ⟨evicted, after⟩ := stored
  cases evicted with
  | none => exact ⟨_, rfl⟩
  | some old => exact ⟨_, rfl⟩

/-- A call for a recent key does not reach the inner resolver. -/
private theorem resolve_recent (inner : ViewResolver σ) (req : Request)
    (hw : Remembers cache n source calls w)
    (hrecent : key ∈ CacheCall.recent n source calls) :
    ∃ answer after, ((caching cache inner).resolve key.1 key.2 req).run w = (answer, after) ∧
      answer.1 = source key ∧ after.app = w.app ∧
      Remembers cache n source (calls ++ [.resolve key req]) after := by
  obtain ⟨c, hc, hholds⟩ := hw
  have hfound : c.get? key ≠ none := fun hnone => hholds.get?_eq_none_iff.mp hnone hrecent
  obtain ⟨⟨answer, after⟩, hget⟩ := Option.ne_none_iff_exists'.mp hfound
  obtain ⟨hkey, hafter⟩ := hholds.found hget
  rw [← CacheCall.recent_of_mem hkey hrecent] at hafter
  refine ⟨_, _, caching_run_of_found hc hget, hkey.symm, rfl, ?_⟩
  exact remembers_set hc hafter w.journal

/-- Any other call is one to the inner resolver. -/
private theorem resolve_new (req : Request) (hinner : inner.Follows cache source)
    (hw : Remembers cache n source calls w)
    (hnew : key ∉ CacheCall.recent n source calls) :
    ∃ answer after, ((caching cache inner).resolve key.1 key.2 req).run w = (answer, after) ∧
      answer.1 = source key ∧ after.app = ((inner.resolve key.1 key.2 req).run w).2.app ∧
      Remembers cache n source (calls ++ [.resolve key req]) after := by
  obtain ⟨c, hc, hholds⟩ := hw
  have hget := hholds.get?_eq_none_iff.mpr hnew
  have hanswer := hinner.answers key.1 key.2 req w
  have hspares := hinner.spares key.1 key.2 req w
  generalize hrun : (inner.resolve key.1 key.2 req).run w = ran at hanswer hspares
  obtain ⟨⟨answer, published⟩, w'⟩ := ran
  have hc' : w'.caches[cache]? = some c := hspares.trans hc
  cases answer with
  | error e =>
    refine ⟨_, _, caching_run_of_error hc hget hrun, hanswer, rfl, c, hc', ?_⟩
    rw [CacheCall.recent_of_error hanswer.symm]
    exact hholds
  | ok answer =>
    obtain ⟨journal, run⟩ := caching_run_of_answer hc hget hrun hc'
    have hstored := hholds.stored (List.length_take_le n _) hnew hanswer.symm
    rw [← CacheCall.recent_of_not_mem hanswer.symm hnew] at hstored
    exact ⟨_, _, run, hanswer, rfl, remembers_set hc' hstored journal⟩

private theorem clear_remembers (hw : Remembers cache n source calls w) :
    Remembers cache n source (calls ++ [.clear]) ((perform cache inner .clear).run w).2 := by
  obtain ⟨c, hc, hholds⟩ := hw
  have hrun : (perform cache inner .clear).run w =
      ((), { w with caches := w.caches.setIfInBounds cache c.clear }) := by
    rw [perform, StateT.run_bind, getCache_run hc]
    rfl
  rw [hrun]
  apply remembers_set hc _ w.journal
  rw [CacheCall.recent_clear]
  exact ⟨hholds.limit, rfl, fun e he => nomatch he⟩

private theorem perform_remembers (hinner : inner.Follows cache source)
    (hw : Remembers cache n source calls w) (call : CacheCall) :
    Remembers cache n source (calls ++ [call]) ((perform cache inner call).run w).2 := by
  cases call with
  | clear => exact clear_remembers hw
  | resolve key req =>
    rw [perform, StateT.run_bind]
    by_cases hrecent : key ∈ CacheCall.recent n source calls
    · obtain ⟨answer, after, hrun, -, -, hafter⟩ := resolve_recent inner req hw hrecent
      rw [hrun]
      exact hafter
    · obtain ⟨answer, after, hrun, -, -, hafter⟩ := resolve_new req hinner hw hrecent
      rw [hrun]
      exact hafter

private theorem performAll_append (cache : Nat) (inner : ViewResolver σ) (calls : List CacheCall)
    (call : CacheCall) (w : World σ) :
    (performAll cache inner (calls ++ [call])).run w =
      (perform cache inner call).run ((performAll cache inner calls).run w).2 := by
  rw [performAll, List.forM_eq_forM, List.forM_append]
  rfl

/-- After any calls the cache holds the answers to the most recent keys. -/
theorem performAll_remembers (hinner : inner.Follows cache source)
    (hw : w.caches[cache]? = some { limit := n }) (calls : List CacheCall) :
    Remembers cache n source calls ((performAll cache inner calls).run w).2 := by
  induction calls using List.reverseRecOn with
  | nil =>
    refine ⟨_, hw, rfl, ?_, fun e he => nomatch he⟩
    rw [CacheCall.recent_nil]
    rfl
  | append_singleton calls call ih =>
    rw [performAll_append]
    exact perform_remembers hinner ih call

private theorem asked_append (hinner : inner.Follows cache source)
    (hw : w.caches[cache]? = some { limit := n }) (calls : List CacheCall) :
    asked cache inner (calls ++ [.resolve key req]) w =
      asked cache inner calls w ++
        if key ∈ CacheCall.recent n source calls then [] else [key] := by
  have hbefore := performAll_remembers (w := w.withApp (w.app, [])) hinner.logged hw calls
  rw [asked, performAll_append, asked, perform, StateT.run_bind]
  generalize ((performAll cache inner.logged calls).run (w.withApp (w.app, []))).2 = before at hbefore ⊢
  by_cases hrecent : key ∈ CacheCall.recent n source calls
  · obtain ⟨answer, after, hrun, -, happ, -⟩ :=
      resolve_recent inner.logged req hbefore hrecent
    rw [hrun, if_pos hrecent, List.append_nil]
    exact congrArg (·.2) happ
  · obtain ⟨answer, after, hrun, -, happ, -⟩ :=
      resolve_new req hinner.logged hbefore hrecent
    rw [hrun, if_neg hrecent]
    exact congrArg (·.2) happ

/-- A resolver with a cache answers what the resolver inside answers, errors included. Whatever was
called before, the cache holds answers to the `n` keys at most that were used last, errors never among
them, and the resolver inside is asked for the others only. -/
theorem caching_transparent (hinner : inner.Follows cache source)
    (hw : w.caches[cache]? = some { limit := n }) (calls : List CacheCall) (key : ViewKey)
    (req : Request) :
    let before := ((performAll cache inner calls).run w).2
    (∃ c, before.caches[cache]? = some c ∧ c.size ≤ n ∧
      c.entries.map (·.1) = CacheCall.recent n source calls ∧
      ∀ e ∈ c.entries, source e.1 = .ok e.2) ∧
    (((caching cache inner).resolve key.1 key.2 req).run before).1.1 = source key ∧
    asked cache inner (calls ++ [.resolve key req]) w =
      asked cache inner calls w ++
        (if key ∈ CacheCall.recent n source calls then [] else [key]) ∧
    (n = 0 → key ∉ CacheCall.recent n source calls) := by
  have hbefore := performAll_remembers hinner hw calls
  refine ⟨?_, ?_, asked_append hinner hw calls, ?_⟩
  · obtain ⟨c, hc, hholds⟩ := hbefore
    refine ⟨c, hc, ?_, hholds.keys, hholds.answers⟩
    rw [ViewCache.size, ← List.length_map (·.1), hholds.keys]
    exact List.length_take_le n _
  · by_cases hrecent : key ∈ CacheCall.recent n source calls
    · obtain ⟨answer, after, hrun, hanswer, -⟩ :=
        resolve_recent inner req hbefore hrecent
      rw [hrun]
      exact hanswer
    · obtain ⟨answer, after, hrun, hanswer, -⟩ := resolve_new req hinner hbefore hrecent
      rw [hrun]
      exact hanswer
  · rintro rfl
    rw [CacheCall.recent_zero]
    exact List.not_mem_nil

def keyed (source : ViewSource) : ViewResolver σ where
  resolve name locale _ := return (source (name, locale), [])

private theorem keyed_follows (source : ViewSource) (cache : Nat) :
    (keyed source : ViewResolver σ).Follows cache source :=
  ⟨fun _ _ _ _ => rfl, fun _ _ _ _ => rfl⟩

def homeOnly : ViewSource := fun key =>
  if key.1 = "home" then .ok (some (.json))
  else if key.1 = "broken" then .error (.viewNotResolved key.1)
  else .ok none

/-- With room for two: the use of `home` in between saves it, and `page` has to go. -/
theorem caching_transparent_two :
    let inner : ViewResolver Unit := keyed homeOnly
    let w : World Unit := ((Act.newCache 2).run ⟨(), #[], #[], #[], #[]⟩).2
    let req : Request := .new .get "/"
    let ask (name : String) : CacheCall := .resolve (name, "en") req
    let calls := [ask "home", ask "page", ask "broken", ask "home", ask "other"]
    inner.Follows 0 homeOnly ∧ w.caches[0]? = some { limit := 2 } ∧
      asked 0 inner (calls ++ [ask "home"]) w =
        [("home", "en"), ("page", "en"), ("broken", "en"), ("other", "en")] ∧
      asked 0 inner (calls ++ [ask "page"]) w =
        [("home", "en"), ("page", "en"), ("broken", "en"), ("other", "en"), ("page", "en")] := by
  intro inner w req ask calls
  have hcalls : asked 0 inner calls w =
      [("home", "en"), ("page", "en"), ("broken", "en"), ("other", "en")] := by
    rfl
  have hkeys : CacheCall.recent 2 homeOnly calls = [("other", "en"), ("home", "en")] := by
    decide
  refine ⟨keyed_follows _ _, rfl, ?_, ?_⟩
  · obtain ⟨-, -, hasked, -⟩ :=
      caching_transparent (keyed_follows homeOnly 0) (w := w) rfl calls ("home", "en") req
    rw [hasked, hcalls, hkeys]
    rfl
  · obtain ⟨-, -, hasked, -⟩ :=
      caching_transparent (keyed_follows homeOnly 0) (w := w) rfl calls ("page", "en") req
    rw [hasked, hcalls, hkeys]
    rfl

end ViewResolver

end Switchyard
