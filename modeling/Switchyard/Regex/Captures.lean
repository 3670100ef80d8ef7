import Mathlib.Logic.Relation
import Switchyard.Regex.Spans
/-!
# What groups catch

The relation between places of a text and the texts of the named groups, before a match and after
it. What the search for the preferred match finds is one of its cases (`catches_of_run`).
-/

namespace Switchyard

namespace Groups

variable {g : Groups} {name other : String} {text : List Char}

theorem get?_put_self : (g.put name text).get? name = some text := by
  simp [get?, put]

theorem get?_put_of_ne (h : other ≠ name) : (g.put name text).get? other = g.get? other := by
  rw [get?, get?, put, List.find?_cons_of_neg (by simpa using Ne.symm h), List.find?_filter]
  congr 2
  funext p
  by_cases hp : p.1 = other
  · simp [hp, h]
  · simp [hp]

end Groups

namespace Regex

variable {t : Subject} {r : Regex} {i j : Nat} {g h : Groups}

/-- A place of a text and what the groups caught up to there. -/
abbrev Point := Nat × Groups

def Catches (t : Subject) : Regex → Point → Point → Prop
  | empty, p, q => q = p
  | set chars, p, q => (t.next? p.1).any chars.contains ∧ q = (p.1 + 1, p.2)
  | assert condition, p, q => condition.holds (t.last? p.1) (t.next? p.1) ∧ q = p
  | seq r s, p, q => ∃ m, Catches t r p m ∧ Catches t s m q
  | alt r s, p, q => Catches t r p q ∨ Catches t s p q
  | star _ r, p, q => Relation.ReflTransGen (Catches t r) p q
  | group name r, p, q => ∃ m, Catches t r p m ∧ q = (m.1, m.2.put name (t.between p.1 m.1))

def isGroupless : Regex → Bool
  | empty | set _ | assert _ => true
  | seq r s | alt r s => r.isGroupless && s.isGroupless
  | star _ r => r.isGroupless
  | group .. => false

theorem Catches.spans {p q : Point} (hpq : Catches t r p q) : Spans t r p.1 q.1 := by
  induction r generalizing p q with
  | empty => exact congrArg Prod.fst hpq
  | set chars => exact ⟨hpq.1, congrArg Prod.fst hpq.2⟩
  | assert condition => exact ⟨hpq.1, congrArg Prod.fst hpq.2⟩
  | seq r s ihr ihs =>
    obtain ⟨m, hr, hs⟩ := hpq
    exact ⟨m.1, ihr hr, ihs hs⟩
  | alt r s ihr ihs => exact Or.imp ihr ihs hpq
  | star greedy r ih =>
    induction hpq using Relation.ReflTransGen.head_induction_on with
    | refl => exact .none
    | head hstep _ hrest => exact .step (ih hstep) hrest
  | group name r ih =>
    obtain ⟨m, hr, rfl⟩ := hpq
    have hspans := ih hr
    exact hspans

theorem Catches.groups_eq (hr : r.isGroupless) {p q : Point} (hpq : Catches t r p q) :
    q.2 = p.2 := by
  induction r generalizing p q with
  | empty => exact congrArg Prod.snd hpq
  | set chars => rw [hpq.2]
  | assert condition => rw [hpq.2]
  | seq r s ihr ihs =>
    rw [isGroupless, Bool.and_eq_true] at hr
    obtain ⟨m, hfirst, hsecond⟩ := hpq
    rw [ihs hr.2 hsecond, ihr hr.1 hfirst]
  | alt r s ihr ihs =>
    rw [isGroupless, Bool.and_eq_true] at hr
    exact Or.elim hpq (ihr hr.1) (ihs hr.2)
  | star greedy r ih =>
    induction hpq with
    | refl => rfl
    | tail _ hstep hrest => rw [ih hr hstep, hrest]
  | group name r ih => cases hr

private theorem eq_some_of_orElse {α : Type} {a b : Option α} {out : α}
    (hout : (a.orElse fun _ => b) = some out) : a = some out ∨ b = some out := by
  cases a with
  | none => exact .inr hout
  | some a => exact .inl hout

private theorem exists_of_runStar {step : Nat → Groups → Rest → Option Groups}
    {R : Point → Point → Prop} (hstep : ∀ {i g k out}, step i g k = some out →
      ∃ j h, R (i, g) (j, h) ∧ k j h = some out)
    {greedy : Bool} {fuel : Nat} {k : Rest} {out : Groups}
    (hout : runStar step greedy fuel i g k = some out) :
    ∃ j h, Relation.ReflTransGen R (i, g) (j, h) ∧ k j h = some out := by
  induction fuel generalizing i g with
  | zero => exact ⟨i, g, .refl, hout⟩
  | succ fuel ih =>
    have hnext (hout : step i g (fun j g => if i < j then runStar step greedy fuel j g k else k j g) =
        some out) : ∃ j h, Relation.ReflTransGen R (i, g) (j, h) ∧ k j h = some out := by
      obtain ⟨m, h, hfirst, hrest⟩ := hstep hout
      split at hrest
      · obtain ⟨j, h', hmany, hk⟩ := ih hrest
        exact ⟨j, h', .head hfirst hmany, hk⟩
      · exact ⟨m, h, .single hfirst, hrest⟩
    have hstop (hout : k i g = some out) :
        ∃ j h, Relation.ReflTransGen R (i, g) (j, h) ∧ k j h = some out := ⟨i, g, .refl, hout⟩
    unfold runStar at hout
    split at hout
    · rcases eq_some_of_orElse hout with hout | hout
      · exact hnext hout
      · exact hstop hout
    · rcases eq_some_of_orElse hout with hout | hout
      · exact hstop hout
      · exact hnext hout

/-- What is found for an expression and the rest was found at a point that the expression leads
to. -/
theorem catches_of_run {k : Rest} {out : Groups} (hout : run t r i g k = some out) :
    ∃ j h, Catches t r (i, g) (j, h) ∧ k j h = some out := by
  induction r generalizing i g k out with
  | empty => exact ⟨i, g, rfl, hout⟩
  | set chars =>
    unfold run at hout
    split at hout
    · next hchar => exact ⟨i + 1, g, ⟨hchar, rfl⟩, hout⟩
    · cases hout
  | assert condition =>
    unfold run at hout
    split at hout
    · next hholds => exact ⟨i, g, ⟨hholds, rfl⟩, hout⟩
    · cases hout
  | seq r s ihr ihs =>
    obtain ⟨m, h, hr, hrest⟩ := ihr hout
    obtain ⟨j, h', hs, hk⟩ := ihs hrest
    exact ⟨j, h', ⟨(m, h), hr, hs⟩, hk⟩
  | alt r s ihr ihs =>
    rcases eq_some_of_orElse hout with hout | hout
    · obtain ⟨j, h, hr, hk⟩ := ihr hout
      exact ⟨j, h, .inl hr, hk⟩
    · obtain ⟨j, h, hs, hk⟩ := ihs hout
      exact ⟨j, h, .inr hs, hk⟩
  | star greedy r ih => exact exists_of_runStar (fun hout => ih hout) hout
  | group name r ih =>
    obtain ⟨j, h, hr, hk⟩ := ih hout
    exact ⟨j, _, ⟨(j, h), hr, rfl⟩, hk⟩

theorem catches_of_search {s : List Char} (hg : r.search s = some g) :
    ∃ i j, i ≤ s.length ∧ Catches (.ofText s) r (i, []) (j, g) := by
  unfold search at hg
  dsimp only at hg
  split at hg
  · obtain ⟨i, hi, hrun⟩ := List.exists_of_findSome?_eq_some hg
    obtain ⟨j, h, hcatches, hfound⟩ := catches_of_run hrun
    cases hfound
    have hsize : (Subject.ofText s).size = s.length := by simp [Subject.ofText]
    rw [Subject.places, List.mem_range, hsize] at hi
    exact ⟨i, j, Nat.lt_succ_iff.mp hi, hcatches⟩
  · cases hg

theorem catches_seqs_cons {rs : List Regex} {p q : Point} :
    Catches t (seqs (r :: rs)) p q ↔ ∃ m, Catches t r p m ∧ Catches t (seqs rs) m q := by
  cases rs with
  | nil => simp [seqs, Catches]
  | cons r' rs => rfl

end Regex

end Switchyard
