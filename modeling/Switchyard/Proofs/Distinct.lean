/-!
# Keeping the first of the same

Lists to which an entry is added unless one that counts as the same is there. What the entries of a
list have in common with all that are the same survives (`any_keepNew`), and entries may be merged
among themselves first, with the same result in the same order (`keepNew_keepNew`).
-/

namespace Switchyard

variable {α : Type} (same : α → α → Bool)

def addNew (kept : List α) (e : α) : List α :=
  if kept.any (same · e) then kept else kept ++ [e]

/-- The entries kept so far and the new ones of a list. -/
def keepNew (kept entries : List α) : List α := entries.foldl (addNew same) kept

variable {same} {kept more entries : List α} {e : α}

private theorem addNew_of_known (h : kept.any (same · e)) : addNew same kept e = kept := if_pos h

private theorem addNew_of_new (h : ¬ kept.any (same · e)) :
    addNew same kept e = kept ++ [e] := if_neg h

private theorem any_addNew {p : α → Bool} (hp : ∀ x y, same x y → p x = p y) :
    (addNew same kept e).any p = (kept.any p || p e) := by
  by_cases hknown : kept.any (same · e)
  · rw [addNew_of_known hknown]
    obtain ⟨k, hk, hsame⟩ := List.any_eq_true.mp hknown
    cases hpe : p e with
    | false => rw [Bool.or_false]
    | true =>
      rw [Bool.or_true]
      exact List.any_eq_true.mpr ⟨k, hk, (hp k e hsame).trans hpe⟩
  · rw [addNew_of_new hknown]
    simp

/-- A property that does not tell the same entries apart holds of one that is kept when it holds of
any. -/
theorem any_keepNew {p : α → Bool} (hp : ∀ x y, same x y → p x = p y) :
    (keepNew same kept entries).any p = (kept.any p || entries.any p) := by
  induction entries generalizing kept with
  | nil => simp [keepNew]
  | cons e entries ih =>
    rw [List.any_cons, ← Bool.or_assoc, ← any_addNew hp]
    exact ih

theorem mem_map_keepNew {β : Type} [DecidableEq β] {key : α → β}
    (hkey : ∀ x y, same x y → key x = key y) {k : β} :
    k ∈ (keepNew same kept entries).map key ↔ k ∈ kept.map key ∨ k ∈ entries.map key := by
  have hany (l : List α) : k ∈ l.map key ↔ (l.any fun e => key e == k) = true := by
    simp
  rw [hany, hany, hany, any_keepNew fun x y hsame => by rw [hkey x y hsame], Bool.or_eq_true]

theorem mem_of_mem_keepNew (h : e ∈ keepNew same kept entries) : e ∈ kept ∨ e ∈ entries := by
  induction entries generalizing kept with
  | nil => exact .inl h
  | cons d entries ih =>
    rcases ih h with hkept | hentries
    · by_cases hknown : kept.any (same · d)
      · rw [addNew_of_known hknown] at hkept
        exact .inl hkept
      · rw [addNew_of_new hknown, List.mem_append, List.mem_singleton] at hkept
        exact hkept.imp_right fun hd => List.mem_cons.mpr (.inl hd)
    · exact .inr (List.mem_cons_of_mem d hentries)

private theorem mem_keepNew_of_mem (h : e ∈ kept) : e ∈ keepNew same kept entries := by
  induction entries generalizing kept with
  | nil => exact h
  | cons d entries ih =>
    have hkept : e ∈ addNew same kept d := by
      by_cases hknown : kept.any (same · d)
      · rwa [addNew_of_known hknown]
      · rw [addNew_of_new hknown]
        exact List.mem_append_left _ h
    exact ih hkept

/-- An entry that is the same as itself is the same as one that is kept. -/
theorem exists_mem_keepNew (hself : same e e) (he : e ∈ entries) :
    ∃ k ∈ keepNew same kept entries, same k e := by
  induction entries generalizing kept with
  | nil => cases he
  | cons d entries ih =>
    rcases List.mem_cons.mp he with rfl | he
    · have hadded : ∃ k ∈ addNew same kept e, same k e := by
        by_cases hknown : kept.any (same · e)
        · rw [addNew_of_known hknown]
          exact List.any_eq_true.mp hknown
        · rw [addNew_of_new hknown]
          exact ⟨e, by simp, hself⟩
      obtain ⟨k, hk, hsame⟩ := hadded
      have hlater : k ∈ keepNew same (addNew same kept e) entries := mem_keepNew_of_mem hk
      exact ⟨k, hlater, hsame⟩
    · exact ih he

private theorem keepNew_of_known (h : ∀ e ∈ entries, kept.any (same · e)) :
    keepNew same kept entries = kept := by
  induction entries with
  | nil => rfl
  | cons e entries ih =>
    rw [List.forall_mem_cons] at h
    exact (congrArg (keepNew same · entries) (addNew_of_known h.1)).trans (ih h.2)

theorem keepNew_again (hself : ∀ e, same e e) :
    keepNew same (keepNew same kept entries) entries = keepNew same kept entries := by
  apply keepNew_of_known
  intro e he
  have hkept : ∃ k ∈ keepNew same kept entries, same k e := exists_mem_keepNew (hself e) he
  obtain ⟨k, hk, hsame⟩ := hkept
  exact List.any_eq_true.mpr ⟨k, hk, hsame⟩

theorem exists_keepNew_eq_append (kept entries : List α) :
    ∃ added, keepNew same kept entries = kept ++ added ∧ added.Sublist entries := by
  induction entries generalizing kept with
  | nil => exact ⟨[], (List.append_nil kept).symm, .slnil⟩
  | cons e entries ih =>
    obtain ⟨added, hadded, hsub⟩ := ih (addNew same kept e)
    by_cases hknown : kept.any (same · e)
    · rw [addNew_of_known hknown] at hadded
      exact ⟨added, (congrArg (keepNew same · entries) (addNew_of_known hknown)).trans hadded,
        hsub.cons e⟩
    · rw [addNew_of_new hknown, List.append_assoc] at hadded
      exact ⟨e :: added, (congrArg (keepNew same · entries) (addNew_of_new hknown)).trans hadded,
        hsub.cons_cons e⟩

theorem pairwise_keepNew (h : kept.Pairwise fun k d => ¬ same k d) :
    (keepNew same kept entries).Pairwise fun k d => ¬ same k d := by
  induction entries generalizing kept with
  | nil => exact h
  | cons d entries ih =>
    apply ih
    by_cases hknown : kept.any (same · d)
    · rwa [addNew_of_known hknown]
    · rw [addNew_of_new hknown, List.pairwise_append]
      refine ⟨h, List.pairwise_singleton _ _, ?_⟩
      intro k hk d' hd' hsame
      rw [List.mem_singleton.mp hd'] at hsame
      exact hknown (List.any_eq_true.mpr ⟨k, hk, hsame⟩)

theorem keepNew_append : keepNew same kept (more ++ entries) =
    keepNew same (keepNew same kept more) entries := List.foldl_append

/-- What is added is the new entries, of those that are the same the first. -/
theorem keepNew_eq_append (hsymm : ∀ x y, same x y = same y x) (kept entries : List α) :
    keepNew same kept entries =
      kept ++ (entries.filter fun e => !kept.any (same · e)).eraseDupsBy same := by
  induction entries generalizing kept with
  | nil => simp [keepNew]
  | cons e entries ih =>
    by_cases hknown : kept.any (same · e)
    · have hstep : keepNew same kept (e :: entries) = keepNew same kept entries :=
        congrArg (keepNew same · entries) (addNew_of_known hknown)
      rw [hstep, ih, List.filter_cons_of_neg (by simp [hknown])]
    · have hstep : keepNew same kept (e :: entries) = keepNew same (kept ++ [e]) entries :=
        congrArg (keepNew same · entries) (addNew_of_new hknown)
      rw [hstep, ih, List.filter_cons_of_pos (by simpa using hknown), List.eraseDupsBy_cons,
        List.filter_filter, List.append_assoc, List.singleton_append]
      congr 3
      apply List.filter_congr
      intro d _
      rw [hsymm d e, List.any_append, List.any_cons, List.any_nil]
      cases same e d <;> simp

/-- Entries may be merged among themselves first. -/
theorem keepNew_keepNew (hsame : ∀ x y z, same x y → same x z = same y z) :
    keepNew same kept (keepNew same more entries) =
      keepNew same (keepNew same kept more) entries := by
  induction entries generalizing more with
  | nil => rfl
  | cons e entries ih =>
    change keepNew same kept (keepNew same (addNew same more e) entries) =
      keepNew same (addNew same (keepNew same kept more) e) entries
    rw [ih]
    congr 1
    by_cases hknown : more.any (same · e)
    · have hkept : (keepNew same kept more).any (same · e) := by
        rw [any_keepNew fun x y h => hsame x y e h, hknown, Bool.or_true]
      rw [addNew_of_known hknown, addNew_of_known hkept]
    · rw [addNew_of_new hknown, keepNew_append]
      rfl

end Switchyard
