import Switchyard.Proofs.Regex.Classes
import Switchyard.Proofs.Regex.Writing
/-!
# The bodies of groups

A text that is an expression of its own, and one between parentheses, is the whole body of a group
wherever it stands in one (`IsGroupBody.readsTo`): the reader takes it up to the parenthesis behind it,
and makes the same of it. An expression of its own alone need not be: it may end in a comment, which
takes up the parenthesis.
-/

namespace Switchyard.Regex

variable {s t u v rest : List Char} {r r' : Reader} {branches : List Regex} {parts : Parts}
  {node : Regex} {repeatable : Bool} {fuel : Nat}

private theorem escape_append (h : r.escape s = .ok (node, v)) (hstops : Stops v t) :
    r.escape (s ++ t) = .ok (node, v ++ t) := by
  unfold Reader.escape at h ⊢
  obtain ⟨⟨e, after⟩, he, h⟩ := except_bind_ok h
  cases e with
  | literal c =>
    obtain ⟨node', hnode, h⟩ := except_bind_ok h
    cases h
    rw [readEscape_append he hstops]
    change (r.literal c >>= _) = _
    rw [hnode]
    rfl
  | chars set =>
    obtain ⟨node', hnode, h⟩ := except_bind_ok h
    cases h
    rw [readEscape_append he hstops]
    change (r.flags.node set >>= _) = _
    rw [hnode]
    rfl
  | assertion a =>
    cases h
    rw [readEscape_append he hstops]
    rfl

/-- What comes next does not depend on what stands behind it, unless it is the end, or the beginning of
a group without anything in it. -/
private theorem readSignAt_append {c : Char} {sign : Sign}
    (h : readSignAt r repeatable c s = .ok (sign, v))
    (hclose : sign ≠ .close) (hbody : ∀ f name, sign = .opening (.body f name) → v ≠ [])
    (hstops : Stops v t) : readSignAt r repeatable c (s ++ t) = .ok (sign, v ++ t) := by
  unfold readSignAt at h ⊢
  split at h
  case h_1 =>
    cases h
    exact absurd rfl hclose
  case h_3 =>
    obtain ⟨⟨o, after⟩, ho, h⟩ := except_bind_ok h
    cases h
    have hskip : skipIgnored r.flags s ≠ [] := by
      intro hnil
      rw [hnil] at ho
      cases ho
      exact hbody _ _ rfl rfl
    rw [skipIgnored_append hskip, readOpening_append ho hskip]
    rfl
  case h_7 =>
    split at h
    · cases h
    · next hrepeatable =>
      obtain ⟨⟨least, most, after⟩, hcounts, h⟩ := except_bind_ok h
      cases h
      dsimp only
      rw [if_neg hrepeatable, readCounts_append hcounts]
      rfl
  case h_8 =>
    obtain ⟨⟨chars, after⟩, hchars, h⟩ := except_bind_ok h
    obtain ⟨node, hnode, h⟩ := except_bind_ok h
    cases h
    have hinner : (openClass r.flags s).2.2 ≠ [] := by
      intro hnil
      rw [hnil] at hchars
      exact readClass_nil hchars
    have happend := readClass_add_fuel (readClass_append hchars t) t.length
    dsimp only
    rw [openClass_append hinner]
    dsimp only
    rw [List.length_append, Nat.add_right_comm, happend]
    change (r.flags.node chars >>= _) = _
    rw [hnode]
    rfl
  case h_9 | h_13 =>
    obtain ⟨node, hnode, h⟩ := except_bind_ok h
    cases h
    rw [hnode]
    rfl
  case h_12 =>
    obtain ⟨⟨node, after⟩, hnode, h⟩ := except_bind_ok h
    cases h
    dsimp only
    rw [escape_append hnode hstops]
    rfl
  all_goals
    cases h
    rfl

private theorem readSign_append {sign : Sign} (h : readSign r repeatable s = .ok (sign, v))
    (hclose : sign ≠ .close) (hbody : ∀ f name, sign = .opening (.body f name) → v ≠ [])
    (hstops : Stops v t) : readSign r repeatable (s ++ t) = .ok (sign, v ++ t) := by
  unfold readSign at h ⊢
  cases hs : skipIgnored r.flags s with
  | nil =>
    rw [hs] at h
    cases h
    exact absurd rfl hclose
  | cons c rest =>
    rw [hs] at h
    rw [skipIgnored_append (by rw [hs]; simp), hs]
    exact readSignAt_append h hclose hbody hstops

private theorem readSign_blank (h : skipIgnored r.flags s = []) (repeatable : Bool) :
    readSign r repeatable s = .ok (.close, []) := by
  rw [readSign, h]

private theorem readSign_closing (h : skipIgnored r.flags s = ')' :: u) (repeatable : Bool) :
    readSign r repeatable s = .ok (.close, ')' :: u) := by
  rw [readSign, h]
  rfl

private theorem eq_of_readSignAt_close {c : Char}
    (h : readSignAt r repeatable c s = .ok (.close, u)) : u = c :: s ∧ c = ')' := by
  unfold readSignAt at h
  split at h
  case h_1 =>
    cases h
    exact ⟨rfl, rfl⟩
  case h_7 =>
    split at h
    · cases h
    · obtain ⟨counts, -, h⟩ := except_bind_ok h
      cases h
  case h_8 =>
    obtain ⟨chars, -, h⟩ := except_bind_ok h
    obtain ⟨node, -, h⟩ := except_bind_ok h
    cases h
  case h_3 | h_9 | h_12 | h_13 =>
    obtain ⟨read, -, h⟩ := except_bind_ok h
    cases h
  all_goals cases h

private theorem readSign_close (h : readSign r repeatable s = .ok (.close, u)) :
    skipIgnored r.flags s = u ∧ (u = [] ∨ ∃ more, u = ')' :: more) := by
  unfold readSign at h
  cases hs : skipIgnored r.flags s with
  | nil =>
    rw [hs] at h
    cases h
    exact ⟨rfl, .inl rfl⟩
  | cons c rest =>
    rw [hs] at h
    obtain ⟨rfl, rfl⟩ := eq_of_readSignAt_close h
    exact ⟨rfl, .inr ⟨rest, rfl⟩⟩

section

variable {body : Regex} {least : Nat} {most : Option Nat}

/-- Without a question mark behind it, a repetition is the same at the end of a text. -/
private theorem repetition_of_head_ne (h : (skipIgnored r.flags s).head? ≠ some '?') :
    r.repetition body least most s =
      (r.repetition body least most []).map fun (node, _) => (node, s) := by
  unfold Reader.repetition
  generalize (if body.isZeroWidth then (min least 1, most.map (min · 1)) else (least, most)) =
    counts
  rw [skipIgnored_nil]
  dsimp only
  split
  · rfl
  · split
    · next hskip =>
      rw [hskip] at h
      exact absurd rfl h
    · rfl

private theorem repetition_question (h : skipIgnored r.flags s = '?' :: rest) (t : List Char)
    (h' : skipIgnored r.flags (s ++ t) = '?' :: (rest ++ t)) :
    r.repetition body least most (s ++ t) =
      (r.repetition body least most s).map fun (node, v) => (node, v ++ t) := by
  unfold Reader.repetition
  generalize (if body.isZeroWidth then (min least 1, most.map (min · 1)) else (least, most)) =
    counts
  rw [h, h']
  dsimp only
  split <;> rfl

private theorem repetition_append (h : r.repetition body least most s = .ok (node, v))
    (hs : skipIgnored r.flags s ≠ []) (t : List Char) :
    r.repetition body least most (s ++ t) = .ok (node, v ++ t) := by
  have happend := skipIgnored_append hs t
  cases hskip : skipIgnored r.flags s with
  | nil => exact absurd hskip hs
  | cons c rest =>
    rw [hskip, List.cons_append] at happend
    by_cases hc : c = '?'
    · subst hc
      rw [repetition_question hskip t happend, h]
      rfl
    · have hne : (skipIgnored r.flags s).head? ≠ some '?' := by simpa [hskip] using hc
      have hne' : (skipIgnored r.flags (s ++ t)).head? ≠ some '?' := by simpa [happend] using hc
      rw [repetition_of_head_ne hne] at h
      obtain ⟨found, hnil, h⟩ := except_map_ok h
      cases h
      rw [repetition_of_head_ne hne', hnil]
      rfl

private theorem repetition_blank (h : r.repetition body least most s = .ok (node, v))
    (hs : skipIgnored r.flags s = []) : v = s ∧ ∀ {t}, (skipIgnored r.flags t).head? ≠ some '?' →
      r.repetition body least most t = .ok (node, t) := by
  rw [repetition_of_head_ne (by simp [hs])] at h
  obtain ⟨found, hnil, h⟩ := except_map_ok h
  cases h
  refine ⟨rfl, ?_⟩
  intro t ht
  rw [repetition_of_head_ne ht, hnil]
  rfl

private theorem repeatLast_eq_ok_iff {parts' : Parts} :
    r.repeatLast least most s parts = .ok (parts', v) ↔
    ∃ body before node, parts = some body :: before ∧ parts' = some node :: before ∧
      r.repetition body least most s = .ok (node, v) := by
  constructor
  · intro h
    unfold Reader.repeatLast at h
    split at h
    · next body before =>
      obtain ⟨⟨node, after⟩, hnode, h⟩ := except_bind_ok h
      cases h
      exact ⟨body, before, node, rfl, rfl, hnode⟩
    · cases h
  · rintro ⟨body, before, node, rfl, rfl, hnode⟩
    rw [Reader.repeatLast, hnode]
    rfl

end

/-- What reading alternatives comes to: their expression, the reader behind them and the text that is
left. -/
inductive ReadsTo : Reader → List Regex → Parts → List Char → Regex → Reader → List Char → Prop
  | close {r : Reader} {branches : List Regex} {parts : Parts} {s u : List Char}
      (hsign : readSign r parts.repeatable s = .ok (.close, u)) :
      ReadsTo r branches parts s (alts (parts.toRegex :: branches).reverse) r u
  | bar {r r' : Reader} {branches : List Regex} {parts : Parts} {s v u : List Char} {node : Regex}
      (hsign : readSign r parts.repeatable s = .ok (.bar, v))
      (onward : ReadsTo r (parts.toRegex :: branches) [] v node r' u) :
      ReadsTo r branches parts s node r' u
  | flags {r r' : Reader} {branches : List Regex} {parts : Parts} {s v u : List Char} {node : Regex}
      {f : Flags} (hsign : readSign r parts.repeatable s = .ok (.opening (.flags f), v))
      (onward : ReadsTo ⟨f, r.names⟩ branches (none :: parts) v node r' u) :
      ReadsTo r branches parts s node r' u
  | group {r r' inside inside' : Reader} {branches : List Regex} {parts : Parts}
      {s v u after : List Char} {node inner : Regex} {f : Flags} {name : Option String}
      (hsign : readSign r parts.repeatable s = .ok (.opening (.body f name), v))
      (henter : r.enter f name = .ok inside)
      (body : ReadsTo inside [] [] v inner inside' (')' :: after))
      (onward : ReadsTo ⟨r.flags, inside'.names⟩ branches (some (named name inner) :: parts) after
        node r' u) :
      ReadsTo r branches parts s node r' u
  | mark {r r' : Reader} {branches : List Regex} {parts : Parts} {s v u after : List Char}
      {node body repeated : Regex} {least : Nat} {most : Option Nat}
      (hsign : readSign r (Parts.repeatable (some body :: parts)) s = .ok (.mark least most, v))
      (hbody : r.repetition body least most v = .ok (repeated, after))
      (onward : ReadsTo r branches (some repeated :: parts) after node r' u) :
      ReadsTo r branches (some body :: parts) s node r' u
  | part {r r' : Reader} {branches : List Regex} {parts : Parts} {s v u : List Char}
      {node p : Regex} (hsign : readSign r parts.repeatable s = .ok (.part p, v))
      (onward : ReadsTo r branches (some p :: parts) v node r' u) :
      ReadsTo r branches parts s node r' u

/-- What reading alternatives comes to behind a sign. -/
def Onward (r : Reader) (branches : List Regex) (parts : Parts) (node : Regex) (r' : Reader)
    (u : List Char) : Sign → List Char → Prop
  | .close, v => node = alts (parts.toRegex :: branches).reverse ∧ r' = r ∧ u = v
  | .bar, v => ReadsTo r (parts.toRegex :: branches) [] v node r' u
  | .opening (.flags f), v => ReadsTo ⟨f, r.names⟩ branches (none :: parts) v node r' u
  | .opening (.body f name), v => ∃ inside inner inside' after, r.enter f name = .ok inside ∧
      ReadsTo inside [] [] v inner inside' (')' :: after) ∧
      ReadsTo ⟨r.flags, inside'.names⟩ branches (some (named name inner) :: parts) after node r' u
  | .mark least most, v => ∃ body before repeated after, parts = some body :: before ∧
      r.repetition body least most v = .ok (repeated, after) ∧
      ReadsTo r branches (some repeated :: before) after node r' u
  | .part p, v => ReadsTo r branches (some p :: parts) v node r' u

theorem ReadsTo.onward {sign : Sign} (h : ReadsTo r branches parts s node r' u)
    (hsign : readSign r parts.repeatable s = .ok (sign, v)) :
    Onward r branches parts node r' u sign v := by
  cases h with
  | close h =>
    rw [h] at hsign
    cases hsign
    exact ⟨rfl, rfl, rfl⟩
  | bar h onward | flags h onward | part h onward =>
    rw [h] at hsign
    cases hsign
    exact onward
  | group h henter body onward =>
    rw [h] at hsign
    cases hsign
    exact ⟨_, _, _, _, henter, body, onward⟩
  | mark h hbody onward =>
    rw [h] at hsign
    cases hsign
    exact ⟨_, _, _, _, rfl, hbody, onward⟩

theorem readsTo_of_ok (h : readAlternatives fuel r branches parts s = .ok (node, r', u)) :
    ReadsTo r branches parts s node r' u := by
  induction fuel generalizing r branches parts s node r' u with
  | zero => cases h
  | succ fuel ih =>
    unfold readAlternatives at h
    obtain ⟨⟨sign, v⟩, hsign, h⟩ := except_bind_ok h
    cases sign with
    | close =>
      cases h
      exact .close hsign
    | bar => exact .bar hsign (ih h)
    | opening o =>
      cases o with
      | flags f => exact .flags hsign (ih h)
      | body f name =>
        obtain ⟨inside, henter, h⟩ := except_bind_ok h
        obtain ⟨⟨inner, inside', after⟩, hinner, h⟩ := except_bind_ok h
        split at h
        · next heq =>
          cases heq
          exact .group hsign henter (ih hinner) (ih h)
        · cases h
    | mark least most =>
      obtain ⟨⟨parts', after⟩, hrepeat, h⟩ := except_bind_ok h
      obtain ⟨body, before, repeated, rfl, rfl, hbody⟩ := repeatLast_eq_ok_iff.mp hrepeat
      exact .mark hsign hbody (ih h)
    | part p => exact .part hsign (ih h)

private theorem readSign_congr (h : r.flags = r'.flags) (repeatable : Bool) (s : List Char) :
    readSign r repeatable s = readSign r' repeatable s := by
  obtain ⟨f, names⟩ := r
  obtain ⟨f', names'⟩ := r'
  cases h
  rfl

private theorem repetition_congr (h : r.flags = r'.flags) (body : Regex) (least : Nat)
    (most : Option Nat)
    (s : List Char) : r.repetition body least most s = r'.repetition body least most s := by
  rw [Reader.repetition, Reader.repetition, h]

theorem flags_of_enter {f : Flags} {name : Option String} (h : r.enter f name = .ok r') :
    r'.flags = f := by
  cases name with
  | none =>
    cases h
    rfl
  | some name =>
    rw [Reader.enter] at h
    split at h <;> cases h
    rfl

namespace ReadsTo

theorem exists_fuel (h : ReadsTo r branches parts s node r' u) :
    ∃ n, ∀ fuel, n ≤ fuel → readAlternatives fuel r branches parts s = .ok (node, r', u) := by
  have pred {n fuel : Nat} (h : n + 1 ≤ fuel) : ∃ m, fuel = m + 1 ∧ n ≤ m :=
    ⟨fuel - 1, by omega, by omega⟩
  induction h with
  | close hsign =>
    refine ⟨1, fun fuel hfuel => ?_⟩
    obtain ⟨m, rfl, -⟩ := pred hfuel
    rw [readAlternatives, hsign]
    rfl
  | bar hsign _ ih | flags hsign _ ih | part hsign _ ih =>
    obtain ⟨n, hn⟩ := ih
    refine ⟨n + 1, fun fuel hfuel => ?_⟩
    obtain ⟨m, rfl, hm⟩ := pred hfuel
    rw [readAlternatives, hsign]
    exact hn m hm
  | @group r _ inside _ _ _ _ _ _ _ _ _ f name hsign henter _ _ ihbody ih =>
    obtain ⟨k, hk⟩ := ihbody
    obtain ⟨n, hn⟩ := ih
    refine ⟨max k n + 1, fun fuel hfuel => ?_⟩
    obtain ⟨m, rfl, hm⟩ := pred hfuel
    rw [readAlternatives, hsign]
    change (r.enter f name >>= _) = _
    rw [henter]
    change (readAlternatives m inside [] [] _ >>= _) = _
    rw [hk m (by omega)]
    exact hn m (by omega)
  | mark hsign hbody _ ih =>
    obtain ⟨n, hn⟩ := ih
    refine ⟨n + 1, fun fuel hfuel => ?_⟩
    obtain ⟨m, rfl, hm⟩ := pred hfuel
    rw [readAlternatives, hsign]
    dsimp only [bind, Except.bind]
    rw [repeatLast_eq_ok_iff.mpr ⟨_, _, _, rfl, rfl, hbody⟩]
    exact hn m hm

theorem unique {r₂ r'' : Reader} {node' : Regex} {u' : List Char}
    (h : ReadsTo r branches parts s node r' u) (h' : ReadsTo r₂ branches parts s node' r'' u')
    (hflags : r.flags = r₂.flags) : node = node' ∧ u = u' := by
  induction h generalizing r₂ node' r'' u' with
  | close hsign =>
    rw [readSign_congr hflags] at hsign
    obtain ⟨rfl, -, rfl⟩ := h'.onward hsign
    exact ⟨rfl, rfl⟩
  | bar hsign _ ih | part hsign _ ih =>
    rw [readSign_congr hflags] at hsign
    exact ih (h'.onward hsign) hflags
  | flags hsign _ ih =>
    rw [readSign_congr hflags] at hsign
    exact ih (h'.onward hsign) rfl
  | group hsign henter _ _ ihbody ih =>
    rw [readSign_congr hflags] at hsign
    obtain ⟨inside₂, inner₂, inside₂', after₂, henter', hbody, honward⟩ := h'.onward hsign
    have hinside := (flags_of_enter henter).trans (flags_of_enter henter').symm
    obtain ⟨rfl, hafter⟩ := ihbody hbody hinside
    cases hafter
    exact ih honward hflags
  | mark hsign hbody _ ih =>
    rw [readSign_congr hflags] at hsign
    obtain ⟨body₂, before, repeated₂, after₂, hparts, hbody', honward⟩ := h'.onward hsign
    cases hparts
    rw [repetition_congr hflags, hbody'] at hbody
    cases hbody
    exact ih honward hflags

theorem of_blank (h : ReadsTo r branches parts s node r' u) (hs : skipIgnored r.flags s = []) :
    node = alts (parts.toRegex :: branches).reverse ∧ r' = r ∧ u = [] :=
  h.onward (readSign_blank hs _)

private theorem not_mark (h : ReadsTo r branches [] s node r' u) {least : Nat} {most : Option Nat} :
    readSign r (Parts.repeatable []) s ≠ .ok (.mark least most, v) := by
  intro hsign
  obtain ⟨body, before, repeated, after, hparts, -⟩ := h.onward hsign
  cases hparts

end ReadsTo

/-- Where something is left of a text or a parenthesis follows, what follows is left as well; only at
the end of a text a comment may take up the parenthesis. -/
def Extends (P : List Char → List Char → Prop) (s u : List Char) : Prop :=
  (∀ t, Stops u t → P (s ++ t) (u ++ t)) ∨ (u = [] ∧ P (s ++ [')']) [])

theorem Extends.step {P Q : List Char → List Char → Prop} (h : Extends Q v u)
    (hnil : v = [] → u = []) (hstep : ∀ t w, Stops v t → Q (v ++ t) w → P (s ++ t) w) :
    Extends P s u := by
  rcases h with hall | ⟨rfl, hend⟩
  · refine .inl fun t ht => hstep t _ ?_ (hall t ht)
    rcases ht with hu | hmore
    · exact .inl fun hv => hu (hnil hv)
    · exact .inr hmore
  · exact .inr ⟨rfl, hstep [')'] [] (.inr ⟨[], rfl⟩) hend⟩

private theorem readSign_extends (hs : skipIgnored r.flags s = u)
    (hu : u = [] ∨ ∃ more, u = ')' :: more) :
    Extends (fun s u => ∀ repeatable, readSign r repeatable s = .ok (.close, u)) s u := by
  rcases hu with rfl | ⟨more, rfl⟩
  · rcases skipIgnored_end hs with hall | hend
    · refine .inl fun t ht => ?_
      rcases ht with hnil | ⟨more, rfl⟩
      · exact absurd rfl hnil
      · exact readSign_closing (hall more)
    · exact .inr ⟨rfl, readSign_blank hend⟩
  · refine .inl fun t _ => readSign_closing ?_
    rw [skipIgnored_append (by rw [hs]; simp), hs]
    rfl

private theorem head?_ne_of_close (h : readSign r repeatable s = .ok (.close, u)) :
    (skipIgnored r.flags s).head? ≠ some '?' := by
  obtain ⟨hskip, rfl | ⟨more, rfl⟩⟩ := readSign_close h <;> simp [hskip]

/-- What alternatives come to stays the same when the text goes on. -/
theorem ReadsTo.extends (h : ReadsTo r branches parts s node r' u) :
    Extends (fun s u => ReadsTo r branches parts s node r' u) s u := by
  have nil {r r' : Reader} {branches : List Regex} {parts : Parts} {v u : List Char} {node : Regex}
      (h : ReadsTo r branches parts v node r' u) : v = [] → u = [] := by
    rintro rfl
    exact (h.of_blank (skipIgnored_nil _)).2.2
  induction h with
  | @close r branches parts s u hsign =>
    obtain ⟨hskip, hu⟩ := readSign_close hsign
    exact (readSign_extends hskip hu).imp
      (fun hall t ht => .close (hall t ht _)) (fun hend => ⟨hend.1, .close (hend.2 _)⟩)
  | bar hsign onward ih =>
    exact ih.step (nil onward) fun t w ht h =>
      .bar (readSign_append hsign (by simp) (by simp) ht) h
  | flags hsign onward ih =>
    exact ih.step (nil onward) fun t w ht h =>
      .flags (readSign_append hsign (by simp) (by simp) ht) h
  | @group r r' inside inside' branches parts s v u after node inner f name hsign henter body onward
      ihbody ih =>
    have hv : v ≠ [] := by
      rintro rfl
      exact absurd (nil body rfl) (by simp)
    have hbody (t : List Char) : ReadsTo inside [] [] (v ++ t) inner inside' (')' :: after ++ t) := by
      rcases ihbody with hall | ⟨hnil, -⟩
      · exact hall t (.inl (by simp))
      · cases hnil
    exact ih.step (nil onward) fun t w _ h =>
      .group (readSign_append hsign (by simp) (fun _ _ _ => hv) (.inl hv)) henter (hbody t) h
  | @mark r r' branches parts s v u after node body repeated least most hsign hbody onward ih =>
    by_cases hskip : skipIgnored r.flags v = []
    · -- the end, where the repetition looks for a question mark in vain
      obtain ⟨rfl, hagain⟩ := repetition_blank hbody hskip
      obtain ⟨rfl, rfl, rfl⟩ := onward.of_blank hskip
      exact (readSign_extends hskip (.inl rfl)).step (fun _ => rfl) fun t w ht h =>
        .mark (readSign_append hsign (by simp) (by simp) ht)
          (hagain (head?_ne_of_close (h true))) (.close (h _))
    · have hv := ne_nil_of_skipIgnored hskip
      exact ih.step (nil onward) fun t w _ h =>
        .mark (readSign_append hsign (by simp) (by simp) (.inl hv))
          (repetition_append hbody hskip t) h
  | part hsign onward ih =>
    exact ih.step (nil onward) fun t w ht h =>
      .part (readSign_append hsign (by simp) (by simp) ht) h

/-- An expression that is one between parentheses, too. -/
def IsGroupBody (s : List Char) : Prop :=
  (∃ node, parse s = .ok node) ∧ ∃ node, parse ('(' :: (s ++ [')'])) = .ok node

theorem readsTo_of_parse (h : parse s = .ok node) :
    ∃ r', ReadsTo (.knowing []) [] [] s node r' [] := by
  obtain ⟨⟨node', r', rest⟩, hread, h⟩ := except_bind_ok h
  split at h
  · next heq =>
    cases heq
    split at h <;> cases h
    exact ⟨_, readsTo_of_ok hread⟩
  · cases h

/-- An expression does not begin with a mark, so it begins as the body of a group does. -/
private theorem readOpening_of_readsTo (h : ReadsTo (.knowing []) [] [] s node r' u)
    (t : List Char) :
    readOpening .default (s ++ ')' :: t) = .ok (.body .default none, s ++ ')' :: t) := by
  cases s with
  | nil => exact readOpening_body (by decide) t
  | cons c s =>
    refine readOpening_body ?_ _
    rintro rfl
    exact h.not_mark rfl

/-- The reader takes up the body of a group as what it is on its own. -/
theorem IsGroupBody.readsTo (h : IsGroupBody s) : ∃ node r', parse s = .ok node ∧
    ∀ t, ReadsTo (.knowing []) [] [] (s ++ ')' :: t) node r' (')' :: t) := by
  obtain ⟨⟨node, hparse⟩, ⟨whole, hparse'⟩⟩ := h
  obtain ⟨r', hread⟩ := readsTo_of_parse hparse
  obtain ⟨r'', hread'⟩ := readsTo_of_parse hparse'
  refine ⟨node, r', hparse, ?_⟩
  rcases hread.extends with hall | ⟨-, hend⟩
  · exact fun t => hall (')' :: t) (.inr ⟨t, rfl⟩)
  · -- the body would leave no parenthesis to close the group
    obtain ⟨inside, inner, inside', after, henter, hbody, -⟩ :=
      hread'.onward (readSign_opening (readOpening_of_readsTo hread []))
    exact absurd (hend.unique hbody (flags_of_enter henter).symm).2 (by simp)

-- a comment at the end of an expression takes up the parenthesis behind it
example : (parse "(?x)#".toList).toOption.isSome ∧ (parse "((?x)#)".toList).toOption.isNone := by
  decide +kernel

end Switchyard.Regex
