import Mathlib.Data.List.TakeDrop
import Switchyard.Proofs.Attempt
import Switchyard.Regex.Parser
/-!
# Reading what goes on

A reader of regular expressions takes up the beginning of a text. What it makes of this stays the same
when the text goes on, if it leaves something of the text, or the text goes on with a closing
parenthesis (`Stops`): then nothing more can belong to what is taken up.
-/

namespace Switchyard.Regex

variable {f : Flags} {s t v rest body : List Char}

/-- Something is left of a text, or a closing parenthesis stands behind it. -/
def Stops (v t : List Char) : Prop := v ≠ [] ∨ ∃ more, t = ')' :: more

private theorem go_append (quiet : Bool) (h : skipIgnored.go quiet s ≠ []) (t : List Char) :
    skipIgnored.go quiet (s ++ t) = skipIgnored.go quiet s ++ t := by
  fun_induction skipIgnored.go quiet s with
  | case1 => exact absurd rfl h
  | case2 rest ih => simpa [skipIgnored.go] using ih h
  | case3 c rest hc ih => simpa [skipIgnored.go, hc] using ih h
  | case4 c rest hc ih => simpa [skipIgnored.go, hc] using ih h
  | case5 rest hc ih => simpa [skipIgnored.go, hc] using ih h
  | case6 c rest hc hsharp => simp [skipIgnored.go, hc, hsharp]

private theorem go_end (quiet : Bool) (h : skipIgnored.go quiet s = []) :
    (∀ t, skipIgnored.go quiet (s ++ ')' :: t) = ')' :: t) ∨
      skipIgnored.go quiet (s ++ [')']) = [] := by
  fun_induction skipIgnored.go quiet s with
  | case1 quiet =>
    cases quiet with
    | true => exact .inr rfl
    | false => exact .inl fun t => rfl
  | case2 rest ih => simpa [skipIgnored.go] using ih h
  | case3 c rest hc ih => simpa [skipIgnored.go, hc] using ih h
  | case4 c rest hc ih => simpa [skipIgnored.go, hc] using ih h
  | case5 rest hc ih => simpa [skipIgnored.go, hc] using ih h
  | case6 => cases h

theorem skipIgnored_append (h : skipIgnored f s ≠ []) (t : List Char) :
    skipIgnored f (s ++ t) = skipIgnored f s ++ t := by
  unfold skipIgnored at h ⊢
  split
  · next hblanks =>
    rw [if_pos hblanks] at h
    exact go_append false h t
  · rfl

theorem skipIgnored_end (h : skipIgnored f s = []) :
    (∀ t, skipIgnored f (s ++ ')' :: t) = ')' :: t) ∨ skipIgnored f (s ++ [')']) = [] := by
  unfold skipIgnored at h ⊢
  split
  · next hblanks =>
    rw [if_pos hblanks] at h
    exact go_end false h
  · next hblanks =>
    rw [if_neg hblanks] at h
    exact .inl fun t => by rw [h]; rfl

theorem skipIgnored_nil (f : Flags) : skipIgnored f [] = [] := by
  unfold skipIgnored
  split <;> rfl

theorem ne_nil_of_skipIgnored (h : skipIgnored f s ≠ []) : s ≠ [] := by
  rintro rfl
  exact h (skipIgnored_nil f)

private theorem cutBrace_append (h : cutBrace s = some (body, v)) (t : List Char) :
    cutBrace (s ++ t) = some (body, v ++ t) := by
  induction s generalizing body with
  | nil => cases h
  | cons c s ih =>
    rw [List.cons_append]
    unfold cutBrace at h ⊢
    split
    · next hc =>
      rw [if_pos hc] at h
      cases h
      rfl
    · next hc =>
      rw [if_neg hc] at h
      obtain ⟨⟨body', v'⟩, hs, heq⟩ := Option.map_eq_some_iff.mp h
      cases heq
      rw [ih hs]
      rfl

private theorem cutAt_cons (p : Char → Bool) (c : Char) (s : List Char) : cutAt p (c :: s) =
    if p c then some ([], s) else (cutAt p s).map fun (body, after) => (c :: body, after) := by
  rw [cutAt, cutAt, List.span_eq_takeWhile_dropWhile, List.span_eq_takeWhile_dropWhile]
  by_cases hc : p c
  · simp [hc]
  · simp only [hc, List.dropWhile_cons, List.takeWhile_cons, Bool.not_false, if_true, if_false,
      Bool.false_eq_true]
    cases s.dropWhile fun c => !p c <;> rfl

theorem cutAt_eq_some_iff {p : Char → Bool} : cutAt p s = some (body, v) ↔
    ∃ c, s = body ++ c :: v ∧ p c ∧ ∀ d ∈ body, ¬ p d := by
  induction s generalizing body with
  | nil => simp [show cutAt p [] = none from rfl]
  | cons c s ih =>
    rw [cutAt_cons]
    by_cases hc : p c
    · rw [if_pos hc]
      constructor
      · intro h
        cases h
        exact ⟨c, rfl, hc, by simp⟩
      · rintro ⟨d, heq, -, hbody⟩
        cases body with
        | nil =>
          cases heq
          rfl
        | cons b body =>
          cases heq
          exact absurd hc (hbody c List.mem_cons_self)
    · rw [if_neg hc, Option.map_eq_some_iff]
      constructor
      · rintro ⟨⟨body', v'⟩, hcut, heq⟩
        cases heq
        obtain ⟨d, rfl, hd, hbody⟩ := ih.mp hcut
        refine ⟨d, rfl, hd, ?_⟩
        rw [List.forall_mem_cons]
        exact ⟨hc, hbody⟩
      · rintro ⟨d, heq, hd, hbody⟩
        cases body with
        | nil =>
          cases heq
          exact absurd hd hc
        | cons b body =>
          cases heq
          rw [List.forall_mem_cons] at hbody
          exact ⟨(body, v), ih.mpr ⟨d, rfl, hd, hbody.2⟩, rfl⟩

theorem cutAt_append {p : Char → Bool} (h : cutAt p s = some (body, v)) (t : List Char) :
    cutAt p (s ++ t) = some (body, v ++ t) := by
  obtain ⟨c, rfl, hc, hbody⟩ := cutAt_eq_some_iff.mp h
  exact cutAt_eq_some_iff.mpr ⟨c, by simp, hc, hbody⟩

private theorem afterText_eq_some_iff {p : List Char} : afterText p s = some v ↔ s = p ++ v := by
  fun_induction afterText p s with
  | case1 s => simp
  | case2 p ps => simp
  | case3 p ps cs ih => simp [ih]
  | case4 p ps c cs hne => simp [Ne.symm hne]

private theorem hexEscape_of_ne {c : Char} (hc : c ≠ '\x7b') (width : Nat) (s : List Char) :
    hexEscape width (c :: s) = if (c :: s).length < width then .error .badEscape
      else do return (← hexLiteral ((c :: s).take width), (c :: s).drop width) := by
  rw [hexEscape]
  rintro rest ⟨⟩
  exact hc rfl

private theorem hexEscape_append {width : Nat} (hwidth : 0 < width) {c : Char}
    (h : hexEscape width s = .ok (c, v)) (t : List Char) :
    hexEscape width (s ++ t) = .ok (c, v ++ t) := by
  cases s with
  | nil =>
    rw [hexEscape, List.length_nil, if_pos hwidth] at h
    · cases h
    · rintro rest ⟨⟩
  | cons d s =>
    rw [List.cons_append]
    by_cases hd : d = '\x7b'
    · subst hd
      rw [hexEscape] at h ⊢
      cases hcut : cutBrace s with
      | none =>
        rw [hcut] at h
        cases h
      | some found =>
        rw [hcut] at h
        obtain ⟨e, he, h⟩ := except_bind_ok h
        cases h
        rw [cutBrace_append hcut]
        dsimp only
        rw [he]
        rfl
    · rw [hexEscape_of_ne hd] at h ⊢
      split at h
      · cases h
      · next hlength =>
        obtain ⟨e, he, h⟩ := except_bind_ok h
        cases h
        have hle : width ≤ (d :: s).length := Nat.le_of_not_lt hlength
        have htake : (d :: (s ++ t)).take width = (d :: s).take width :=
          List.take_append_of_le_length hle
        have hdrop : (d :: (s ++ t)).drop width = (d :: s).drop width ++ t :=
          List.drop_append_of_le_length hle
        rw [htake, hdrop, he, if_neg]
        · rfl
        · simp only [List.length_cons, List.length_append] at hle ⊢
          omega

private theorem propertyName_append (h : propertyName s = .ok (body, v)) (t : List Char) :
    propertyName (s ++ t) = .ok (body, v ++ t) := by
  fun_cases propertyName s with
  | case1 => cases h
  | case2 => cases h
  | case3 rest hcut =>
    rw [propertyName, hcut] at h
    cases h
  | case4 rest found hcut =>
    rw [propertyName, hcut] at h
    cases h
    rw [List.cons_append, propertyName, cutBrace_append hcut]
  | case5 c rest hslash hbrace =>
    rw [propertyName] at h
    · cases h
      rw [List.cons_append, propertyName]
      · exact hslash
      · exact hbrace
    · exact hslash
    · exact hbrace

private theorem propertyEscape_append {negated : Bool} {chars : CharSet}
    (h : propertyEscape f negated s = .ok (chars, v)) (t : List Char) :
    propertyEscape f negated (s ++ t) = .ok (chars, v ++ t) := by
  unfold propertyEscape at h ⊢
  split at h
  · cases h
  · next hunicode =>
    rw [if_neg hunicode]
    obtain ⟨⟨name, after⟩, hname, h⟩ := except_bind_ok h
    obtain ⟨set, hset, h⟩ := except_bind_ok h
    cases h
    rw [propertyName_append hname]
    change (namedProperty name >>= _) = _
    rw [hset]
    rfl

private theorem boundaryNamed?_append {w : CharSet} {a : Assertion}
    (h : boundaryNamed? w s = some (a, v)) (t : List Char) :
    boundaryNamed? w (s ++ t) = some (a, v ++ t) := by
  obtain ⟨⟨name, b⟩, hname, hafter⟩ := List.exists_of_findSome?_eq_some h
  obtain ⟨r, hr, heq⟩ := Option.map_eq_some_iff.mp hafter
  cases heq
  rw [afterText_eq_some_iff.mp hr, List.append_assoc]
  simp only [boundaryNames, List.mem_cons, List.not_mem_nil, or_false] at hname
  rcases hname with hname | hname | hname | hname <;>
  · cases hname
    rfl

private theorem boundaryNamed?_of_ne {w : CharSet} {c : Char} (hc : ¬ c.isAlpha) (s : List Char) :
    boundaryNamed? w (c :: s) = none := by
  have hs : 's' ≠ c := by
    rintro rfl
    exact hc (by decide)
  have he : 'e' ≠ c := by
    rintro rfl
    exact hc (by decide)
  simp [boundaryNamed?, boundaryNames, afterText, hs, he]

private theorem boundaryEscape_of_ne {w : CharSet} {c : Char} (hc : c ≠ '\x7b') (s : List Char) :
    boundaryEscape w (c :: s) = .ok (.assertion (.wordBoundary w), c :: s) := by
  unfold boundaryEscape
  split
  · next heq =>
    cases heq
    exact absurd rfl hc
  · rfl

private theorem boundaryEscape_append {w : CharSet} {e : Escape}
    (h : boundaryEscape w s = .ok (e, v))
    (hstops : Stops v t) : boundaryEscape w (s ++ t) = .ok (e, v ++ t) := by
  cases s with
  | nil =>
    cases h
    rcases hstops with hv | ⟨more, rfl⟩
    · exact absurd rfl hv
    · rfl
  | cons c s =>
    by_cases hc : c = '\x7b'
    · subst hc
      rw [List.cons_append]
      simp only [boundaryEscape] at h ⊢
      cases hname : boundaryNamed? w s with
      | some found =>
        rw [hname] at h
        cases h
        rw [boundaryNamed?_append hname]
      | none =>
        rw [hname] at h
        dsimp only at h
        split at h
        · cases h
        · next d rest =>
          split at h
          · cases h
          · next hd =>
            cases h
            rw [Bool.or_eq_true, not_or] at hd
            rw [List.cons_append, boundaryNamed?_of_ne hd.1]
            dsimp only
            rw [if_neg (by simpa using hd)]
            rfl
    · rw [boundaryEscape_of_ne hc] at h
      cases h
      rw [List.cons_append, boundaryEscape_of_ne hc]

theorem readEscape_append {e : Escape} (h : readEscape f s = .ok (e, v)) (hstops : Stops v t) :
    readEscape f (s ++ t) = .ok (e, v ++ t) := by
  cases s with
  | nil => cases h
  | cons c s =>
    rw [List.cons_append]
    unfold readEscape at h ⊢
    dsimp only at h ⊢
    cases hperl : f.perlSet? c with
    | some chars =>
      rw [hperl] at h
      cases h
      rfl
    | none =>
      rw [hperl] at h
      dsimp only at h ⊢
      split at h
      case h_1 =>
        obtain ⟨⟨d, after⟩, hd, h⟩ := except_bind_ok h
        have hhead : (s ++ t).head? = s.head? := by
          cases s with
          | nil => cases hd
          | cons b s => rfl
        rw [hexEscape_append (by decide) hd, hhead]
        change (if _ then _ else _) = _
        split at h
        · cases h
        · next hnarrow =>
          cases h
          rw [if_neg hnarrow]
          rfl
      case h_2 | h_3 =>
        obtain ⟨⟨d, after⟩, hd, h⟩ := except_bind_ok h
        cases h
        rw [hexEscape_append (by decide) hd]
        rfl
      case h_4 | h_5 =>
        obtain ⟨⟨chars, after⟩, hchars, h⟩ := except_bind_ok h
        cases h
        rw [propertyEscape_append hchars]
        rfl
      case h_14 => exact boundaryEscape_append h hstops
      case h_18 =>
        split at h
        · cases h
        · next hdigit =>
          split at h
          · next hescape =>
            cases h
            rw [if_neg hdigit, if_pos hescape]
          · cases h
      all_goals
        cases h
        rfl

theorem takeWhile_append_of_drop {p : Char → Bool} (h : s.drop (s.takeWhile p).length ≠ [])
    (t : List Char) : (s ++ t).takeWhile p = s.takeWhile p := by
  induction s with
  | nil => exact absurd rfl h
  | cons c s ih =>
    by_cases hc : p c
    · rw [List.takeWhile_cons_of_pos hc, List.length_cons, List.drop_succ_cons] at h
      rw [List.cons_append, List.takeWhile_cons_of_pos hc, List.takeWhile_cons_of_pos hc, ih h]
    · rw [List.cons_append, List.takeWhile_cons_of_neg hc, List.takeWhile_cons_of_neg hc]

private theorem dropWhile_append_of_ne_nil {p : Char → Bool} (h : s.dropWhile p ≠ [])
    (t : List Char) : (s ++ t).dropWhile p = s.dropWhile p ++ t := by
  rw [List.dropWhile_append, if_neg (by simpa using h)]

private theorem readCount_append {n : Nat} (h : readCount s = .ok (n, v)) (hv : v ≠ [])
    (t : List Char) : readCount (s ++ t) = .ok (n, v ++ t) := by
  unfold readCount at h ⊢
  dsimp only at h ⊢
  split at h
  · next m hm =>
    split at h
    · next hlt =>
      cases h
      have hdrop : (s.dropWhile Text.isBlank).drop
          ((s.dropWhile Text.isBlank).takeWhile Char.isDigit).length ≠ [] := by
        intro hnil
        rw [hnil] at hv
        exact hv rfl
      have hblank : s.dropWhile Text.isBlank ≠ [] := by
        intro hnil
        rw [hnil] at hdrop
        exact hdrop rfl
      have hle := (List.takeWhile_sublist Char.isDigit (l := s.dropWhile Text.isBlank)).length_le
      rw [dropWhile_append_of_ne_nil hblank, takeWhile_append_of_drop hdrop, hm]
      dsimp only
      rw [if_pos hlt, List.drop_append_of_le_length hle, dropWhile_append_of_ne_nil hv]
    · cases h
  · cases h

private theorem dropWhile_ne_nil_of_readCount {n : Nat} (h : readCount s = .ok (n, v)) :
    s.dropWhile Text.isBlank ≠ [] := by
  intro hnil
  rw [readCount, hnil] at h
  cases h

private theorem readMost_append {n least : Nat} {most : Option Nat}
    (h : readMost n s = .ok (least, most, v)) (t : List Char) :
    readMost n (s ++ t) = .ok (least, most, v ++ t) := by
  have hne : s.dropWhile Text.isBlank ≠ [] := by
    intro hnil
    rw [readMost, hnil] at h
    obtain ⟨⟨m, rest⟩, hm, -⟩ := except_bind_ok h
    exact dropWhile_ne_nil_of_readCount hm hnil
  unfold readMost at h ⊢
  rw [dropWhile_append_of_ne_nil hne]
  split at h
  · next after hafter =>
    cases h
    rw [hafter]
    rfl
  · next hbrace =>
    obtain ⟨⟨m, rest⟩, hm, h⟩ := except_bind_ok h
    dsimp only at h
    split at h
    · next after =>
      split at h
      · next hle =>
        cases h
        split
        · next heq =>
          cases hdrop : s.dropWhile Text.isBlank with
          | nil => exact absurd hdrop hne
          | cons c after' =>
            rw [hdrop] at heq
            cases heq
            exact absurd hdrop (hbrace after')
        · rw [readCount_append hm (by simp)]
          change (if n ≤ m then _ else _) = _
          rw [if_pos hle]
          rfl
      · cases h
    · cases h

theorem readCounts_append {least : Nat} {most : Option Nat}
    (h : readCounts s = .ok (least, most, v))
    (t : List Char) : readCounts (s ++ t) = .ok (least, most, v ++ t) := by
  unfold readCounts at h ⊢
  obtain ⟨⟨n, rest⟩, hn, h⟩ := except_bind_ok h
  dsimp only at h
  split at h
  · cases h
    rw [readCount_append hn (by simp)]
    rfl
  · rw [readCount_append hn (by simp)]
    exact readMost_append h t
  · cases h

private theorem readFlags_go_append {g : Flags} {on dangling hasBody : Bool} {seen : List Char}
    (h : readFlags.go f on seen dangling s = .ok (g, hasBody, v)) (t : List Char) :
    readFlags.go f on seen dangling (s ++ t) = .ok (g, hasBody, v ++ t) := by
  fun_induction readFlags.go f on seen dangling s with
  | case1 | case2 | case4 | case5 | case8 | case9 | case11 => cases h
  | case3 f on seen dangling rest hdangling =>
    cases h
    simp [readFlags.go, hdangling]
  | case6 f on seen dangling rest hdangling hseen =>
    cases h
    simp only [readFlags.go, List.cons_append, if_neg hdangling, if_neg hseen]
  | case7 f seen dangling rest ih => exact ih h
  | case10 f on seen dangling c rest hcolon hclose hdash hseen f' hswitch ih =>
    rw [List.cons_append, readFlags.go, if_neg hseen, hswitch]
    · exact ih h
    · exact hcolon
    · exact hclose
    · exact hdash

private theorem readFlags_append {g : Flags} {hasBody : Bool}
    (h : readFlags f s = .ok (g, hasBody, v))
    (t : List Char) : readFlags f (s ++ t) = .ok (g, hasBody, v ++ t) := readFlags_go_append h t

private theorem readGroupName_append {name : String} (h : readGroupName s = .ok (name, v))
    (t : List Char) : readGroupName (s ++ t) = .ok (name, v ++ t) := by
  unfold readGroupName at h ⊢
  cases hcut : cutAt (· == '>') s with
  | none =>
    rw [hcut] at h
    cases h
  | some found =>
    obtain ⟨letters, after⟩ := found
    rw [hcut] at h
    rw [cutAt_append hcut]
    cases letters with
    | nil => cases h
    | cons c cs =>
      dsimp only at h ⊢
      split at h
      · next hname =>
        cases h
        rw [if_pos hname]
      · cases h

private theorem readOpening_flags {c : Char} (hc : c ≠ '=' ∧ c ≠ '!' ∧ c ≠ '<' ∧ c ≠ 'P')
    (s : List Char) : readOpening f ('?' :: c :: s) = (do
      let (g, hasBody, after) ← readFlags f (c :: s)
      return (if hasBody then .body g none else .flags g, after)) := by
  obtain ⟨hequal, hbang, hangle, hname⟩ := hc
  rw [readOpening]
  all_goals
    intros
    simp_all

theorem readOpening_body {c : Char} (hc : c ≠ '?') (s : List Char) :
    readOpening f (c :: s) = .ok (.body f none, c :: s) := by
  rw [readOpening]
  all_goals
    intros
    simp_all

/-- A name in angle brackets opens a group. -/
def openNamed (f : Flags) (s : List Char) : Except Fault (Opening × List Char) := do
  let (name, after) ← readGroupName s
  return (.body f (some name), after)

private theorem openNamed_append {o : Opening} (h : openNamed f s = .ok (o, v)) (t : List Char) :
    openNamed f (s ++ t) = .ok (o, v ++ t) := by
  obtain ⟨⟨name, after⟩, hname, h⟩ := except_bind_ok h
  cases h
  rw [openNamed, readGroupName_append hname]
  rfl

private theorem readOpening_angle {c : Char} (hc : c ≠ '=' ∧ c ≠ '!') (s : List Char) :
    readOpening f ('?' :: '<' :: c :: s) = openNamed f (c :: s) := by
  obtain ⟨hequal, hbang⟩ := hc
  rw [readOpening]
  · rfl
  all_goals
    intros
    simp_all

private theorem readOpening_letter {c : Char} (hc : c ≠ '<') (s : List Char) :
    readOpening f ('?' :: 'P' :: c :: s) = .error .badFlag := by
  rw [readOpening]
  · rfl
  all_goals
    intros
    simp_all

theorem readOpening_append {o : Opening} (h : readOpening f s = .ok (o, v)) (hs : s ≠ [])
    (t : List Char) : readOpening f (s ++ t) = .ok (o, v ++ t) := by
  cases s with
  | nil => exact absurd rfl hs
  | cons first s =>
    by_cases hfirst : first = '?'
    · subst hfirst
      cases s with
      | nil => cases h
      | cons second s =>
        by_cases hangle : second = '<'
        · subst hangle
          cases s with
          | nil => cases h
          | cons third s =>
            by_cases hlook : third = '=' ∨ third = '!'
            · rcases hlook with rfl | rfl <;> cases h
            · rw [not_or] at hlook
              rw [readOpening_angle hlook] at h
              have happend := openNamed_append h t
              rwa [List.cons_append, ← readOpening_angle hlook] at happend
        · by_cases hletter : second = 'P'
          · subst hletter
            cases s with
            | nil => cases h
            | cons third s =>
              by_cases hthird : third = '<'
              · subst hthird
                exact openNamed_append h t
              · rw [readOpening_letter hthird] at h
                cases h
          · by_cases hlook : second = '=' ∨ second = '!'
            · rcases hlook with rfl | rfl <;> cases h
            · rw [not_or] at hlook
              have hsecond : second ≠ '=' ∧ second ≠ '!' ∧ second ≠ '<' ∧ second ≠ 'P' :=
                ⟨hlook.1, hlook.2, hangle, hletter⟩
              rw [readOpening_flags hsecond] at h
              obtain ⟨⟨g, hasBody, after⟩, hflags, h⟩ := except_bind_ok h
              cases h
              have happend := readFlags_append hflags t
              rw [List.cons_append] at happend
              rw [List.cons_append, List.cons_append, readOpening_flags hsecond, happend]
              rfl
    · rw [readOpening_body hfirst] at h
      cases h
      rw [List.cons_append, readOpening_body hfirst]

end Switchyard.Regex
