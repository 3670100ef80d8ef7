import Switchyard.Proofs.Regex.Extension
import Switchyard.Text.Ascii
/-!
# Reading classes that go on

What a character class makes of a text stays the same when the text goes on behind it
(`readClass_append`). A bracket and a colon in a class open the name of a set only if a colon and
brackets follow, so what follows the class must not complete such a name: a class that is closed has
characters in between that no name has (`exists_not_nameSign`).
-/

namespace Switchyard.Regex

variable {f : Flags} {s t v rest : List Char} {chars items : CharSet} {fuel : Nat} {negated : Bool}
  {pending : Option (CharSet × SetOp)}

private theorem readClassItem_of_ne {c : Char} (hc : c ≠ '\\') (s : List Char) :
    readClassItem f (c :: s) = .ok (.literal c, s) := by
  rw [readClassItem]
  rintro rfl
  exact hc rfl

private theorem readClassItem_append {item : ClassItem} (h : readClassItem f s = .ok (item, v))
    (hstops : Stops v t) : readClassItem f (s ++ t) = .ok (item, v ++ t) := by
  cases s with
  | nil => cases h
  | cons c s =>
    rw [List.cons_append]
    by_cases hc : c = '\\'
    · subst hc
      obtain ⟨⟨e, after⟩, he, h⟩ := except_bind_ok h
      cases e with
      | assertion a => cases h
      | literal c =>
        cases h
        rw [readClassItem, readEscape_append he hstops]
        rfl
      | chars set =>
        cases h
        rw [readClassItem, readEscape_append he hstops]
        rfl
    · rw [readClassItem_of_ne hc] at h ⊢
      cases h
      rfl

private theorem readRangeEnd_append {item : ClassItem} (h : readRangeEnd f item s = .ok (chars, v))
    (hv : v ≠ []) (t : List Char) : readRangeEnd f item (s ++ t) = .ok (chars, v ++ t) := by
  unfold readRangeEnd at h ⊢
  cases hs : skipIgnored f s with
  | nil =>
    rw [hs] at h
    cases h
  | cons c after =>
    rw [hs] at h
    rw [skipIgnored_append (by rw [hs]; simp), hs]
    dsimp only [List.cons_append] at h ⊢
    split at h
    · next hc =>
      obtain ⟨set, hset, h⟩ := except_bind_ok h
      cases h
      rw [if_pos hc, hset]
      rfl
    · next hc =>
      obtain ⟨⟨last, rest⟩, hlast, h⟩ := except_bind_ok h
      obtain ⟨set, hset, h⟩ := except_bind_ok h
      cases h
      have happend := readClassItem_append (t := t) hlast (.inl hv)
      rw [List.cons_append] at happend
      rw [if_neg hc, happend]
      change (rangeSet f item last >>= _) = _
      rw [hset]
      rfl

private theorem readClassRange_append (h : readClassRange f s = .ok (chars, v)) (hv : v ≠ [])
    (t : List Char) : readClassRange f (s ++ t) = .ok (chars, v ++ t) := by
  unfold readClassRange at h ⊢
  obtain ⟨⟨item, rest⟩, hitem, h⟩ := except_bind_ok h
  dsimp only at h
  unfold readBehindItem at h
  cases hrest : skipIgnored f rest with
  | nil =>
    rw [hrest] at h
    cases h
  | cons c after =>
    rw [hrest] at h
    have hskip : skipIgnored f rest ≠ [] := by rw [hrest]; simp
    rw [readClassItem_append hitem (.inl (ne_nil_of_skipIgnored hskip))]
    change readBehindItem f item (rest ++ t) = _
    rw [readBehindItem, skipIgnored_append hskip, hrest]
    dsimp only [List.cons_append] at h ⊢
    split at h
    · next hc =>
      rw [if_pos hc, readRangeEnd_append h hv]
    · next hc =>
      obtain ⟨set, hset, h⟩ := except_bind_ok h
      cases h
      rw [if_neg hc, hset]
      rfl

/-- A range has a sign more than its items, for it is not the end of the class. -/
private theorem two_le_length_of_readClassRange (h : readClassRange f s = .ok (chars, v)) :
    2 ≤ s.length := by
  match s with
  | [] => cases h
  | [c] =>
    obtain ⟨⟨item, rest⟩, hitem, h⟩ := except_bind_ok h
    have hrest : rest = [] := by
      by_cases hc : c = '\\'
      · subst hc
        cases hitem
      · rw [readClassItem_of_ne hc] at hitem
        cases hitem
        rfl
    dsimp only at h
    rw [hrest, readBehindItem, skipIgnored_nil] at h
    cases h
  | _ :: _ :: _ => simp

private theorem classSign_append (hs : 2 ≤ s.length ∨ (classSign s).1 ≠ .item) (t : List Char) :
    classSign (s ++ t) = ((classSign s).1, (classSign s).2 ++ t) := by
  fun_cases classSign s with
  | case1 | case2 | case3 | case4 | case5 => rfl
  | case6 s hclose hinter hdiff hsymm hbracket =>
    -- two characters tell an operator from an item
    match s with
    | [] | [_] => simp [classSign] at hs
    | c :: d :: s =>
      rw [List.cons_append, List.cons_append, classSign]
      all_goals
        rintro rest ⟨⟩
      · exact hclose _ rfl
      · exact hinter _ rfl
      · exact hdiff _ rfl
      · exact hsymm _ rfl
      · exact hbracket _ rfl

private theorem eq_of_classSign_item (h : classSign s = (.item, v)) : v = s := by
  fun_cases classSign s with
  | case1 | case2 | case3 | case4 | case5 => cases h
  | case6 s hclose hinter hdiff hsymm hbracket =>
    rw [classSign] at h
    · cases h
      rfl
    · exact hclose
    · exact hinter
    · exact hdiff
    · exact hsymm
    · exact hbracket

/-- True for the signs that a bracketed name of a set consists of. -/
def isNameSign (c : Char) : Bool := c.isLower || c == ':' || c == '^'

private theorem isLower_of_asciiNamed? {name : String} {set : CharSet}
    (h : CharSet.asciiNamed? name = some set) : ∀ c ∈ name.toList, c.isLower := by
  unfold CharSet.asciiNamed? at h
  split at h <;> first | exact List.all_eq_true.mp (by decide) | cases h

private theorem readSetName_append (h : readSetName f negated s = some (chars, v)) (t : List Char) :
    readSetName f negated (s ++ t) = some (chars, v ++ t) := by
  unfold readSetName at h ⊢
  split at h
  · next name after hcut =>
    obtain ⟨set, hset, heq⟩ := Option.map_eq_some_iff.mp h
    cases heq
    rw [cutAt_append hcut]
    simp only [List.cons_append, hset, Option.map_some]
  · cases h

private theorem readSetName_append_none (h : readSetName f negated s = none)
    (hsign : ∃ c ∈ s, ¬ isNameSign c) (t : List Char) : readSetName f negated (s ++ t) = none := by
  apply Option.eq_none_iff_forall_ne_some.mpr
  intro result hsome
  unfold readSetName at hsome
  split at hsome
  · next name after hcut =>
    obtain ⟨set, hset, -⟩ := Option.map_eq_some_iff.mp hsome
    obtain ⟨c, heq, hc, hname⟩ := cutAt_eq_some_iff.mp hcut
    have hlower := isLower_of_asciiNamed? hset
    rw [String.toList_ofList] at hlower
    rw [beq_iff_eq] at hc
    subst hc
    -- the text has the name as a whole, or only characters of the name
    have hwhole : name ++ [':', ']'] <+: s ++ t := ⟨after, by rw [heq]; simp⟩
    have hpart : ¬ name ++ [':', ']'] <+: s := by
      rintro ⟨rest, rfl⟩
      have hcut' : cutAt (· == ':') (name ++ [':', ']'] ++ rest) = some (name, ']' :: rest) :=
        cutAt_eq_some_iff.mpr ⟨':', by simp, by simp, hname⟩
      rw [readSetName, hcut'] at h
      simp [hset] at h
    rcases List.prefix_or_prefix_of_prefix hwhole (List.prefix_append s t) with hpre | ⟨x, hx⟩
    · exact hpart hpre
    · obtain ⟨d, hd, hnone⟩ := hsign
      rcases List.eq_nil_or_concat x with rfl | ⟨x, last, rfl⟩
      · rw [List.append_nil] at hx
        exact hpart (hx ▸ List.prefix_rfl)
      · have hfront : s ++ x = name ++ [':'] := by
          have hsnoc : (s ++ x) ++ [last] = (name ++ [':']) ++ [']'] := by simpa using hx
          exact (List.append_inj' hsnoc rfl).1
        have hmem : d ∈ name ++ [':'] := hfront ▸ List.mem_append_left x hd
        rcases List.mem_append.mp hmem with hmem | hmem
        · exact hnone (by simp [isNameSign, hlower d hmem])
        · rw [List.mem_singleton.mp hmem] at hnone
          exact hnone rfl
  · cases hsome

private theorem readAsciiClass_of_ne {c : Char} (hc : c ≠ ':') (s : List Char) :
    readAsciiClass f (c :: s) = none := by
  rw [readAsciiClass]
  all_goals
    rintro rest ⟨⟩
    exact hc rfl

private theorem readAsciiClass_colon {c : Char} (hc : c ≠ '^') (s : List Char) :
    readAsciiClass f (':' :: c :: s) = readSetName f false (c :: s) := by
  rw [readAsciiClass]
  rintro rest ⟨⟩
  exact hc rfl

private theorem readAsciiClass_append (h : readAsciiClass f s = some (chars, v)) (t : List Char) :
    readAsciiClass f (s ++ t) = some (chars, v ++ t) := by
  cases s with
  | nil => cases h
  | cons c s =>
    by_cases hc : c = ':'
    · subst hc
      cases s with
      | nil => cases h
      | cons d s =>
        by_cases hd : d = '^'
        · subst hd
          exact readSetName_append h t
        · rw [readAsciiClass_colon hd] at h
          exact (readAsciiClass_colon hd _).trans (readSetName_append h t)
    · rw [readAsciiClass_of_ne hc] at h
      cases h

private theorem readAsciiClass_append_none (h : readAsciiClass f s = none)
    (hsign : ∃ c ∈ s, ¬ isNameSign c) (t : List Char) : readAsciiClass f (s ++ t) = none := by
  have behind {d : Char} {s : List Char} (hd : isNameSign d)
      (hsign : ∃ c ∈ d :: s, ¬ isNameSign c) : ∃ c ∈ s, ¬ isNameSign c := by
    obtain ⟨c, hc, hnone⟩ := hsign
    rcases List.mem_cons.mp hc with rfl | hc
    · exact absurd hd hnone
    · exact ⟨c, hc, hnone⟩
  cases s with
  | nil =>
    obtain ⟨c, hc, -⟩ := hsign
    cases hc
  | cons c s =>
    by_cases hc : c = ':'
    · subst hc
      have hsign := behind (by decide) hsign
      cases s with
      | nil =>
        obtain ⟨c, hc, -⟩ := hsign
        cases hc
      | cons d s =>
        by_cases hd : d = '^'
        · subst hd
          exact readSetName_append_none h (behind (by decide) hsign) t
        · rw [readAsciiClass_colon hd] at h
          exact (readAsciiClass_colon hd _).trans (readSetName_append_none h hsign t)
    · exact readAsciiClass_of_ne hc _

private theorem openCaret_of_ne {c : Char} (hs : skipIgnored f s = c :: rest) (hc : c ≠ '^') :
    openCaret f s = (false, c :: rest) := by
  unfold openCaret
  split
  · next heq =>
    rw [hs] at heq
    cases heq
    exact absurd rfl hc
  · rw [hs]

private theorem openCaret_append (h : (openCaret f s).2 ≠ []) (t : List Char) :
    openCaret f (s ++ t) = ((openCaret f s).1, (openCaret f s).2 ++ t) := by
  cases hs : skipIgnored f s with
  | nil =>
    rw [openCaret, hs] at h
    exact absurd rfl h
  | cons c r =>
    have hskip : skipIgnored f (s ++ t) = c :: (r ++ t) := by
      rw [skipIgnored_append (by rw [hs]; simp), hs, List.cons_append]
    by_cases hc : c = '^'
    · subst hc
      simp only [openCaret, hs] at h
      simp only [openCaret, hs, hskip, skipIgnored_append h]
    · rw [openCaret_of_ne hs hc, openCaret_of_ne hskip hc, List.cons_append]

private theorem openItems_of_ne {c : Char} (hhyphen : c ≠ '-') (hclose : c ≠ ']') (s : List Char) :
    openItems (c :: s) = (CharSet.empty, c :: s) := by
  unfold openItems
  rw [List.takeWhile_cons_of_neg (by simpa using hhyphen)]
  dsimp only [List.isEmpty_nil]
  rw [if_pos rfl]
  split
  · next heq =>
    cases heq
    exact absurd rfl hclose
  · rfl

private theorem openItems_hyphen (s : List Char) : openItems ('-' :: s) =
    (CharSet.singleton '-', s.drop (s.takeWhile (· == '-')).length) := rfl

private theorem openItems_append (h : (openItems s).2 ≠ []) (t : List Char) :
    openItems (s ++ t) = ((openItems s).1, (openItems s).2 ++ t) := by
  cases s with
  | nil => exact absurd rfl h
  | cons c s =>
    rw [List.cons_append]
    by_cases hhyphen : c = '-'
    · subst hhyphen
      rw [openItems_hyphen] at h
      rw [openItems_hyphen, openItems_hyphen, takeWhile_append_of_drop h,
        List.drop_append_of_le_length (List.takeWhile_sublist _).length_le]
    · by_cases hclose : c = ']'
      · subst hclose
        rfl
      · rw [openItems_of_ne hhyphen hclose, openItems_of_ne hhyphen hclose, List.cons_append]

theorem openClass_append (h : (openClass f s).2.2 ≠ []) (t : List Char) :
    openClass f (s ++ t) =
      ((openClass f s).1, (openClass f s).2.1, (openClass f s).2.2 ++ t) := by
  rw [openClass] at h
  have hcaret : (openCaret f s).2 ≠ [] := by
    intro hnil
    rw [hnil] at h
    exact h rfl
  rw [openClass, openCaret_append hcaret, openItems_append h]
  rfl

private theorem ne_of_isNameSign {c d : Char} (hc : isNameSign c) (hd : isNameSign d = false) :
    c ≠ d := by
  rintro rfl
  rw [hc] at hd
  cases hd

private theorem skipIgnored_nameSign {c : Char} (hc : isNameSign c) (s : List Char) :
    skipIgnored f (c :: s) = c :: s := by
  have hblank : Text.isBlank c = false := by
    simp only [isNameSign, Bool.or_eq_true, beq_iff_eq] at hc
    rcases hc with (hlower | rfl) | rfl
    · have halpha : c.isAlpha := Bool.or_eq_true_iff.mpr (.inr hlower)
      apply Text.isBlank_of_isTokenChar
      simp [Text.isTokenChar, Char.isAlphanum, halpha]
    · decide
    · decide
  have hsharp : c ≠ '#' := ne_of_isNameSign hc (by decide)
  unfold skipIgnored
  split
  · simp [skipIgnored.go, hblank, hsharp]
  · rfl

private theorem readClassRange_nameSign {c : Char} (hc : isNameSign c) (hs : ∀ d ∈ s, isNameSign d)
    (h : readClassRange f (c :: s) = .ok (chars, v)) : v = s := by
  unfold readClassRange at h
  rw [readClassItem_of_ne (ne_of_isNameSign hc (by decide))] at h
  change readBehindItem f (.literal c) s = _ at h
  unfold readBehindItem at h
  cases s with
  | nil =>
    rw [skipIgnored_nil] at h
    cases h
  | cons d s =>
    have hd := hs d List.mem_cons_self
    rw [skipIgnored_nameSign hd] at h
    dsimp only at h
    rw [if_neg (ne_of_isNameSign hd (by decide))] at h
    obtain ⟨set, -, h⟩ := except_bind_ok h
    cases h
    rfl

private theorem classSign_nameSign {c : Char} (hc : isNameSign c) (s : List Char) :
    classSign (c :: s) = (.item, c :: s) := by
  rw [classSign]
  all_goals
    rintro rest ⟨⟩
    exact absurd hc (by decide)

private theorem readClass_nameSigns (hs : ∀ c ∈ s, isNameSign c) :
    readClass f fuel negated pending items s ≠ .ok (chars, v) := by
  induction fuel generalizing s items with
  | zero => simp [readClass]
  | succ fuel ih =>
    intro h
    rw [readClass] at h
    cases s with
    | nil =>
      rw [skipIgnored_nil] at h
      cases h
    | cons c s =>
      rw [List.forall_mem_cons] at hs
      rw [skipIgnored_nameSign hs.1, classSign_nameSign hs.1] at h
      obtain ⟨⟨set, after⟩, hset, h⟩ := except_bind_ok h
      rw [readClassRange_nameSign hs.1 hs.2 hset] at h
      exact ih hs.2 h

private theorem openClass_nameSigns (hs : ∀ c ∈ s, isNameSign c) :
    ∀ c ∈ (openClass f s).2.2, isNameSign c := by
  have items {s : List Char} (hs : ∀ c ∈ s, isNameSign c) : (openItems s).2 = s := by
    cases s with
    | nil => rfl
    | cons c s =>
      have hc := hs c List.mem_cons_self
      rw [openItems_of_ne (ne_of_isNameSign hc (by decide)) (ne_of_isNameSign hc (by decide))]
  have caret : ∀ c ∈ (openCaret f s).2, isNameSign c := by
    cases s with
    | nil =>
      rw [openCaret, skipIgnored_nil]
      exact hs
    | cons c s =>
      have hskip : skipIgnored f (c :: s) = c :: s :=
        skipIgnored_nameSign (hs c List.mem_cons_self) s
      by_cases hc : c = '^'
      · subst hc
        rw [List.forall_mem_cons] at hs
        simp only [openCaret, hskip]
        cases s with
        | nil => simp [skipIgnored_nil]
        | cons d s =>
          rw [skipIgnored_nameSign (hs.2 d List.mem_cons_self)]
          exact hs.2
      · rw [openCaret_of_ne hskip hc]
        exact hs
  rw [openClass, items caret]
  exact caret

/-- A class is closed by a sign that no name has. -/
theorem exists_not_nameSign {negated' : Bool} {items' : CharSet}
    (h : readClass f fuel negated' pending items' (openClass f s).2.2 = .ok (chars, v)) :
    ∃ c ∈ s, ¬ isNameSign c := by
  apply Classical.byContradiction
  intro hnone
  refine readClass_nameSigns (openClass_nameSigns ?_) h
  intro c hc
  apply Classical.byContradiction
  intro hsign
  exact hnone ⟨c, hc, hsign⟩

theorem readClass_add_fuel (h : readClass f fuel negated pending items s = .ok (chars, v))
    (more : Nat) : readClass f (fuel + more) negated pending items s = .ok (chars, v) := by
  induction fuel generalizing negated pending items s chars v with
  | zero => cases h
  | succ fuel ih =>
    rw [Nat.add_right_comm]
    unfold readClass at h ⊢
    split at h
    · exact h
    · exact ih h
    · split at h
      · exact ih h
      · obtain ⟨⟨set, after⟩, hset, h⟩ := except_bind_ok h
        dsimp only
        rw [ih hset]
        exact ih h
    · obtain ⟨⟨set, after⟩, hset, h⟩ := except_bind_ok h
      rw [hset]
      exact ih h

theorem readClass_nil : readClass f fuel negated pending items [] ≠ .ok (chars, v) :=
  readClass_nameSigns (by simp)

theorem readClass_append (h : readClass f fuel negated pending items s = .ok (chars, v))
    (t : List Char) : readClass f fuel negated pending items (s ++ t) = .ok (chars, v ++ t) := by
  induction fuel generalizing negated pending items s chars v with
  | zero => cases h
  | succ fuel ih =>
    have sign (hs : 2 ≤ (skipIgnored f s).length ∨ (classSign (skipIgnored f s)).1 ≠ .item) :
        classSign (skipIgnored f (s ++ t)) =
          ((classSign (skipIgnored f s)).1, (classSign (skipIgnored f s)).2 ++ t) := by
      have hskip : skipIgnored f s ≠ [] := by
        intro hnil
        rw [hnil] at hs
        simp [classSign] at hs
      rw [skipIgnored_append hskip, classSign_append hs]
    unfold readClass at h ⊢
    split at h
    · next rest hsign =>
      rw [hsign] at sign
      cases h
      rw [sign (.inr (by simp))]
      rfl
    · next op rest hsign =>
      rw [hsign] at sign
      rw [sign (.inr (by simp))]
      exact ih h
    · next rest hsign =>
      rw [hsign] at sign
      rw [sign (.inr (by simp))]
      dsimp only
      split at h
      · next set after hname =>
        rw [readAsciiClass_append hname]
        exact ih h
      · next hname =>
        obtain ⟨⟨set, after⟩, hset, h⟩ := except_bind_ok h
        have hinner : (openClass f rest).2.2 ≠ [] := by
          intro hnil
          rw [hnil] at hset
          exact readClass_nil hset
        rw [readAsciiClass_append_none hname (exists_not_nameSign hset), openClass_append hinner]
        dsimp only
        rw [ih hset]
        exact ih h
    · next rest hsign =>
      obtain rfl := eq_of_classSign_item hsign
      obtain ⟨⟨set, after⟩, hset, h⟩ := except_bind_ok h
      have hafter : after ≠ [] := by
        rintro rfl
        exact readClass_nil h
      rw [hsign] at sign
      rw [sign (.inl (two_le_length_of_readClassRange hset))]
      dsimp only
      rw [readClassRange_append hset hafter]
      exact ih h

end Switchyard.Regex
