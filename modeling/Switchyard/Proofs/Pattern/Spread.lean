import Mathlib.Data.List.Perm.Subperm
import Switchyard.Proofs.Pattern.Samples
import Switchyard.Proofs.Text.Items
/-!
# Choices of contained patterns

If all paths of a pattern are paths of another one, this has at least as many segments with a choice
as the first has (`countP_isOpen_le`), and a `**` if the first has one (`subtree_mem`). A `**` takes up
no line feed, so in a sample of line feeds each segment with a choice meets a segment with a choice, or
one that happens to be written like that; and of the latter the first pattern has as many of its own.
-/

namespace Switchyard

namespace Pattern

variable {p : List Char → Bool} {a b r w text part : List Char} {texts parts : List (List Char)}
  {row : List Token} {segment : Segment} {segments segmentsA segmentsB : List Segment} {d : Char}

/-- The number of texts between slashes that satisfy a predicate. -/
def tally (p : List Char → Bool) (path : List Char) : Nat := (path.splitOn '/').countP p

private theorem tally_nil (hp : p [] = false) : tally p [] = 0 := by
  simp [tally, hp]

private theorem tally_cons_slash (hp : p [] = false) (r : List Char) :
    tally p ('/' :: r) = tally p r := by
  have hcut : ('/' :: r).splitOn '/' = [[]] ++ r.splitOn '/' := List.splitOn_append_cons_self [] r
  rw [tally, hcut, List.countP_append, tally]
  simp [hp]

private theorem tally_append (hp : p [] = false) (hb : b = [] ∨ ∃ rest, b = '/' :: rest) :
    tally p (a ++ b) = tally p a + tally p b := by
  rcases hb with rfl | ⟨rest, rfl⟩
  · rw [List.append_nil, tally_nil hp, Nat.add_zero]
  · rw [tally_cons_slash hp, tally, List.splitOn_append_cons_self, List.countP_append, tally, tally]

private theorem tally_segment (hp : p [] = false) (hr : '/' ∉ r) :
    tally p ('/' :: r) = (p r).toNat := by
  rw [tally_cons_slash hp, tally, List.splitOn_eq_singleton hr]
  cases hpr : p r <;> simp [hpr]

private theorem tally_flatten_cons (hp : p [] = false) (htakes : List.Forall₂ Takes texts parts)
    (part : List Char) :
    tally p (part :: parts).flatten = tally p part + tally p parts.flatten := by
  rw [List.flatten_cons, tally_append hp (flatten_eq_nil_or_slash htakes)]

/-- True for a segment that leaves a choice and is no `**`. -/
def Segment.isOpen : Segment → Bool
  | .subtree => false
  | .tokens row => row.any Token.isOpen

/-- What a sample has for a segment, without the slash. -/
def Segment.fill (d : Char) (segment : Segment) : List Char := (segment.sample [] d).tail

/-- True for a text with a line feed. -/
def hasLine (a : List Char) : Bool := a.contains '\n'

private theorem mem_fill_of_isOpen (h : segment.isOpen) : d ∈ segment.fill d := by
  cases segment with
  | subtree => cases h
  | tokens row =>
    obtain ⟨t, ht, hopen⟩ := List.any_eq_true.mp h
    have hsample : t.sample d = d := by
      cases t with
      | literal c => cases hopen
      | _ => rfl
    exact List.mem_map.mpr ⟨t, ht, hsample⟩

private theorem fill_ne_of_isOpen {d' : Char} (h : segment.isOpen) (hd : d ≠ d') :
    segment.fill d ≠ segment.fill d' := by
  cases segment with
  | subtree => cases h
  | tokens row =>
    obtain ⟨t, ht, hopen⟩ := List.any_eq_true.mp h
    intro heq
    have hsample := List.map_inj_left.mp heq t ht
    cases t with
    | literal c => cases hopen
    | _ => exact hd hsample

private theorem PlainFrom.eq_fill (h : PlainFrom text (.tokens row))
    (hclosed : (Segment.tokens row).isOpen = false) {rest : List Char} (hrest : Stands text rest) :
    rest = (Segment.tokens row).fill d := by
  apply h.spells.eq_sample _ hrest
  simpa [Segment.isOpen] using hclosed

private theorem fill_eq_of_closed (h : segment.isOpen = false) (d d' : Char) :
    segment.fill d = segment.fill d' := by
  cases segment with
  | subtree => rfl
  | tokens row =>
    apply List.map_congr_left
    intro t ht
    have hclosed : t.isOpen = false := by
      simp only [Segment.isOpen, List.any_eq_false, Bool.not_eq_true] at h
      exact h t ht
    cases t with
    | literal c => rfl
    | _ => cases hclosed

private theorem tally_hasLine_le (h : PlainFrom text segment) (htakes : Takes text part) :
    tally hasLine part ≤ (hasLine (segment.fill '\n')).toNat := by
  cases segment with
  | subtree =>
    rw [h.eq_subtree] at htakes
    have hnone : tally hasLine part = 0 := by
      rcases htakes.subtree with rfl | ⟨rest, rfl, hrest⟩
      · exact tally_nil rfl
      · rw [tally_cons_slash rfl, tally, List.countP_eq_zero]
        intro piece hpiece hline
        exact hrest (mem_of_mem_splitOn hpiece (List.contains_iff_mem.mp hline))
    omega
  | tokens row =>
    obtain ⟨rest, rfl, hslash, hstands⟩ := htakes.of_ne h.ne_subtree h.slash
    rw [tally_segment rfl hslash]
    cases hopen : (Segment.tokens row).isOpen with
    | true =>
      have hline : hasLine ((Segment.tokens row).fill '\n') = true :=
        List.contains_iff_mem.mpr (mem_fill_of_isOpen hopen)
      rw [hline]
      exact Bool.toNat_le _
    | false => rw [h.eq_fill hopen hstands]

private theorem tally_hasLine_flatten_le (h : List.Forall₂ PlainFrom texts segments)
    (htakes : List.Forall₂ Takes texts parts) :
    tally hasLine parts.flatten ≤ segments.countP fun segment => hasLine (segment.fill '\n') := by
  induction h generalizing parts with
  | nil =>
    cases htakes
    exact Nat.le_refl _
  | @cons text segment texts segments hsegment _ ih =>
    cases htakes with
    | @cons _ part _ parts hpart hparts =>
      have hfirst := tally_hasLine_le hsegment hpart
      have hrest := ih hparts
      rw [tally_flatten_cons rfl hparts, List.countP_cons]
      cases hline : hasLine (segment.fill '\n') <;> simp [hline] at hfirst ⊢ <;> omega

/-- True for a segment that is written as a text. -/
def Segment.spells (w : List Char) (segment : Segment) : Bool :=
  !segment.isOpen && segment.fill 'a' == w

private theorem le_tally_flatten (hw : w ≠ []) (h : List.Forall₂ PlainFrom texts segments)
    (htakes : List.Forall₂ Takes texts parts) :
    segments.countP (Segment.spells w) ≤ tally (· == w) parts.flatten := by
  have hp : (([] : List Char) == w) = false := by simpa using hw.symm
  induction h generalizing parts with
  | nil => exact Nat.zero_le _
  | @cons text segment texts segments hsegment _ ih =>
    cases htakes with
    | @cons _ part _ parts hpart hparts =>
      have hrest := ih hparts
      rw [tally_flatten_cons hp hparts, List.countP_cons]
      by_cases hspells : segment.spells w
      · have hfirst : tally (· == w) part = 1 := by
          cases segment with
          | subtree => exact absurd (beq_iff_eq.mp (Bool.and_eq_true_iff.mp hspells).2).symm hw
          | tokens row =>
            simp only [Segment.spells, Bool.and_eq_true, Bool.not_eq_true', beq_iff_eq] at hspells
            obtain ⟨rest, rfl, hslash, hstands⟩ := hpart.of_ne hsegment.ne_subtree hsegment.slash
            rw [tally_segment hp hslash, hsegment.eq_fill hspells.1 hstands, hspells.2]
            simp
        rw [if_pos hspells]
        omega
      · rw [if_neg hspells]
        omega

private theorem tally_sample (hp : p [] = false) {choose : Segment → Char}
    (h : List.Forall₂ PlainFrom texts segments) (hchoose : ∀ segment, choose segment ≠ '/') :
    tally p (sample [] choose segments) =
      segments.countP fun segment => p (segment.fill (choose segment)) := by
  induction h with
  | nil => exact tally_nil hp
  | @cons text segment texts segments hsegment hsegments ih =>
    obtain ⟨parts, hparts, hflat⟩ := exists_parts_sample hsegments (.inl rfl) hchoose
    have hcut : sample [] choose (segment :: segments) =
        (segment.sample [] (choose segment) :: parts).flatten := by
      rw [List.flatten_cons, hflat]
      rfl
    rw [hcut, tally_flatten_cons hp hparts, hflat, ih, List.countP_cons, Nat.add_comm]
    congr 1
    cases segment with
    | subtree =>
      have hfill : Segment.subtree.fill (choose .subtree) = [] := rfl
      rw [hfill, hp]
      exact tally_nil hp
    | tokens row =>
      have hslash : '/' ∉ (Segment.tokens row).fill (choose (.tokens row)) :=
        hsegment.slash_not_mem_sample (hchoose (.tokens row))
      change tally p ('/' :: (Segment.tokens row).fill (choose (.tokens row))) = _
      rw [tally_segment hp hslash]
      cases p ((Segment.tokens row).fill (choose (.tokens row))) <;> rfl

/-- A sample of one pattern, without one written text more than the pattern has itself. -/
def avoiding (w : List Char) (segment : Segment) : Char :=
  if segment.isOpen && segment.fill 'a' == w then 'b' else 'a'

private theorem fill_avoiding (w : List Char) (segment : Segment) :
    (segment.fill (avoiding w segment) == w) = segment.spells w := by
  rw [avoiding, Segment.spells]
  cases hopen : segment.isOpen with
  | false => rfl
  | true =>
    by_cases hw : segment.fill 'a' = w
    · have hne : segment.fill 'b' ≠ w := hw ▸ fill_ne_of_isOpen hopen (by decide)
      simp [hw, hne]
    · simp [hw]

private theorem avoiding_ne_slash (w : List Char) (segment : Segment) :
    avoiding w segment ≠ '/' := by
  rw [avoiding]
  split <;> decide

/-- The segments with line feeds but without a choice, as they are written. -/
def writtenLines (segments : List Segment) : List (List Char) :=
  (segments.filter fun segment => !segment.isOpen && hasLine (segment.fill 'a')).map
    (Segment.fill 'a')

private theorem count_writtenLines (hw : hasLine w) (segments : List Segment) :
    (writtenLines segments).count w = segments.countP (Segment.spells w) := by
  rw [writtenLines, List.count, List.countP_map, List.countP_filter]
  apply List.countP_congr
  intro segment _
  by_cases hfill : segment.fill 'a' = w
  · simp [Segment.spells, hfill, hw]
  · simp [Segment.spells, hfill]

private theorem countP_hasLine (segments : List Segment) :
    (segments.countP fun segment => hasLine (segment.fill '\n')) =
      segments.countP Segment.isOpen + (writtenLines segments).length := by
  rw [writtenLines, List.length_map, ← List.countP_eq_length_filter]
  induction segments with
  | nil => rfl
  | cons segment segments ih =>
    rw [List.countP_cons, List.countP_cons, List.countP_cons, ih]
    cases hopen : segment.isOpen with
    | true =>
      have hline : hasLine (segment.fill '\n') = true :=
        List.contains_iff_mem.mpr (mem_fill_of_isOpen hopen)
      simp [hline]
      omega
    | false =>
      rw [fill_eq_of_closed hopen '\n' 'a']
      simp
      omega

private theorem exists_parts_of_within {a b : String} {A B : PathPattern}
    (hA : Layout a A segmentsA)
    (hB : Layout b B segmentsB) (hwithin : ∀ path, A.isMatch path → B.isMatch path)
    {tail : List Char} (htail : Takes ['*', '*'] tail) (choose : Segment → Char)
    (hchoose : ∀ segment, choose segment ≠ '/') :
    ∃ parts last, sample tail choose segmentsA = parts.flatten ++ last ∧
      List.Forall₂ Takes (cuts b) parts ∧ (last = [] ∨ last = ['/']) := by
  have hmatch := hwithin _ (hA.isMatch_sample htail hchoose)
  rw [hB.isMatch, String.toList_ofList] at hmatch
  obtain ⟨parts, last, hpath, hparts, hlast⟩ := hmatch
  exact ⟨parts, last, hpath, hparts, hlast.imp_right fun h => h.1⟩

private theorem tally_append_last (hp : p [] = false) {last : List Char}
    (hlast : last = [] ∨ last = ['/']) : tally p (a ++ last) = tally p a := by
  rw [tally_append hp (hlast.imp_right fun h => ⟨[], h⟩)]
  rcases hlast with rfl | rfl
  · rw [tally_nil hp, Nat.add_zero]
  · rw [tally_cons_slash hp, tally_nil hp, Nat.add_zero]

private theorem writtenLines_length_le {a b : String} {A B : PathPattern}
    (hA : Layout a A segmentsA)
    (hB : Layout b B segmentsB) (hwithin : ∀ path, A.isMatch path → B.isMatch path) :
    (writtenLines segmentsB).length ≤ (writtenLines segmentsA).length := by
  refine (List.subperm_ext_iff.mpr fun w hw => ?_).length_le
  have hline : hasLine w := by
    obtain ⟨segment, hsegment, rfl⟩ := List.mem_map.mp hw
    exact (Bool.and_eq_true_iff.mp (List.mem_filter.mp hsegment).2).2
  have hne : w ≠ [] := by
    rintro rfl
    cases hline
  have hp : (([] : List Char) == w) = false := by simpa using hne.symm
  have hchoose := avoiding_ne_slash w
  obtain ⟨parts, last, hpath, hparts, hlast⟩ :=
    exists_parts_of_within hA hB hwithin (.inl rfl) _ hchoose
  rw [count_writtenLines hline, count_writtenLines hline]
  calc segmentsB.countP (Segment.spells w)
      ≤ tally (· == w) parts.flatten := le_tally_flatten hne hB.reads hparts
    _ = tally (· == w) (sample [] (avoiding w) segmentsA) := by
      rw [hpath, tally_append_last hp hlast]
    _ = segmentsA.countP (Segment.spells w) := by
      rw [tally_sample hp hA.reads hchoose]
      simp only [fill_avoiding]

/-- A pattern that contains another one has as many segments with a choice. -/
theorem countP_isOpen_le {a b : String} {A B : PathPattern} (hA : Layout a A segmentsA)
    (hB : Layout b B segmentsB) (hwithin : ∀ path, A.isMatch path → B.isMatch path) :
    segmentsA.countP Segment.isOpen ≤ segmentsB.countP Segment.isOpen := by
  have hline : '\n' ≠ '/' := by decide
  obtain ⟨parts, last, hpath, hparts, hlast⟩ :=
    exists_parts_of_within hA hB hwithin (.inl rfl) (fun _ => '\n') fun _ => hline
  have hlines : segmentsA.countP Segment.isOpen + (writtenLines segmentsA).length ≤
      segmentsB.countP Segment.isOpen + (writtenLines segmentsB).length := by
    rw [← countP_hasLine, ← countP_hasLine, ← tally_sample rfl hA.reads fun _ => hline, hpath,
      tally_append_last rfl hlast]
    exact tally_hasLine_flatten_le hB.reads hparts
  have hwritten := writtenLines_length_le hA hB hwithin
  omega

private theorem count_slash_eq_length (h : List.Forall₂ PlainFrom texts segments)
    (htakes : List.Forall₂ Takes texts parts) (hnone : .subtree ∉ segments) :
    parts.flatten.count '/' = segments.length := by
  induction h generalizing parts with
  | nil =>
    cases htakes
    rfl
  | @cons text segment texts segments hsegment _ ih =>
    cases htakes with
    | @cons _ part _ parts hpart hparts =>
      rw [List.mem_cons, not_or] at hnone
      cases segment with
      | subtree => exact absurd rfl hnone.1
      | tokens row =>
        obtain ⟨rest, rfl, hslash, -⟩ := hpart.of_ne hsegment.ne_subtree hsegment.slash
        rw [List.flatten_cons, List.count_append, List.count_cons_self,
          List.count_eq_zero.mpr hslash, ih hparts hnone.2, List.length_cons]
        omega

/-- A pattern that contains one with a `**` has a `**`. -/
theorem subtree_mem {a b : String} {A B : PathPattern} (hA : Layout a A segmentsA)
    (hB : Layout b B segmentsB) (hwithin : ∀ path, A.isMatch path → B.isMatch path)
    (hsubtree : .subtree ∈ segmentsA) : .subtree ∈ segmentsB := by
  apply Decidable.byContradiction
  intro hnone
  -- the paths without `**` have a bounded number of slashes
  let tail := List.replicate (segmentsB.length + 2) '/'
  have htail : Takes ['*', '*'] tail := by
    rw [Takes, if_pos rfl]
    exact .inr ⟨List.replicate (segmentsB.length + 1) '/', rfl, by simp⟩
  obtain ⟨parts, last, hpath, hparts, hlast⟩ :=
    exists_parts_of_within hA hB hwithin htail (fun _ => 'a') fun _ => by decide
  have hmany : segmentsB.length + 2 ≤ (sample tail (fun _ => 'a') segmentsA).count '/' := by
    have hsub : tail.Sublist (sample tail (fun _ => 'a') segmentsA) :=
      List.sublist_flatten_of_mem (List.mem_map.mpr ⟨.subtree, hsubtree, rfl⟩)
    simpa [tail] using hsub.count_le '/'
  have hfew : last.count '/' ≤ 1 := by rcases hlast with rfl | rfl <;> simp
  rw [hpath, List.count_append, count_slash_eq_length hB.reads hparts hnone] at hmany
  omega

end Pattern

end Switchyard
