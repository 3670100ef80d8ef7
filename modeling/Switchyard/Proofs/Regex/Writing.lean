import Switchyard.Regex.Parser
/-!
# Reading expressions part by part

What the reader of regular expressions makes of the parts of an expression, one after the other: a
part of its own, a repetition of what stands before it, a group. A text that is read as a row of
parts is an expression of these (`Regex.parse_of_reads`), and so it is behind the flag that has it
ignore letter case (`Regex.parse_of_reads_folding`).
-/

namespace Switchyard.Regex

/-- The reader of an expression without flags, which has met some names. -/
def Reader.knowing (names : List String) : Reader := ⟨.default, names⟩

/-- The reader behind the flag that has letter case ignored. -/
def Reader.folding : Reader := ⟨{ Flags.default with ignoreCase := true }, []⟩

/-- No flag is set but perhaps the one for letter case. -/
def Reader.IsSimple (r : Reader) : Prop :=
  { r.flags with ignoreCase := false } = Flags.default

theorem Reader.isSimple_knowing (names : List String) : (knowing names).IsSimple := rfl

theorem Reader.isSimple_folding : folding.IsSimple := rfl

variable {r r' r'' : Reader} {names names' names'' : List String} {s t rest : List Char}
  {node body : Regex} {nodes nodes' : List Regex} {repeatable : Bool} {least : Nat}
  {most : Option Nat} {c : Char}

theorem Reader.IsSimple.eq (h : r.IsSimple) :
    r = ⟨{ Flags.default with ignoreCase := r.flags.ignoreCase }, r.names⟩ := by
  rw [← h]

theorem Reader.IsSimple.skipIgnored (h : r.IsSimple) (s : List Char) :
    skipIgnored r.flags s = s := by
  rw [h.eq]
  rfl

private theorem readEscape_meta (f : Flags) (hc : isMeta c) (s : List Char) :
    readEscape f (c :: s) = .ok (.literal c, s) := by
  have hmem : c ∈ ['\\', '.', '+', '*', '?', '(', ')', '|', '[', ']', '^', '$', '#', '&', '-', '~',
      '\x7b', '\x7d'] := by
    simpa [isMeta, or_assoc] using hc
  simp only [List.mem_cons, List.not_mem_nil, or_false] at hmem
  rcases hmem with rfl | rfl | rfl | rfl | rfl | rfl | rfl | rfl | rfl | rfl | rfl | rfl | rfl |
    rfl | rfl | rfl | rfl | rfl <;> rfl

private theorem readSign_escaped (hr : r.IsSimple) (hc : isMeta c) (hnode : r.literal c = .ok node)
    (s : List Char) : readSign r repeatable ('\\' :: c :: s) = .ok (.part node, s) := by
  rw [readSign, hr.skipIgnored]
  change readSignAt r repeatable '\\' (c :: s) = _
  rw [readSignAt, Reader.escape, readEscape_meta _ hc]
  change ((r.literal c >>= fun n => .ok (n, s)) >>= fun p : Regex × List Char =>
    .ok (Sign.part p.1, p.2)) = _
  rw [hnode]
  rfl

private theorem readSign_plain (hr : r.IsSimple) (hc : ¬ isMeta c)
    (hnode : r.literal c = .ok node) (s : List Char) :
    readSign r repeatable (c :: s) = .ok (.part node, s) := by
  have hne (d : Char) (hd : isMeta d) : c ≠ d := fun h => hc (h ▸ hd)
  rw [readSign, hr.skipIgnored]
  change readSignAt r repeatable c s = _
  unfold readSignAt
  split
  case h_13 =>
    rw [hnode]
    rfl
  all_goals exact absurd rfl (hne _ (by decide))

theorem readSign_opening {o : Opening} (h : readOpening .default s = .ok (o, rest)) :
    readSign (.knowing names) repeatable ('(' :: s) = .ok (.opening o, rest) := by
  have hnone (s : List Char) : skipIgnored Flags.default s = s := rfl
  change readSignAt (.knowing names) repeatable '(' s = _
  rw [readSignAt, Reader.knowing]
  simp only [hnone, h]
  rfl

theorem readOpening_name {name : String} (h : readGroupName s = .ok (name, rest)) :
    readOpening .default ('?' :: 'P' :: '<' :: s) = .ok (.body .default (some name), rest) := by
  rw [readOpening, h]
  rfl

theorem head?_flatMap_append_ne {α : Type} {f : α → List Char} (hf : ∀ a, (f a).head? ≠ some c)
    (l : List α) (hrest : rest.head? ≠ some c) : (l.flatMap f ++ rest).head? ≠ some c := by
  induction l with
  | nil => exact hrest
  | cons a l ih =>
    rw [List.flatMap_cons, List.append_assoc, List.head?_append]
    cases hhead : (f a).head? with
    | none => exact ih
    | some d =>
      rw [Option.some_or, ← hhead]
      exact hf a

/-- With as much fuel as there is text, the reader takes up the beginning of a text as some parts,
and goes on behind it. -/
structure Reads (r : Reader) (s : List Char) (nodes : List Regex) (r' : Reader) (rest : List Char) :
    Prop where
  length_le : rest.length ≤ s.length
  goesOn : ∀ fuel branches parts, s.length < fuel → ∃ fuel', rest.length < fuel' ∧
    readAlternatives fuel r branches parts s =
      readAlternatives fuel' r' branches ((nodes.map some).reverse ++ parts) rest

theorem Reads.nil (r : Reader) (s : List Char) : Reads r s [] r s :=
  ⟨Nat.le_refl _, fun fuel _ _ hfuel => ⟨fuel, hfuel, rfl⟩⟩

theorem Reads.append (h : Reads r s nodes r' t) (h' : Reads r' t nodes' r'' rest) :
    Reads r s (nodes ++ nodes') r'' rest := by
  refine ⟨Nat.le_trans h'.length_le h.length_le, ?_⟩
  intro fuel branches parts hfuel
  obtain ⟨fuel', hfuel', hread⟩ := h.goesOn fuel branches parts hfuel
  obtain ⟨fuel'', hfuel'', hread'⟩ := h'.goesOn fuel' branches _ hfuel'
  refine ⟨fuel'', hfuel'', ?_⟩
  rw [hread, hread', List.map_append, List.reverse_append, List.append_assoc]

theorem reads_part
    (h : ∀ repeatable, readSign r repeatable (c :: (s ++ rest)) = .ok (.part node, rest)) :
    Reads r (c :: (s ++ rest)) [node] r rest := by
  have hlength : rest.length < (c :: (s ++ rest)).length := by
    simp only [List.length_cons, List.length_append]
    omega
  refine ⟨Nat.le_of_lt hlength, ?_⟩
  intro fuel branches parts hfuel
  obtain ⟨fuel, rfl⟩ : ∃ n, fuel = n + 1 := ⟨fuel - 1, by omega⟩
  refine ⟨fuel, by omega, ?_⟩
  rw [readAlternatives, h]
  rfl

theorem reads_escape (hr : r.IsSimple) (hnode : r.literal c = .ok node) (s : List Char) :
    Reads r (escape [c] ++ s) [node] r s := by
  rw [escape, List.flatMap_singleton]
  split
  · next hc => exact reads_part (s := [c]) fun _ => readSign_escaped hr hc hnode s
  · next hc => exact reads_part (s := []) fun _ => readSign_plain hr hc hnode s

theorem reads_caret (hr : r.IsSimple) (s : List Char) :
    Reads r ('^' :: s) [.assert .textStart] r s := by
  rw [hr.eq]
  exact reads_part (s := []) fun _ => rfl

theorem reads_dollar (hr : r.IsSimple) (s : List Char) :
    Reads r ('$' :: s) [.assert .textEnd] r s := by
  rw [hr.eq]
  exact reads_part (s := []) fun _ => rfl

private theorem repetition_of_head (hr : r.IsSimple) (hwidth : body.isZeroWidth = false)
    (hsize : max least (most.getD 0) * body.size ≤ sizeLimit) (hrest : rest.head? ≠ some '?') :
    r.repetition body least most rest = .ok (repeats true body least most, rest) := by
  have hgreed : r.flags.swapGreed = false := by rw [hr.eq, Flags.default]
  rw [Reader.repetition, hwidth, hr.skipIgnored, hgreed]
  rw [if_neg Bool.false_ne_true]
  dsimp only
  rw [if_neg (Nat.not_lt.mpr hsize)]
  split
  · exact absurd rfl hrest
  · rfl

private theorem reads_repetition (h : Reads r s [body] r' (c :: rest)) (hr : r'.IsSimple)
    (hmark : ∀ repeatable, readSign r' repeatable (c :: rest) = .ok (.mark least most, rest))
    (hwidth : body.isZeroWidth = false) (hsize : max least (most.getD 0) * body.size ≤ sizeLimit)
    (hrest : rest.head? ≠ some '?') : Reads r s [repeats true body least most] r' rest := by
  have hlength : rest.length < s.length := h.length_le
  refine ⟨Nat.le_of_lt hlength, ?_⟩
  intro fuel branches parts hfuel
  obtain ⟨fuel', hfuel', hread⟩ := h.goesOn fuel branches parts hfuel
  obtain ⟨fuel', rfl⟩ : ∃ n, fuel' = n + 1 := ⟨fuel' - 1, by omega⟩
  refine ⟨fuel', Nat.lt_of_succ_lt_succ hfuel', ?_⟩
  have hrepeat : r'.repeatLast least most rest (some body :: parts) =
      .ok (some (repeats true body least most) :: parts, rest) := by
    rw [Reader.repeatLast, repetition_of_head hr hwidth hsize hrest]
    rfl
  rw [hread]
  change readAlternatives (fuel' + 1) r' branches (some body :: parts) _ = _
  rw [readAlternatives, hmark]
  dsimp only [bind, Except.bind]
  rw [hrepeat]
  rfl

private theorem readSign_mark (hr : r.IsSimple) (s : List Char) :
    readSign r repeatable ('*' :: s) = .ok (.mark 0 none, s) ∧
      readSign r repeatable ('+' :: s) = .ok (.mark 1 none, s) ∧
      readSign r repeatable ('?' :: s) = .ok (.mark 0 (some 1), s) := by
  simp only [readSign, hr.skipIgnored]
  exact ⟨rfl, rfl, rfl⟩

theorem Reads.star (h : Reads r s [body] r' ('*' :: rest)) (hr : r'.IsSimple)
    (hwidth : body.isZeroWidth = false) (hrest : rest.head? ≠ some '?') :
    Reads r s [star true body] r' rest :=
  reads_repetition h hr (fun _ => (readSign_mark hr rest).1) hwidth (by simp) hrest

theorem Reads.plus (h : Reads r s [body] r' ('+' :: rest)) (hr : r'.IsSimple)
    (hwidth : body.isZeroWidth = false) (hsize : body.size ≤ sizeLimit)
    (hrest : rest.head? ≠ some '?') : Reads r s [plus true body] r' rest :=
  reads_repetition h hr (fun _ => (readSign_mark hr rest).2.1) hwidth (by simpa using hsize) hrest

theorem Reads.optional (h : Reads r s [body] r' ('?' :: rest)) (hr : r'.IsSimple)
    (hwidth : body.isZeroWidth = false) (hsize : body.size ≤ sizeLimit)
    (hrest : rest.head? ≠ some '?') : Reads r s [optional true body] r' rest :=
  reads_repetition h hr (fun _ => (readSign_mark hr rest).2.2) hwidth (by simpa using hsize) hrest

theorem toRegex_of_nodes (nodes : List Regex) :
    Parts.toRegex ((nodes.map some).reverse ++ []) = seqs nodes := by
  rw [Parts.toRegex, List.append_nil, List.filterMap_reverse, List.reverse_reverse,
    List.filterMap_map]
  simp

theorem readAlternatives_of_reads (h : Reads r s nodes r' rest)
    (hclose : ∀ repeatable, readSign r' repeatable rest = .ok (.close, rest))
    {fuel : Nat} (hfuel : s.length < fuel) :
    readAlternatives fuel r [] [] s = .ok (seqs nodes, r', rest) := by
  obtain ⟨fuel', hfuel', hread⟩ := h.goesOn fuel [] [] hfuel
  obtain ⟨fuel', rfl⟩ : ∃ n, fuel' = n + 1 := ⟨fuel' - 1, by omega⟩
  rw [hread, readAlternatives, hclose]
  change Except.ok (alts [Parts.toRegex _], r', rest) = _
  rw [toRegex_of_nodes]
  rfl

theorem reads_group {name : Option String}
    (hopen : ∀ repeatable, readSign (.knowing names) repeatable (c :: (t ++ s)) =
      .ok (.opening (.body .default name), s))
    (henter : (Reader.knowing names).enter .default name = .ok (.knowing names'))
    (hinner : Reads (.knowing names') s nodes (.knowing names'') (')' :: rest)) :
    Reads (.knowing names) (c :: (t ++ s)) [named name (seqs nodes)] (.knowing names'') rest := by
  have hrest : rest.length < s.length := hinner.length_le
  have hlength : s.length < (c :: (t ++ s)).length := by
    simp only [List.length_cons, List.length_append]
    omega
  refine ⟨by omega, ?_⟩
  intro fuel branches parts hfuel
  obtain ⟨fuel, rfl⟩ : ∃ n, fuel = n + 1 := ⟨fuel - 1, by omega⟩
  refine ⟨fuel, by omega, ?_⟩
  have hread : readAlternatives fuel (.knowing names') [] [] s =
      .ok (seqs nodes, .knowing names'', ')' :: rest) :=
    readAlternatives_of_reads hinner (fun _ => rfl) (by omega)
  rw [readAlternatives, hopen]
  dsimp only [bind, Except.bind]
  rw [henter]
  dsimp only
  rw [hread]
  rfl

/-- A text that is read as parts up to its end is their expression, if there is room for it. -/
theorem parse_of_reads (h : Reads (.knowing []) s nodes (.knowing names) []) : parse s =
    if (seqs nodes).size ≤ sizeLimit then .ok (seqs nodes) else .error .tooLarge := by
  have hread : readAlternatives (s.length + 1) (.knowing []) [] [] s =
      .ok (seqs nodes, .knowing names, []) :=
    readAlternatives_of_reads h (fun _ => rfl) (Nat.lt_succ_self _)
  rw [parse, show (⟨.default, []⟩ : Reader) = .knowing [] from rfl, hread]
  rfl

/-- The flag leaves no part of its own behind. -/
theorem parse_of_reads_folding (h : Reads .folding s nodes .folding []) :
    parse ('(' :: '?' :: 'i' :: ')' :: s) =
      if (seqs nodes).size ≤ sizeLimit then .ok (seqs nodes) else .error .tooLarge := by
  obtain ⟨fuel, hfuel, hread⟩ := h.goesOn (s.length + 4) [] [none] (by omega)
  obtain ⟨fuel, rfl⟩ : ∃ n, fuel = n + 1 := ⟨fuel - 1, by omega⟩
  have hparts : Parts.toRegex ((nodes.map some).reverse ++ [none]) = seqs nodes := by
    rw [← toRegex_of_nodes, Parts.toRegex, Parts.toRegex, List.filterMap_append,
      List.filterMap_append]
    rfl
  have hwhole : readAlternatives (('(' :: '?' :: 'i' :: ')' :: s).length + 1) ⟨.default, []⟩ [] []
      ('(' :: '?' :: 'i' :: ')' :: s) = .ok (seqs nodes, .folding, []) := by
    change readAlternatives (s.length + 4) .folding [] [none] s = _
    rw [hread, readAlternatives]
    change Except.ok (alts [Parts.toRegex _], Reader.folding, []) = _
    rw [hparts]
    rfl
  rw [parse, hwhole]
  rfl

end Switchyard.Regex
