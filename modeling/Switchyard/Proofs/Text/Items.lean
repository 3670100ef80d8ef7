import Switchyard.Text.Cut
/-!
# Items of lists

Lists in one text, their items trimmed and not empty. A list that is written out item by item is read
as these items again (`Text.listItems_joinWith`).
-/

namespace Switchyard

theorem not_mem_of_mem_splitOn {α : Type} [DecidableEq α] {x : α} {xs piece : List α}
    (hpiece : piece ∈ xs.splitOn x) : x ∉ piece := by
  induction xs generalizing piece with
  | nil => simp_all [List.splitOn_nil]
  | cons y xs ih =>
    rw [List.splitOn_cons_eq_if_modifyHead] at hpiece
    split at hpiece
    · rcases List.mem_cons.mp hpiece with rfl | hpiece
      · exact List.not_mem_nil
      · exact ih hpiece
    · next hne =>
      cases hsplit : xs.splitOn x with
      | nil => exact absurd hsplit (List.splitOn_ne_nil x xs)
      | cons first rest =>
        rw [hsplit] at hpiece ih
        rcases List.mem_cons.mp hpiece with rfl | hpiece
        · rw [List.mem_cons, not_or]
          exact ⟨fun h => hne (by simp [h]), ih List.mem_cons_self⟩
        · exact ih (List.mem_cons_of_mem _ hpiece)

theorem mem_of_mem_splitOn {α : Type} [DecidableEq α] {x y : α} {xs piece : List α}
    (hpiece : piece ∈ xs.splitOn x) (hy : y ∈ piece) : y ∈ xs := by
  induction xs generalizing piece with
  | nil =>
    rw [List.splitOn_nil, List.mem_singleton] at hpiece
    exact hpiece ▸ hy
  | cons z xs ih =>
    cases hsplit : xs.splitOn x with
    | nil => exact absurd hsplit (List.splitOn_ne_nil x xs)
    | cons first rest =>
      rw [hsplit] at ih
      rw [List.splitOn_cons_eq_if_modifyHead, hsplit] at hpiece
      split at hpiece
      · rcases List.mem_cons.mp hpiece with rfl | hpiece
        · cases hy
        · exact List.mem_cons_of_mem z (ih hpiece hy)
      · rcases List.mem_cons.mp hpiece with rfl | hpiece
        · rcases List.mem_cons.mp hy with rfl | hy
          · exact List.mem_cons_self
          · exact List.mem_cons_of_mem z (ih List.mem_cons_self hy)
        · exact List.mem_cons_of_mem z (ih (List.mem_cons_of_mem first hpiece) hy)

namespace Text

variable {sep : Char} {s : List Char}

private theorem head?_dropWhile_isBlank {c : Char} (h : (s.dropWhile isBlank).head? = some c) :
    isBlank c = false := by
  simpa [h] using List.head?_dropWhile_not isBlank s

private theorem head?_trim {c : Char} (h : (trim s).head? = some c) : isBlank c = false := by
  apply head?_dropWhile_isBlank (s := s)
  -- what is dropped at the end is not the head of what stays
  obtain ⟨dropped, hdropped⟩ := List.dropWhile_suffix isBlank (l := (s.dropWhile isBlank).reverse)
  have hparts : s.dropWhile isBlank = trim s ++ dropped.reverse := by
    rw [trim, trimWhile, dropEndWhile, ← List.reverse_append, hdropped, List.reverse_reverse]
  rw [hparts, List.head?_append, h]
  rfl

private theorem getLast?_trim {c : Char} (h : (trim s).getLast? = some c) : isBlank c = false := by
  rw [trim, trimWhile, dropEndWhile, List.getLast?_reverse] at h
  exact head?_dropWhile_isBlank h

@[simp] theorem trim_trim (s : List Char) : trim (trim s) = trim s :=
  trim_eq_self_of_ends (fun _ => head?_trim) fun _ => getLast?_trim

private theorem trim_cons_of_isBlank {c : Char} (hc : isBlank c) (s : List Char) :
    trim (c :: s) = trim s := by
  rw [trim, trimWhile, List.dropWhile_cons_of_pos hc]
  rfl

/-- A text that may stand in a list: trimmed, not empty, and without separators. -/
structure IsItem (sep : Char) (s : List Char) : Prop where
  trimmed : trim s = s
  ne_nil : s ≠ []
  free : sep ∉ s

instance : Decidable (IsItem sep s) :=
  decidable_of_iff (trim s = s ∧ s ≠ [] ∧ sep ∉ s)
    ⟨fun h => ⟨h.1, h.2.1, h.2.2⟩, fun h => ⟨h.trimmed, h.ne_nil, h.free⟩⟩

private theorem trimmedPieces_append (s t : List Char) :
    trimmedPieces sep (s ++ sep :: t) = trimmedPieces sep s ++ trimmedPieces sep t := by
  rw [trimmedPieces, List.splitOn_append_cons_self, List.map_append, List.filter_append]
  rfl

private theorem trimmedPieces_cons_of_isBlank {c : Char} (hc : isBlank c) (hne : c ≠ sep)
    (s : List Char) : trimmedPieces sep (c :: s) = trimmedPieces sep s := by
  rw [trimmedPieces, trimmedPieces, List.splitOn_cons_eq_if_modifyHead, if_neg (by simpa using hne)]
  cases hsplit : s.splitOn sep with
  | nil => exact absurd hsplit (List.splitOn_ne_nil sep s)
  | cons first rest =>
    rw [List.modifyHead_cons, List.map_cons, List.map_cons, trim_cons_of_isBlank hc]

theorem IsItem.trimmedPieces (h : IsItem sep s) : trimmedPieces sep s = [s] := by
  simp [Text.trimmedPieces, List.splitOn_eq_singleton h.free, h.trimmed, h.ne_nil]

theorem mem_listItems {text item : String} : item ∈ listItems sep text ↔
    ∃ piece ∈ text.toList.splitOn sep, trim piece ≠ [] ∧ String.ofList (trim piece) = item := by
  simp only [listItems, trimmedPieces, List.mem_map, List.mem_filter, Bool.not_eq_true',
    List.isEmpty_eq_false_iff]
  constructor
  · rintro ⟨_, ⟨⟨piece, hpiece, rfl⟩, hne⟩, hitem⟩
    exact ⟨piece, hpiece, hne, hitem⟩
  · rintro ⟨piece, hpiece, hne, hitem⟩
    exact ⟨_, ⟨⟨piece, hpiece, rfl⟩, hne⟩, hitem⟩

theorem isItem_of_mem_listItems {text item : String} (h : item ∈ listItems sep text) :
    IsItem sep item.toList := by
  obtain ⟨piece, hpiece, hne, rfl⟩ := mem_listItems.mp h
  rw [String.toList_ofList]
  refine ⟨trim_trim piece, hne, ?_⟩
  intro hsep
  exact not_mem_of_mem_splitOn hpiece ((trim_sublist piece).subset hsep)

/-- A list is read as the items of which it is written, the blanks behind the commas left out. -/
theorem listItems_joinWith {items : List String}
    (hitems : ∀ item ∈ items, IsItem ',' item.toList) :
    listItems ',' (joinWith ", " items) = items := by
  rw [listItems, joinWith, String.toList_intercalate]
  induction items with
  | nil => rfl
  | cons item items ih =>
    rw [List.forall_mem_cons] at hitems
    have hone := hitems.1.trimmedPieces
    cases items with
    | nil => simp [hone]
    | cons item' items =>
      have hrest := ih hitems.2
      have hjoin : ", ".toList.intercalate ((item :: item' :: items).map String.toList) =
          item.toList ++
            ',' :: ' ' :: ", ".toList.intercalate ((item' :: items).map String.toList) := by
        rw [List.map_cons, List.map_cons, List.intercalate_cons_cons, List.append_assoc]
        rfl
      rw [hjoin, trimmedPieces_append, trimmedPieces_cons_of_isBlank (by decide) (by decide), hone,
        List.map_append, hrest, List.map_singleton, String.ofList_toList]
      rfl

end Text

end Switchyard
