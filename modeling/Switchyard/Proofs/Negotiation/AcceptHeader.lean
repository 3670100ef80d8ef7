import Switchyard.Negotiation.Negotiator
import Switchyard.Proofs.Attempt
import Switchyard.Proofs.Text.Pieces
/-!
# Repeated `Accept` headers

Headers of which each closes its quotes are read as if their lists stood one after the other: they
are refused for a piece of one of them, and otherwise the types of all are sorted together
(`Strategy.header_joins`).
-/

namespace Switchyard

open Text

namespace MediaType

/-- A piece of a list that is not blank and no media type. -/
def Malformed (text : String) (piece : List Char) : Prop :=
  IsPiece ',' false text.toList piece ∧ ¬ isBlankText piece ∧
    ∃ fault, parse (String.ofList piece) = .error fault

private theorem parseList_error_iff {text : String} :
    (∃ fault, parseList text = .error fault) ↔ ∃ piece, Malformed text piece := by
  rw [parseList, mapM_error_iff]
  simp only [List.mem_filter, Bool.not_eq_true', Bool.eq_false_iff, splitUnquoted,
    mem_splitUnquotedFrom_iff (show ',' ≠ '"' by decide), and_assoc]
  rfl

private theorem parseList_joinWith {texts : List String} (hne : texts ≠ [])
    (heven : ∀ text ∈ texts, text.toList.count '"' % 2 = 0) :
    parseList (joinWith "," texts) = (texts.mapM parseList).map List.flatten := by
  have hcut : splitUnquoted ',' (joinWith "," texts).toList =
      texts.flatMap fun text => splitUnquoted ',' text.toList := by
    have hclosed : ∀ s ∈ texts.map String.toList, quotedAfter false s = false := by
      rw [List.forall_mem_map]
      exact fun text htext => quotedAfter_false_iff.mpr (heven text htext)
    have hsplit := splitUnquoted_intercalate (show ',' ≠ '"' by decide) (by simpa using hne) hclosed
    rw [List.flatMap_map] at hsplit
    rw [joinWith, String.toList_intercalate]
    exact hsplit
  rw [parseList, hcut, List.filter_flatMap, mapM_flatMap]
  rfl

end MediaType

namespace Strategy

variable {req : Request}

/-- The values of the `Accept` headers, whatever the letter case of the name, as they came. -/
def acceptValues (req : Request) : List String :=
  (req.headers.filter fun p => lower p.1 = "accept").map (·.2)

private theorem getAll_accept : req.headers.getAll "accept" = acceptValues req := rfl

private theorem header_resolve
    (heven : ∀ value ∈ acceptValues req, value.toList.count '"' % 2 = 0) : header.resolve req =
      match (acceptValues req).mapM MediaType.parseList with
      | .error fault => .error ⟨joinWith "," (acceptValues req), fault.message⟩
      | .ok lists =>
        .ok (if lists.flatten = [] then [.all] else MediaType.sort lists.flatten) := by
  rw [header]
  dsimp only
  rw [getAll_accept]
  cases hvalues : acceptValues req with
  | nil => rfl
  | cons value values =>
    rw [hvalues] at heven
    have hread := MediaType.parseList_joinWith (List.cons_ne_nil _ _) heven
    dsimp only
    rw [hread]
    cases (value :: values).mapM MediaType.parseList with
    | error fault => rfl
    | ok lists =>
      simp only [Except.map]
      cases lists.flatten with
      | nil => rfl
      | cons m ms => rfl

/-- Repeated headers count as one list. When the quotes of each value close, the request is refused
exactly if a piece of a value is not blank and no media type; otherwise the answer is the sorted list
of what all values list, as they came, or everything if that is nothing. -/
theorem header_joins (heven : ∀ value ∈ acceptValues req, value.toList.count '"' % 2 = 0) :
    ((∃ fault, header.resolve req = .error fault) ↔
      ∃ value ∈ acceptValues req, ∃ piece, MediaType.Malformed value piece) ∧
    ((¬ ∃ value ∈ acceptValues req, ∃ piece, MediaType.Malformed value piece) →
      ∃ lists, (acceptValues req).mapM MediaType.parseList = .ok lists ∧
        header.resolve req =
          .ok (if lists.flatten = [] then [.all] else MediaType.sort lists.flatten)) := by
  have hbad : (∃ value ∈ acceptValues req, ∃ piece, MediaType.Malformed value piece) ↔
      ∃ fault, (acceptValues req).mapM MediaType.parseList = .error fault := by
    rw [mapM_error_iff]
    simp only [MediaType.parseList_error_iff]
  rw [hbad, header_resolve heven]
  cases (acceptValues req).mapM MediaType.parseList with
  | error fault => simp
  | ok lists => simp

/-- Two headers with another one between them, and a comma inside quotes. -/
def picky : Request where
  method := .get
  path := "/page"
  headers := [("ACCEPT", "text/*, text/html;title=\"a,b\""), ("Host", "example.com"),
    ("accept", " , image/png")]

theorem header_joins_picky :
    (∀ value ∈ acceptValues picky, value.toList.count '"' % 2 = 0) ∧
      (¬ ∃ value ∈ acceptValues picky, ∃ piece, MediaType.Malformed value piece) ∧
      ∃ lists, (acceptValues picky).mapM MediaType.parseList = .ok lists ∧
        lists.flatten = [⟨"text", "*", []⟩, ⟨"text", "html", [("title", "a,b")]⟩,
          ⟨"image", "png", []⟩] ∧
        header.resolve picky = .ok (MediaType.sort lists.flatten) := by
  have heven : ∀ value ∈ acceptValues picky, value.toList.count '"' % 2 = 0 := by decide
  have hlists : (acceptValues picky).mapM MediaType.parseList =
      .ok [[⟨"text", "*", []⟩, ⟨"text", "html", [("title", "a,b")]⟩], [⟨"image", "png", []⟩]] := by
    rfl
  have hread : ∃ types, header.resolve picky = .ok types := ⟨_, rfl⟩
  obtain ⟨hrefused, hjoined⟩ := header_joins heven
  have hsound : ¬ ∃ value ∈ acceptValues picky, ∃ piece, MediaType.Malformed value piece := by
    rw [← hrefused]
    rintro ⟨fault, hfault⟩
    obtain ⟨types, htypes⟩ := hread
    rw [hfault] at htypes
    cases htypes
  obtain ⟨lists, hmap, hresolve⟩ := hjoined hsound
  refine ⟨heven, hsound, lists, hmap, ?_, ?_⟩
  · rw [hlists] at hmap
    cases hmap
    rfl
  · rw [hlists] at hmap
    cases hmap
    exact hresolve

end Strategy

end Switchyard
