import Switchyard.Proofs.Pattern.Noting
import Switchyard.Proofs.Pattern.Template
import Switchyard.View.Basic
/-!
# Templates filled in

What a template catches of a path gives the path back when a redirection fills it in, and filling
in texts that are not empty and have no slash gives a path from which the template catches these
texts again (`PathPattern.template_round_trip`).
-/

namespace Switchyard

namespace Pattern

variable {parts : List Part} {segments : List (List Part)} {a : List Char} {g h : Groups}

/-- The text that was noted for a variable. -/
def caught (g : Groups) (name : String) : List Char := (g.get? name).getD []

private theorem note_piece {part : Part} {b : List Char} {name : String}
    (hpart : part.name? ≠ some name) : (part.piece.note b g).get? name = g.get? name := by
  cases part with
  | sign c =>
    rw [Part.piece]
    split <;> rfl
  | «variable» other =>
    exact Groups.get?_put_of_ne fun heq => hpart (by rw [heq]; rfl)

private theorem takes_sign_iff {c : Char} {b : List Char} :
    (Part.sign c).piece.Takes b ↔ b = [c] := by
  rw [Part.piece]
  split
  · next hc =>
    rw [hc]
    rfl
  · rfl

/-- What the parts of a template take up is the template with the noted texts filled in. -/
private theorem fill_of_rowGives {last : List Piece} (hlast : last = [] ∨ last = [.optionalSlash])
    (hnames : (partNames parts).Nodup) (hgives : RowGives (parts.map Part.piece ++ last) a g h) :
    (∃ b, a = parts.flatMap (Part.fill (caught h)) ++ b ∧ (b = [] ∨ b = ['/'])) ∧
      ∀ name ∈ partNames parts, ∃ text, h.get? name = some text ∧ text ≠ [] ∧ '/' ∉ text := by
  induction parts generalizing a g with
  | nil =>
    refine ⟨⟨a, rfl, ?_⟩, by simp [partNames]⟩
    rcases hlast with rfl | rfl
    · exact .inl hgives.1
    · obtain ⟨b, c, rfl, hb, rfl, -⟩ := hgives
      rwa [List.append_nil]
  | cons part parts ih =>
    rw [partNames_cons] at hnames ⊢
    obtain ⟨b, c, rfl, hb, hrest⟩ := hgives
    obtain ⟨⟨d, rfl, hd⟩, hcaught⟩ := ih (List.nodup_append.mp hnames).2.1 hrest
    cases part with
    | sign c =>
      rw [takes_sign_iff.mp hb]
      exact ⟨⟨d, rfl, hd⟩, hcaught⟩
    | «variable» name =>
      have hfound : h.get? name = some b := by
        have hkept : h.get? name = _ := get?_of_rowGives ?_ hrest
        · rw [hkept]
          exact Groups.get?_put_self
        · -- the name comes but once
          intro p hp b g
          rcases List.mem_append.mp hp with hp | hp
          · obtain ⟨part, hpart, rfl⟩ := List.mem_map.mp hp
            apply note_piece
            intro hname
            exact (List.nodup_append.mp hnames).2.2 name (by simp [Part.name?]) name
              (List.mem_filterMap.mpr ⟨part, hpart, hname⟩) rfl
          · rcases hlast with rfl | rfl
            · cases hp
            · rw [List.mem_singleton.mp hp]
              rfl
      refine ⟨⟨d, ?_, hd⟩, ?_⟩
      · rw [List.flatMap_cons, Part.fill, caught, hfound, List.append_assoc]
        rfl
      · rw [Part.name?, Option.toList_some, List.singleton_append, List.forall_mem_cons]
        exact ⟨⟨b, hfound, hb.1, hb.2⟩, hcaught⟩

/-- A template filled in with texts that are not empty and have no slash is taken up by its parts. -/
private theorem rowTakes_fill {value : String → List Char} {last : List Piece}
    (hlast : last = [] ∨ last = [.optionalSlash])
    (hvalue : ∀ name ∈ partNames parts, value name ≠ [] ∧ '/' ∉ value name) :
    RowTakes (parts.map Part.piece ++ last) (parts.flatMap (Part.fill value)) := by
  induction parts with
  | nil =>
    rcases hlast with rfl | rfl
    · exact rfl
    · exact ⟨[], [], rfl, .inl rfl, rfl⟩
  | cons part parts ih =>
    rw [partNames_cons, List.forall_mem_append] at hvalue
    refine ⟨part.fill value, _, rfl, ?_, ih hvalue.2⟩
    cases part with
    | sign c => exact takes_sign_iff.mpr rfl
    | «variable» name => exact hvalue.1 name (by simp [Part.name?])

private theorem expand_parts {value? : String → Option String} {value : String → List Char}
    (hplain : ∀ part ∈ parts, part.isPlain)
    (hvalue : ∀ name ∈ partNames parts, value? name = some (String.ofList (value name))) :
    View.expand value? (parts.flatMap Part.text) = parts.flatMap (Part.fill value) := by
  induction parts with
  | nil => rw [List.flatMap_nil, View.expand]; rfl
  | cons part parts ih =>
    rw [List.forall_mem_cons] at hplain
    rw [partNames_cons, List.forall_mem_append] at hvalue
    have ih := ih hplain.2 hvalue.2
    cases part with
    | sign c =>
      have hopen : c ≠ '\x7b' := (isPlainChar_iff.mp hplain.1).1
      rw [List.flatMap_cons, Part.text, List.singleton_append, View.expand, if_neg hopen, ih]
      rfl
    | «variable» name =>
      have hcut : Text.cutFirst '\x7d' (name.toList ++ '\x7d' :: parts.flatMap Part.text) =
          some (name.toList, parts.flatMap Part.text) :=
        Text.cutFirst_append (fun hmem => (ne_brace_of_isPlain hplain.1 _ hmem).2 rfl) _
      rw [List.flatMap_cons, Part.text_variable_append, View.expand, if_pos rfl]
      split
      · next hnone =>
        rw [hcut] at hnone
        cases hnone
      · next heq =>
        rw [hcut] at heq
        cases heq
        rw [String.ofList_toList, hvalue.1 name (by simp [Part.name?]), ih]
        simp [Part.fill]

/-- With one variable at most, a segment tells by its text what was filled in. -/
private theorem eq_of_fill_eq {value value' : String → List Char}
    (hone : parts.countP Part.isVariable ≤ 1)
    (heq : parts.flatMap (Part.fill value) = parts.flatMap (Part.fill value')) :
    ∀ name ∈ partNames parts, value name = value' name := by
  induction parts with
  | nil => simp [partNames]
  | cons part parts ih =>
    cases part with
    | sign c =>
      rw [List.flatMap_cons, List.flatMap_cons, Part.fill, Part.fill] at heq
      exact ih (by simpa [Part.isVariable, Part.name?] using hone) (List.append_cancel_left heq)
    | «variable» name =>
      have hnone : parts.countP Part.isVariable = 0 := by
        rw [List.countP_cons_of_pos rfl] at hone
        omega
      rw [List.countP_eq_zero] at hnone
      have hrest : parts.flatMap (Part.fill value) = parts.flatMap (Part.fill value') := by
        apply List.flatMap_congr
        intro part hpart
        cases part with
        | sign c => rfl
        | «variable» other => exact absurd rfl (hnone _ hpart)
      have hnames : partNames parts = [] := by
        rw [partNames, List.filterMap_eq_nil_iff]
        intro part hpart
        simpa [Part.isVariable] using hnone part hpart
      rw [List.flatMap_cons, List.flatMap_cons, hrest] at heq
      rw [partNames_cons, hnames]
      have hvalue : value name = value' name := List.append_cancel_right heq
      simpa [Part.name?] using hvalue

private theorem slash_not_mem_fill {value : String → List Char} (hslash : Part.sign '/' ∉ parts)
    (hvalue : ∀ name ∈ partNames parts, '/' ∉ value name) :
    '/' ∉ parts.flatMap (Part.fill value) := by
  intro hmem
  obtain ⟨part, hpart, hchar⟩ := List.mem_flatMap.mp hmem
  cases part with
  | sign c =>
    rw [Part.fill, List.mem_singleton] at hchar
    rw [hchar] at hslash
    exact hslash hpart
  | «variable» name => exact hvalue name (List.mem_filterMap.mpr ⟨_, hpart, rfl⟩) hchar

private theorem eq_of_fill_segments_eq {value value' : String → List Char} {b : List Char}
    (hne : segments ≠ []) (hslash : ∀ segment ∈ segments, Part.sign '/' ∉ segment)
    (hone : ∀ segment ∈ segments, segment.countP Part.isVariable ≤ 1)
    (hvalue : ∀ name ∈ segments.flatMap partNames, '/' ∉ value name)
    (hvalue' : ∀ name ∈ segments.flatMap partNames, '/' ∉ value' name)
    (hb : b = [] ∨ b = ['/'])
    (heq : ([Part.sign '/'].intercalate segments).flatMap (Part.fill value) ++ b =
      ([Part.sign '/'].intercalate segments).flatMap (Part.fill value')) :
    ∀ name ∈ segments.flatMap partNames, value name = value' name := by
  have hsplit (value : String → List Char)
      (hvalue : ∀ name ∈ segments.flatMap partNames, '/' ∉ value name) :
      (['/'].intercalate (segments.map (·.flatMap (Part.fill value)))).splitOn '/' =
        segments.map (·.flatMap (Part.fill value)) := by
    apply List.splitOn_intercalate
    · intro text htext
      obtain ⟨segment, hsegment, rfl⟩ := List.mem_map.mp htext
      apply slash_not_mem_fill (hslash segment hsegment)
      exact fun name hname => hvalue name (List.mem_flatMap.mpr ⟨segment, hsegment, hname⟩)
    · simpa using hne
  have hcut := congrArg (List.splitOn '/') heq
  rw [flatMap_intercalate, flatMap_intercalate, Part.fill, Part.fill, hsplit value' hvalue'] at hcut
  have hsame : segments.map (·.flatMap (Part.fill value)) =
      segments.map (·.flatMap (Part.fill value')) := by
    rcases hb with rfl | rfl
    · rw [List.append_nil, hsplit value hvalue] at hcut
      exact hcut
    · -- a slash more would be a segment more
      rw [List.splitOn_append_cons_self, hsplit value hvalue] at hcut
      have hlength := congrArg List.length hcut
      simp at hlength
  rw [List.map_inj_left] at hsame
  intro name hname
  obtain ⟨segment, hsegment, hmem⟩ := List.mem_flatMap.mp hname
  exact eq_of_fill_eq (hone segment hsegment) (hsame segment hsegment) name hmem

end Pattern

/-- A redirection to a template sends requests that carry these path variables to a location. -/
def Leads (url : String) (params : List (String × String)) (location : String) : Prop :=
  ∀ req : Request, req.attributes.params = some params → ∀ model res, ∃ res',
    (View.redirect url).render model req res = (.ok (), res') ∧ res'.status = 302 ∧
      res'.header? "location" = some location

open Pattern

namespace Pattern.Template

variable (t : Template) {compiled : PathPattern} {path : String}

/-- A template filled in with texts for its variables. -/
def fill (value : String → List Char) : List Char := t.parts.flatMap (Part.fill value)

/-- The texts of the variables with their names, in order. -/
def assignment (value : String → List Char) : List (String × String) :=
  t.names.map fun name => (name, String.ofList (value name))

private theorem leads_fill (value : String → List Char) :
    Leads t.text (t.assignment value) (String.ofList (t.fill value)) := by
  intro req hreq model res
  have hvalue : ∀ name ∈ t.names,
      req.pathVariable? name = some (String.ofList (value name)) := by
    intro name hname
    have hfind : t.names.reverse.find? (fun other => other == name) = some name := by
      cases hfound : t.names.reverse.find? (fun other => other == name) with
      | none =>
        rw [List.find?_eq_none] at hfound
        exact absurd (beq_self_eq_true name) (hfound name (List.mem_reverse.mpr hname))
      | some other =>
        have heq : other == name := List.find?_some (p := fun other => other == name) hfound
        rw [beq_iff_eq.mp heq]
    rw [Request.pathVariable?, hreq]
    change ((t.assignment value).reverse.find? fun p => p.1 == name).map (·.2) = _
    rw [assignment, ← List.map_reverse, List.find?_map]
    change ((t.names.reverse.find? fun other => other == name).map _).map _ = _
    rw [hfind]
    rfl
  refine ⟨_, rfl, rfl, ?_⟩
  rw [Response.header?_setHeader, if_pos (by decide), text, String.toList_ofList,
    expand_parts t.plain hvalue]
  rfl

private theorem of_matchPath {params : List (String × String)}
    (hparse : PathPattern.parse t.text = .ok compiled)
    (hmatch : compiled.matchPath path = some params) :
    ∃ value, params = t.assignment value ∧ (∀ name ∈ t.names, value name ≠ [] ∧ '/' ∉ value name) ∧
      ∃ b, path.toList = t.fill value ++ b ∧ (b = [] ∨ b = ['/']) := by
  obtain ⟨hnodup, hnames, last, hlast, hinner, hregex⟩ := t.of_parse hparse
  obtain ⟨groups, hsearch, hparams⟩ := Option.map_eq_some_iff.mp hmatch
  rw [hregex] at hsearch
  obtain ⟨hfill, hcaught⟩ := fill_of_rowGives hlast hnodup (rowGives_of_search hinner hsearch)
  have hfound : ∀ name ∈ t.names, groups.get? name = some (caught groups name) := by
    intro name hname
    obtain ⟨text, htext, -⟩ := hcaught name hname
    rw [caught, htext, Option.getD_some]
  refine ⟨caught groups, ?_, ?_, hfill⟩
  · rw [← hparams, hnames, assignment, ← List.filterMap_eq_map]
    apply List.filterMap_congr
    intro name hname
    rw [hfound name hname]
    rfl
  · intro name hname
    obtain ⟨text, htext, hne, hslash⟩ := hcaught name hname
    rw [caught, htext, Option.getD_some]
    exact ⟨hne, hslash⟩

private theorem matchPath_fill (hparse : PathPattern.parse t.text = .ok compiled)
    {value : String → List Char} (hvalue : ∀ name ∈ t.names, value name ≠ [] ∧ '/' ∉ value name) :
    ∃ params, compiled.matchPath (String.ofList (t.fill value)) = some params := by
  obtain ⟨-, -, last, hlast, hinner, hregex⟩ := t.of_parse hparse
  apply PathPattern.matchPath_of_isMatch
  rw [PathPattern.isMatch, hregex, isMatch_row_iff hinner, String.toList_ofList]
  exact rowTakes_fill hlast hvalue

/-- With one variable at most in each segment, a template catches what was filled in. -/
private theorem matchPath_fill_eq (hparse : PathPattern.parse t.text = .ok compiled)
    (hone : ∀ segment ∈ t.segments, segment.countP Part.isVariable ≤ 1)
    {value : String → List Char} (hvalue : ∀ name ∈ t.names, value name ≠ [] ∧ '/' ∉ value name) :
    compiled.matchPath (String.ofList (t.fill value)) = some (t.assignment value) := by
  obtain ⟨params, hmatch⟩ := t.matchPath_fill hparse hvalue
  obtain ⟨value', rfl, hvalue', b, hpath, hb⟩ := t.of_matchPath hparse hmatch
  obtain ⟨segments, hne, hsegments, hslash, hrest, hparts⟩ := t.exists_segments
  have hnames := t.names_eq hparts
  rw [hsegments, List.forall_mem_cons] at hone
  rw [hnames] at hvalue hvalue'
  have hsame : ∀ name ∈ segments.flatMap partNames, value' name = value name := by
    apply eq_of_fill_segments_eq hne hslash hone.2 (fun name hname => (hvalue' name hname).2)
      (fun name hname => (hvalue name hname).2) hb
    rw [String.toList_ofList, fill, fill, parts_eq, List.flatMap_cons, List.flatMap_cons,
      List.append_assoc, hrest] at hpath
    exact (List.append_cancel_left hpath).symm
  rw [hmatch, assignment, assignment, hnames, Option.some.injEq, List.map_inj_left]
  intro name hname
  rw [hsame name hname]

end Pattern.Template

/-- What a template catches of a path gives the path back when a redirection fills it in, but for
one slash more at the end; and it catches what was filled in, if no segment has two variables. Its
expression is the one that is read of its written form, if that is not too large
(`Pattern.parse_source`). -/
theorem PathPattern.template_round_trip {t : Template} {compiled : PathPattern}
    (hparse : PathPattern.parse t.text = .ok compiled) :
    (∀ path params, compiled.matchPath path = some params →
      params.map (·.1) = t.names ∧ t.names.Nodup ∧ (∀ p ∈ params, p.2 ≠ "" ∧ '/' ∉ p.2.toList) ∧
        ∃ location, Leads t.text params location ∧ (path = location ∨ path = location ++ "/")) ∧
    ((∀ segment ∈ t.segments, segment.countP Part.isVariable ≤ 1) →
      ∀ value : String → String, (∀ name ∈ t.names, value name ≠ "" ∧ '/' ∉ (value name).toList) →
        ∃ location, Leads t.text (t.names.map fun name => (name, value name)) location ∧
          compiled.matchPath location = some (t.names.map fun name => (name, value name))) := by
  constructor
  · intro path params hmatch
    obtain ⟨value, rfl, hvalue, b, hpath, hb⟩ := t.of_matchPath hparse hmatch
    refine ⟨?_, (t.of_parse hparse).1, ?_, String.ofList (t.fill value), t.leads_fill value, ?_⟩
    · rw [Template.assignment, List.map_map]
      exact List.map_id _
    · intro p hp
      obtain ⟨name, hname, rfl⟩ := List.mem_map.mp hp
      simpa using hvalue name hname
    · rcases hb with rfl | rfl
      · exact .inl (String.toList_inj.mp (by simpa using hpath))
      · exact .inr (String.toList_inj.mp (by simpa using hpath))
  · intro hone value hvalue
    have hassignment : t.assignment (fun name => (value name).toList) =
        t.names.map fun name => (name, value name) := by
      simp [Template.assignment]
    rw [← hassignment]
    refine ⟨_, t.leads_fill _, t.matchPath_fill_eq hparse hone fun name hname => ?_⟩
    simpa using hvalue name hname

/-- A template with letters around its variables that values may hold as well. -/
def fileTemplate : Template where
  parts := [.sign '/', .sign 'v', .variable "id", .sign 'v', .sign '/', .variable "name", .sign '.']
  rooted := rfl
  plain := by decide

theorem PathPattern.template_round_trip_file :
    ∃ compiled, PathPattern.parse "/v\x7bid\x7dv/\x7bname\x7d." = .ok compiled ∧
      ∃ location, Leads "/v\x7bid\x7dv/\x7bname\x7d." [("id", "vv"), ("name", "a.b")] location ∧
        compiled.matchPath location = some [("id", "vv"), ("name", "a.b")] := by
  have hread : Pattern.read fileTemplate.text =
      .ok ([.tokens [.literal 'v', .variable "id" none, .literal 'v'],
        .tokens [.variable "name" none, .literal '.']], ["id", "name"]) := by
    decide +kernel
  have hparse := parse_eq_of_read hread (by decide)
  obtain ⟨location, hleads, hmatch⟩ := (template_round_trip hparse).2 (by decide)
    (fun name => if name = "id" then "vv" else "a.b") (by decide)
  exact ⟨_, hparse, location, hleads, hmatch⟩

end Switchyard
