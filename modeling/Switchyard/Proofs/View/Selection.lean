import Switchyard.Proofs.Dispatch.Calls
import Switchyard.View.Negotiating
/-!
# The choice of views

A negotiating resolver asks its delegates for candidates and shows the one that two orders prefer:
that of the negotiated types, then that of the candidates (`NegotiatingResolver.resolve_chooses`).
-/

namespace Switchyard

variable {σ : Type}

namespace NegotiatingResolver

/-- The content type at one place suits the candidate at another. -/
def Suits (types : List MediaType) (views : List View) (i j : Nat) : Prop :=
  ∃ t v type, types[i]? = some t ∧ views[j]? = some v ∧ v.contentType = some type ∧
    t.isCompatibleWith type

/-- The pair of places comes before all others that suit: earlier types before earlier
candidates. -/
structure IsLeast (types : List MediaType) (views : List View) (i j : Nat) : Prop where
  suits : Suits types views i j
  least : ∀ i' j', Suits types views i' j' → i < i' ∨ i = i' ∧ j ≤ j'

variable {types : List MediaType} {views : List View}

private theorem suits_iff {i j : Nat} : Suits types views i j ↔ ∃ t v, types[i]? = some t ∧
    views[j]? = some v ∧ v.contentType.any t.isCompatibleWith := by
  constructor
  · rintro ⟨t, v, type, ht, hv, htype, hcompatible⟩
    exact ⟨t, v, ht, hv, by simpa [htype] using hcompatible⟩
  · rintro ⟨t, v, ht, hv, hsuits⟩
    cases htype : v.contentType with
    | none => simp [htype] at hsuits
    | some type => exact ⟨t, v, type, ht, hv, htype, by simpa [htype] using hsuits⟩

private theorem bestMatch?_none (h : bestMatch? views types = none) (i j : Nat) :
    ¬ Suits types views i j := by
  rw [suits_iff]
  rintro ⟨t, v, ht, hv, hsuits⟩
  rw [bestMatch?, List.findSome?_eq_none_iff] at h
  have hnone := h t (List.mem_of_getElem? ht)
  rw [Option.map_eq_none_iff, List.find?_eq_none] at hnone
  exact hnone v (List.mem_of_getElem? hv) hsuits

private theorem bestMatch?_some {t : MediaType} {v : View}
    (h : bestMatch? views types = some (t, v)) :
    ∃ i j, types[i]? = some t ∧ views[j]? = some v ∧ IsLeast types views i j := by
  rw [bestMatch?, List.findSome?_eq_some_iff] at h
  obtain ⟨before, t', after, rfl, hfound, hbefore⟩ := h
  obtain ⟨v', hfind, heq⟩ := Option.map_eq_some_iff.mp hfound
  cases heq
  rw [List.find?_eq_some_iff_getElem] at hfind
  obtain ⟨hsuits, j, hj, hv, hfirst⟩ := hfind
  have ht : (before ++ t :: after)[before.length]? = some t := by simp
  have hv : views[j]? = some v := by rw [List.getElem?_eq_getElem hj, hv]
  refine ⟨before.length, j, ht, hv, suits_iff.mpr ⟨t, v, ht, hv, hsuits⟩, ?_⟩
  intro i' j' hsuits'
  obtain ⟨t', v', ht', hv', hsuits'⟩ := suits_iff.mp hsuits'
  rcases Nat.lt_trichotomy i' before.length with hlt | rfl | hlt
  · -- no candidate suits an earlier type
    rw [List.getElem?_append_left hlt] at ht'
    have hnone := hbefore t' (List.mem_of_getElem? ht')
    rw [Option.map_eq_none_iff, List.find?_eq_none] at hnone
    exact absurd hsuits' (hnone v' (List.mem_of_getElem? hv'))
  · -- no earlier candidate suits this type
    cases Option.some.inj (ht.symm.trans ht')
    refine .inr ⟨rfl, Nat.le_of_not_lt fun hlt => ?_⟩
    have hearlier := hfirst j' hlt
    rw [List.getElem?_eq_getElem (Nat.lt_trans hlt hj)] at hv'
    cases hv'
    simp [hsuits'] at hearlier
  · exact .inl hlt

/-- Delegates answer questions one after the other, without errors and without a choice of their
own; what they publish reaches those asked later. -/
inductive Answered (locale : String) : List (ViewResolver σ × String) → Request → World σ →
    List View → List Attribute → World σ → Prop where
  | nil {req : Request} {w : World σ} : Answered locale [] req w [] [] w
  | cons {d : ViewResolver σ} {name : String} {rest : List (ViewResolver σ × String)}
    {req : Request} {w w' w'' : World σ} {view : Option View} {views : List View}
    {published more : List Attribute}
    (hanswer : (d.resolve name locale req).run w = ((.ok view, published), w'))
    (hunchosen : ∀ t, .selected t ∉ published)
    (hrest : Answered locale rest (req.publishAll published) w' views more w'') :
    Answered locale ((d, name) :: rest) req w (view.toList ++ views) (published ++ more) w''

variable {locale : String} {req : Request} {w w' : World σ} {published : List Attribute}

/-- A delegate that never fails and never chooses a type. -/
def IsQuiet (d : ViewResolver σ) (locale : String) : Prop :=
  ∀ name req w, ∃ view published, ((d.resolve name locale req).run w).1 = (.ok view, published) ∧
    ∀ t, .selected t ∉ published

private theorem exists_answered {qs : List (ViewResolver σ × String)}
    (hquiet : ∀ q ∈ qs, IsQuiet q.1 locale) (req : Request) (w : World σ) :
    ∃ views published w', Answered locale qs req w views published w' := by
  induction qs generalizing req w with
  | nil => exact ⟨[], [], w, .nil⟩
  | cons q qs ih =>
    rw [List.forall_mem_cons] at hquiet
    obtain ⟨view, published, hanswer, hunchosen⟩ := hquiet.1 q.2 req w
    obtain ⟨views, more, w', hrest⟩ := ih hquiet.2 (req.publishAll published)
      ((q.1.resolve q.2 locale req).run w).2
    exact ⟨_, _, w', .cons (Prod.ext hanswer rfl) hunchosen hrest⟩

theorem Answered.split {qs qs' : List (ViewResolver σ × String)}
    (h : Answered locale (qs ++ qs') req w views published w') :
    ∃ first others views₁ views₂ w₁, Answered locale qs req w views₁ first w₁ ∧
      Answered locale qs' (req.publishAll first) w₁ views₂ others w' ∧
      views = views₁ ++ views₂ ∧ published = first ++ others := by
  induction qs generalizing req w views published with
  | nil => exact ⟨[], published, [], views, w, .nil, h, rfl, rfl⟩
  | cons q qs ih =>
    cases h with
    | cons hanswer hunchosen hrest =>
      obtain ⟨first, others, views₁, views₂, w₁, h₁, h₂, rfl, rfl⟩ := ih hrest
      refine ⟨_, others, _, views₂, w₁, .cons hanswer hunchosen h₁, ?_,
        (List.append_assoc _ _ _).symm, (List.append_assoc _ _ _).symm⟩
      rw [Request.publishAll, List.foldl_append]
      exact h₂

private theorem collectNames_of_answered {d : ViewResolver σ} {names : List String}
    (h : Answered locale (names.map (d, ·)) req w views published w') :
    (collectNames d locale names req).run w = ((.ok views, published), w') := by
  induction names generalizing req w views published with
  | nil =>
    cases h
    rfl
  | cons name names ih =>
    cases h with
    | cons hanswer hunchosen hrest =>
      rw [collectNames, StateT.run_bind, hanswer]
      change (collectNames d locale names _ >>= _ : Act σ _).run _ = _
      rw [StateT.run_bind, ih hrest]
      rfl

private theorem collect_of_answered {names : List String} {ds : List (ViewResolver σ)}
    (h : Answered locale (ds.flatMap fun d => names.map (d, ·)) req w views published w') :
    (collect names locale ds req).run w = ((.ok views, published), w') := by
  induction ds generalizing req w views published with
  | nil =>
    cases h
    rfl
  | cons d ds ih =>
    rw [List.flatMap_cons] at h
    obtain ⟨first, others, views₁, views₂, w₁, h₁, h₂, rfl, rfl⟩ := h.split
    rw [collect, StateT.run_bind, collectNames_of_answered h₁]
    change (collect names locale ds _ >>= _ : Act σ _).run _ = _
    rw [StateT.run_bind, ih h₂]
    rfl

private theorem Answered.unchosen {qs : List (ViewResolver σ × String)}
    (h : Answered locale qs req w views published w') (t : MediaType) :
    .selected t ∉ published := by
  induction h with
  | nil => exact List.not_mem_nil
  | cons hanswer hunchosen hrest ih => simpa using ⟨hunchosen t, ih⟩

private theorem selected_publishAll (hunchosen : ∀ t, .selected t ∉ published) :
    (req.publishAll published).attributes.selected = req.attributes.selected := by
  induction published generalizing req with
  | nil => rfl
  | cons a published ih =>
    rw [Request.publishAll, List.foldl_cons]
    refine (ih fun t ht => hunchosen t (List.mem_cons_of_mem _ ht)).trans ?_
    cases a with
    | selected t => exact absurd List.mem_cons_self (hunchosen t)
    | _ => rfl

/-- What the negotiated types and the candidates make of a view name: a view, perhaps the answer
of a refusal, and the content type that is selected by it. -/
inductive Chosen (types : List MediaType) (candidates : List View) (refusal : Option View) :
    Option View → Option MediaType → Prop where
  | redirect {k : Nat} {v : View} (hview : candidates[k]? = some v) (hredirect : v.isRedirect)
    (hfirst : ∀ k' v', k' < k → candidates[k']? = some v' → ¬ v'.isRedirect) :
    Chosen types candidates refusal (some v) none
  | match {i j : Nat} {t : MediaType} {v : View} (hnone : ∀ v ∈ candidates, ¬ v.isRedirect)
    (hleast : IsLeast types candidates i j) (htype : types[i]? = some t)
    (hview : candidates[j]? = some v) :
    Chosen types candidates refusal (some v) (some t.removeQuality)
  | refused (hnone : ∀ v ∈ candidates, ¬ v.isRedirect)
    (hunsuited : ∀ i j, ¬ Suits types candidates i j) :
    Chosen types candidates refusal refusal none

theorem bestView?_chosen {refusal : Option View} {v : View} {selected : Option MediaType}
    (h : bestView? views types = some (v, selected)) :
    Chosen types views refusal (some v) selected := by
  rw [bestView?] at h
  cases hredirect : views.find? (·.isRedirect) with
  | some v' =>
    rw [hredirect] at h
    cases h
    rw [List.find?_eq_some_iff_getElem] at hredirect
    obtain ⟨hv, k, hk, hview, hfirst⟩ := hredirect
    refine .redirect ((List.getElem?_eq_getElem hk).trans (congrArg some hview)) hv ?_
    intro k' v' hlt hv'
    have hearlier := hfirst k' hlt
    rw [List.getElem?_eq_getElem (Nat.lt_trans hlt hk)] at hv'
    cases hv'
    simpa using hearlier
  | none =>
    rw [hredirect] at h
    obtain ⟨⟨t, v'⟩, hbest, heq⟩ := Option.map_eq_some_iff.mp h
    cases heq
    obtain ⟨i, j, ht, hv, hleast⟩ := bestMatch?_some hbest
    exact .match (List.find?_eq_none.mp hredirect) hleast ht hv

private theorem bestView?_refused {refusal : Option View} (h : bestView? views types = none) :
    Chosen types views refusal refusal none := by
  rw [bestView?] at h
  cases hredirect : views.find? (·.isRedirect) with
  | some v' =>
    rw [hredirect] at h
    cases h
  | none =>
    rw [hredirect] at h
    exact .refused (List.find?_eq_none.mp hredirect)
      (bestMatch?_none (Option.map_eq_none_iff.mp h))

/-- The answer of a resolver when no view suits. -/
def refusal (r : NegotiatingResolver σ) : Option View :=
  if r.useNotAcceptable then some .notAcceptable else none

theorem refuse_run (r : NegotiatingResolver σ) (name : String) (w : World σ) :
    ∃ journal, (r.refuse name).run w = (r.refusal, { w with journal }) := by
  rw [refuse, refusal]
  cases r.useNotAcceptable with
  | true => exact ⟨_, rfl⟩
  | false => exact ⟨_, rfl⟩

/-- The questions to delegates: for each the plain name first, then the name with the extensions of
the negotiated types. -/
def questions (r : NegotiatingResolver σ) (name : String) (types : List MediaType) :
    List (ViewResolver σ × String) :=
  r.resolvers.flatMap fun d => (name :: types.flatMap fun t =>
    (r.negotiator.extensionsOf t).map fun extension => name ++ "." ++ extension).map (d, ·)

private theorem resolve_of_failed {r : NegotiatingResolver σ} (hfailed : r.mediaTypes? req = none)
    (name : String) (w : World σ) :
    ∃ journal, (r.resolve name locale req).run w = ((.ok r.refusal, []), { w with journal }) := by
  obtain ⟨journal, hw⟩ := w.reportedAll_eq (r.mediaTypeEvents req)
  obtain ⟨journal', hrefuse⟩ := r.refuse_run name { w with journal }
  refine ⟨journal', ?_⟩
  rw [resolve, StateT.run_bind, Act.emitAll_run, hw, hfailed]
  change (r.refuse name >>= _ : Act σ _).run _ = _
  rw [StateT.run_bind, hrefuse]
  rfl

private theorem resolve_of_answered {r : NegotiatingResolver σ}
    (htypes : r.mediaTypes? req = some types)
    {name : String} (hanswered : Answered locale (r.questions name types) req
      (w.reportedAll (r.mediaTypeEvents req)) views published w') :
    ∃ answer selected journal,
      (r.resolve name locale req).run w = ((.ok answer,
        published ++ (selected.map Attribute.selected).toList), { w' with journal }) ∧
      Chosen types (views ++ r.defaultViews) r.refusal answer selected := by
  have hcollect : (collect (r.viewNames name types) locale r.resolvers req).run _ = _ :=
    collect_of_answered hanswered
  rw [resolve, StateT.run_bind, Act.emitAll_run, htypes]
  change ∃ answer selected journal,
    (collect (r.viewNames name types) locale r.resolvers req >>= _ : Act σ _).run _ = _ ∧ _
  rw [StateT.run_bind, hcollect]
  dsimp only [bind]
  cases hbest : bestView? (views ++ r.defaultViews) types with
  | none =>
    obtain ⟨journal, hrefuse⟩ := r.refuse_run name w'
    refine ⟨r.refusal, none, journal, ?_, bestView?_refused hbest⟩
    change (r.refuse name >>= _ : Act σ _).run _ = _
    rw [StateT.run_bind, hrefuse, Option.map_none, Option.toList_none, List.append_nil]
    rfl
  | some best =>
    obtain ⟨v, selected⟩ := best
    exact ⟨some v, selected, _, rfl, bestView?_chosen hbest⟩

private theorem selected_choice (hunselected : req.attributes.selected = none)
    (hunchosen : ∀ t, .selected t ∉ published) (selected : Option MediaType) :
    (req.publishAll (published ++ (selected.map Attribute.selected).toList)).attributes.selected =
      selected := by
  have hbefore : (req.publishAll published).attributes.selected = req.attributes.selected :=
    selected_publishAll hunchosen
  rw [hunselected] at hbefore
  rw [Request.publishAll, List.foldl_append]
  change (Request.publishAll (req.publishAll published) _).attributes.selected = _
  cases selected with
  | none => exact hbefore
  | some t =>
    change (req.publishAll published).attributes.selected.or (some t) = some t
    rw [hbefore]
    rfl

/-- The choice of a view. The delegates are asked by their order, those of equal order as they were
given. When negotiation fails none is; when they all answer, without errors and without choosing a
type themselves, their views and then the default ones are the candidates. -/
theorem resolve_chooses (negotiator : Negotiator) (given : List (ViewResolver σ))
    (defaultViews : List View) (useNotAcceptable : Bool) (order : Int) (name locale : String)
    (hunselected : req.attributes.selected = none) (w : World σ) :
    let r : NegotiatingResolver σ :=
      { NegotiatingResolver.new negotiator given with defaultViews, useNotAcceptable, order }
    let refusal := if useNotAcceptable then some View.notAcceptable else none
    (r.resolvers.Perm given ∧ r.resolvers.Pairwise (fun d d' => d.order ≤ d'.order) ∧
      ∀ n, r.resolvers.filter (·.order = n) = given.filter (·.order = n)) ∧
    (r.mediaTypes? req = none → ∃ journal,
      (r.resolve name locale req).run w = ((.ok refusal, []), { w with journal })) ∧
    ∀ types, r.mediaTypes? req = some types →
      let w₀ := w.reportedAll (r.mediaTypeEvents req)
      ((∀ d ∈ given, IsQuiet d locale) → ∃ views published w',
        Answered locale (r.questions name types) req w₀ views published w') ∧
      ∀ views published w', Answered locale (r.questions name types) req w₀ views published w' →
        ∃ answer published' selected journal,
          (r.resolve name locale req).run w = ((.ok answer, published'), { w' with journal }) ∧
          (req.publishAll published').attributes.selected = selected ∧
          Chosen types (views ++ defaultViews) refusal answer selected := by
  intro r refusal
  have hperm : r.resolvers.Perm given := Order.sortBy_perm _ given
  refine ⟨⟨hperm, Order.sortBy_pairwise _ given, Order.filter_sortBy _ given⟩,
    fun hfailed => resolve_of_failed hfailed name w, ?_⟩
  intro types htypes w₀
  constructor
  · intro hquiet
    apply exists_answered
    intro q hq
    obtain ⟨d, hd, hname⟩ := List.mem_flatMap.mp hq
    obtain ⟨n, -, rfl⟩ := List.mem_map.mp hname
    exact hquiet d (hperm.mem_iff.mp hd)
  · intro views published w' hanswered
    obtain ⟨answer, selected, journal, hrun, hchosen⟩ := resolve_of_answered htypes hanswered
    exact ⟨answer, _, selected, journal, hrun,
      selected_choice hunselected hanswered.unchosen selected, hchosen⟩

/-- Finds a page as HTML, and as JSON by its extension. -/
def pages : List (ViewResolver Unit) :=
  let view (type : MediaType) : View :=
    { name := type.render, contentType := some type, render := fun _ _ res => (.ok (), res) }
  [.named [("page", view .textHtml)] 2, .named [("page.json", view .applicationJson)] 1]

def jsonFirst : Negotiator where
  strategies := [.fixed [.applicationJson, .textHtml]]
  tables := [ExtensionTable.source ⟨[("json", .applicationJson)]⟩]

private theorem named_isQuiet (views : List (String × View)) (order : Int) (locale : String) :
    IsQuiet (.named views order : ViewResolver σ) locale :=
  fun _ _ _ => ⟨_, [], rfl, fun _ => List.not_mem_nil⟩

private theorem pages_isQuiet (locale : String) : ∀ d ∈ pages, IsQuiet d locale := by
  intro d hd
  simp only [pages, List.mem_cons, List.not_mem_nil, or_false] at hd
  rcases hd with rfl | rfl
  · exact named_isQuiet _ 2 locale
  · exact named_isQuiet _ 1 locale

private theorem new_pages :
    (new jsonFirst pages) = { negotiator := jsonFirst, resolvers := pages.reverse } := by
  have hsorted : Order.sortBy (·.order) pages = pages.reverse := by
    simp [Order.sortBy, pages, ViewResolver.named, List.mergeSort]
  rw [new, hsorted]

theorem resolve_chooses_pages :
    let r : NegotiatingResolver Unit := new jsonFirst pages
    let req : Request := { method := .get, path := "/page" }
    let w : World Unit := ⟨(), #[], #[], #[], #[]⟩
    r.mediaTypes? req = some [.applicationJson, .textHtml] ∧ (∀ d ∈ pages, IsQuiet d "en") ∧
      ∃ views published w',
        Answered "en" (r.questions "page" [.applicationJson, .textHtml]) req
          (w.reportedAll (r.mediaTypeEvents req)) views published w' ∧
        ∃ v published' w'', (r.resolve "page" "en" req).run w = ((.ok (some v), published'), w'') ∧
          v.name = "application/json" ∧
          (req.publishAll published').attributes.selected = some .applicationJson ∧
          Chosen [.applicationJson, .textHtml] (views ++ []) none (some v)
            (some .applicationJson) := by
  intro r req w
  have htypes : r.mediaTypes? req = some [.applicationJson, .textHtml] := by
    rw [show r = _ from new_pages]
    rfl
  have hname : ((r.resolve "page" "en" req).run w).1.1.toOption.bind (·.map (·.name)) =
      some "application/json" := by
    rw [show r = _ from new_pages]
    rfl
  have htype : (req.publishAll ((r.resolve "page" "en" req).run w).1.2).attributes.selected =
      some .applicationJson := by
    rw [show r = _ from new_pages]
    rfl
  have hunselected : req.attributes.selected = none := rfl
  obtain ⟨-, -, hchooses⟩ := resolve_chooses jsonFirst pages [] false Order.highest "page" "en"
    hunselected w
  obtain ⟨hanswers, hchooses⟩ := hchooses _ htypes
  obtain ⟨views, published, w', hanswered⟩ := hanswers (pages_isQuiet "en")
  obtain ⟨answer, published', selected, journal, hrun, hselected, hchosen⟩ :=
    hchooses views published w' hanswered
  change (r.resolve "page" "en" req).run w = _ at hrun
  rw [hrun] at hname htype
  rw [htype] at hselected
  subst hselected
  cases answer with
  | none => cases hname
  | some v =>
    exact ⟨htypes, pages_isQuiet "en", views, published, w', hanswered, v, published', _, hrun,
      Option.some.inj hname, htype, hchosen⟩

end NegotiatingResolver

end Switchyard
