import Switchyard.Proofs.Distinct
import Switchyard.Proofs.Media.Compatibility
import Switchyard.Proofs.View.Selection
/-!
# What negotiated views offer

A view that negotiation chose for its content type is one that the handler produces, and one that the
client accepts unless an accepted range with a suffix met a produced range of all subtypes
(`NegotiatingResolver.resolve_accepted`). There the wider range counts, and the client gets what it
did not ask for (`NegotiatingResolver.json_for_xml`).
-/

namespace Switchyard.NegotiatingResolver

open MediaType

variable {σ : Type} {r : NegotiatingResolver σ} {name locale : String} {req : Request} {w : World σ}
  {v : View} {accept produce type : MediaType} {types : List MediaType}

theorem compatible_of_mostSpecific (hmeet : accept.isCompatibleWith produce)
    (hsuits : (mostSpecific accept produce).isCompatibleWith type) :
    produce.isCompatibleWith type ∧
      (accept.isCompatibleWith type ∨ LosesSuffix accept produce) := by
  -- the produced type with the quality of the accepted one has the same essence
  generalize hp : produce.copyQuality accept = p
  have htype : p.mainType = produce.mainType := by simp [← hp]
  have hsubtype : p.subtype = produce.subtype := by simp [← hp]
  have hessence := isCompatibleWith_of_essence htype hsubtype
  have hmeet' : accept.isCompatibleWith p :=
    isCompatibleWith_symm ((hessence accept).mpr (isCompatibleWith_symm hmeet))
  rw [mostSpecific, hp] at hsuits
  split at hsuits
  · next hlt => exact ⟨(hessence type).mp (isCompatibleWith_of_lt hlt hmeet' hsuits), .inl hsuits⟩
  · next hlt =>
    have hloses : LosesSuffix accept p → LosesSuffix accept produce := by
      rintro ⟨hrange, hall, ha, hb⟩
      exact ⟨hrange, hsubtype ▸ hall, ha, by rwa [isWildcardType, ← htype]⟩
    exact ⟨(hessence type).mp hsuits,
      (isCompatibleWith_of_ne_lt hlt hmeet' hsuits).imp_right hloses⟩

/-- The more specific type of each pair that meets. -/
def meetings (acceptable producible : List MediaType) : List MediaType :=
  acceptable.flatMap fun a => (producible.filter a.isCompatibleWith).map (mostSpecific a)

theorem mem_meetings {acceptable producible : List MediaType} {m : MediaType} :
    m ∈ meetings acceptable producible ↔ ∃ accept ∈ acceptable, ∃ produce ∈ producible,
      accept.isCompatibleWith produce ∧ m = mostSpecific accept produce := by
  simp only [meetings, List.mem_flatMap, List.mem_map, List.mem_filter]
  constructor
  · rintro ⟨accept, haccept, produce, ⟨hproduce, hmeet⟩, rfl⟩
    exact ⟨accept, haccept, produce, hproduce, hmeet, rfl⟩
  · rintro ⟨accept, haccept, produce, hproduce, hmeet, rfl⟩
    exact ⟨accept, haccept, produce, ⟨hproduce, hmeet⟩, rfl⟩

theorem compatible_perm (acceptable producible : List MediaType) :
    (compatible acceptable producible).Perm (keepNew equivalent [] (meetings acceptable producible)) :=
  sort_perm _

theorem mem_compatible {acceptable producible : List MediaType} {m : MediaType}
    (h : m ∈ compatible acceptable producible) : ∃ accept ∈ acceptable, ∃ produce ∈ producible,
      accept.isCompatibleWith produce ∧ m = mostSpecific accept produce := by
  have hkept := (compatible_perm acceptable producible).mem_iff.mp h
  exact mem_meetings.mp ((mem_of_mem_keepNew hkept).resolve_left List.not_mem_nil)

private theorem suits_of_bestView? {candidates : List View} {selected : Option MediaType}
    (hbest : bestView? candidates types = some (v, selected)) (hdirect : ¬ v.isRedirect)
    (htype : v.contentType = some type) : ∃ t ∈ types, t.isCompatibleWith type := by
  have hchosen : Chosen types candidates none (some v) selected := bestView?_chosen hbest
  cases hchosen with
  | redirect _ hredirect => exact absurd hredirect hdirect
  | «match» _ hleast _ hview =>
    obtain ⟨t, v', type', ht, hv', htype', hsuits⟩ := hleast.suits
    cases hview.symm.trans hv'
    cases htype.symm.trans htype'
    exact ⟨t, List.mem_of_getElem? ht, hsuits⟩

private theorem contentType_of_refusal (h : r.refusal = some v) : v.contentType = none := by
  rw [refusal] at h
  split at h
  · cases h
    rfl
  · cases h

/-- What the delegates answer to all the names under which they are asked. -/
def found (r : NegotiatingResolver σ) (name locale : String) (req : Request) (w : World σ)
    (types : List MediaType) : Collected :=
  ((collect (r.viewNames name types) locale r.resolvers req).run
    (w.reportedAll (r.mediaTypeEvents req))).1

theorem resolve_shown (hshown : ((r.resolve name locale req).run w).1.1 = .ok (some v))
    (htype : v.contentType = some type) : ∃ types views selected, r.mediaTypes? req = some types ∧
      (r.found name locale req w types).1 = .ok views ∧
      bestView? (views ++ r.defaultViews) types = some (v, selected) := by
  have refused {w' : World σ} (h : ((r.refuse name).run w').1 = some v) : False := by
    obtain ⟨journal, hrefuse⟩ := r.refuse_run name w'
    rw [hrefuse] at h
    rw [contentType_of_refusal h] at htype
    cases htype
  rw [resolve, StateT.run_bind, Act.emitAll_run] at hshown
  cases htypes : r.mediaTypes? req with
  | none =>
    rw [htypes] at hshown
    exact (refused (Except.ok.inj hshown)).elim
  | some types =>
    refine ⟨types, ?_⟩
    rw [htypes] at hshown
    change ((collect (r.viewNames name types) locale r.resolvers req >>= _ :
      Act σ ViewAnswer).run _).1.1 = _ at hshown
    rw [StateT.run_bind] at hshown
    rw [found]
    generalize (collect (r.viewNames name types) locale r.resolvers req).run _ = answer at hshown ⊢
    obtain ⟨⟨result, published⟩, w'⟩ := answer
    cases result with
    | error e => cases hshown
    | ok views =>
      dsimp only [bind] at hshown
      cases hbest : bestView? (views ++ r.defaultViews) types with
      | none =>
        rw [hbest] at hshown
        exact (refused (Except.ok.inj hshown)).elim
      | some best =>
        obtain ⟨v', selected⟩ := best
        rw [hbest] at hshown
        cases Option.some.inj (Except.ok.inj hshown)
        exact ⟨views, selected, rfl, rfl, hbest⟩

private theorem resolve_suits (hshown : ((r.resolve name locale req).run w).1.1 = .ok (some v))
    (hdirect : ¬ v.isRedirect) (htype : v.contentType = some type) :
    ∃ types, r.mediaTypes? req = some types ∧ ∃ t ∈ types, t.isCompatibleWith type := by
  obtain ⟨types, views, selected, htypes, -, hbest⟩ := resolve_shown hshown htype
  exact ⟨types, htypes, suits_of_bestView? hbest hdirect htype⟩

/-- A view that is shown for its content type comes from a pair of an accepted and a produced type
that meet. The produced one suits the view, and so does the accepted one, unless it is a range with a
suffix and the produced one a range of all subtypes. -/
theorem resolve_accepted (hshown : ((r.resolve name locale req).run w).1.1 = .ok (some v))
    (hdirect : ¬ v.isRedirect) (htype : v.contentType = some type) :
    ∃ acceptable, r.negotiator.resolve req = .ok acceptable ∧
      ∃ accept ∈ acceptable, ∃ produce ∈ producible req, accept.isCompatibleWith produce ∧
        produce.isCompatibleWith type ∧
        (accept.isCompatibleWith type ∨ LosesSuffix accept produce) := by
  obtain ⟨types, htypes, t, ht, hsuits⟩ := resolve_suits hshown hdirect htype
  rw [mediaTypes?] at htypes
  cases hresolve : r.negotiator.resolve req with
  | error e =>
    rw [hresolve] at htypes
    cases htypes
  | ok acceptable =>
    rw [hresolve] at htypes
    cases htypes
    obtain ⟨accept, haccept, produce, hproduce, hmeet, rfl⟩ := mem_compatible ht
    exact ⟨acceptable, rfl, accept, haccept, produce, hproduce, hmeet,
      compatible_of_mostSpecific hmeet hsuits⟩

theorem resolve_of_default (hresolvers : r.resolvers = []) (htypes : r.mediaTypes? req = some types)
    {selected : Option MediaType} (hbest : bestView? r.defaultViews types = some (v, selected)) :
    ((r.resolve name locale req).run w).1.1 = .ok (some v) := by
  have hcollect (w : World σ) :
      (collect (r.viewNames name types) locale r.resolvers req).run w = ((.ok [], []), w) := by
    rw [hresolvers]
    rfl
  rw [resolve, StateT.run_bind, Act.emitAll_run, htypes]
  change ((collect (r.viewNames name types) locale r.resolvers req >>= _ :
    Act σ ViewAnswer).run _).1.1 = _
  rw [StateT.run_bind, hcollect]
  dsimp only [bind]
  rw [List.nil_append, hbest]
  rfl

def application (subtype : String) : MediaType := ⟨"application", subtype, []⟩

/-- Has one view for all names, of a given type. -/
def showing (type : MediaType) : NegotiatingResolver Unit where
  negotiator := .default
  resolvers := []
  defaultViews := [.json type]

/-- Asks for XML of any kind, of a handler that may produce a given type. -/
def xmlRequest (produce : MediaType) : Request where
  method := .get
  path := "/page"
  headers := [("Accept", "application/*+xml")]
  attributes := { produces := some [produce] }

theorem resolve_accepted_feed :
    let feed := application "atom+xml"
    (((showing feed).resolve "page" "en" (xmlRequest feed)).run ⟨(), #[], #[], #[], #[]⟩).1.1 =
        .ok (some (.json feed)) ∧
      ∃ acceptable, (showing feed).negotiator.resolve (xmlRequest feed) = .ok acceptable ∧
        (∃ accept ∈ acceptable, accept.isCompatibleWith feed) ∧
        ∃ produce ∈ producible (xmlRequest feed), produce.isCompatibleWith feed := by
  intro feed
  have htypes : (showing (application "atom+xml")).mediaTypes?
      (xmlRequest (application "atom+xml")) = some [application "atom+xml"] := by rfl
  have hshown : (((showing feed).resolve "page" "en" (xmlRequest feed)).run
      ⟨(), #[], #[], #[], #[]⟩).1.1 = .ok (some (.json feed)) :=
    resolve_of_default rfl htypes rfl
  obtain ⟨acceptable, hresolve, accept, haccept, produce, hproduce, -, hfeed, hsuits⟩ :=
    resolve_accepted hshown (by decide) rfl
  refine ⟨hshown, acceptable, hresolve, ⟨accept, haccept, hsuits.resolve_right ?_⟩,
    produce, hproduce, hfeed⟩
  cases List.mem_singleton.mp hproduce
  exact fun hloses => absurd hloses.2.1 (by decide)

/-- A client that accepts XML of any kind gets JSON from a handler that may produce anything. -/
theorem json_for_xml :
    let shown := showing .applicationJson
    let req := xmlRequest (application "*")
    shown.negotiator.resolve req = .ok [application "*+xml"] ∧
      ((shown.resolve "page" "en" req).run ⟨(), #[], #[], #[], #[]⟩).1.1 = .ok (some .json) ∧
      View.json.isRedirect = false ∧ View.json.contentType = some .applicationJson ∧
      ¬ (application "*+xml").isCompatibleWith .applicationJson := by
  have hacceptable : (showing .applicationJson).negotiator.resolve (xmlRequest (application "*")) =
      .ok [application "*+xml"] := by rfl
  have htypes : (showing .applicationJson).mediaTypes? (xmlRequest (application "*")) =
      some [application "*"] := by rfl
  exact ⟨hacceptable, resolve_of_default rfl htypes rfl, rfl, rfl, by decide⟩

end Switchyard.NegotiatingResolver
