import Switchyard.Proofs.Attempt
import Switchyard.Proofs.Media.Equality
import Switchyard.Proofs.View.Acceptance
/-!
# The negotiated types

For each accepted and each produced type that meet, one of the two stands among the negotiated
types, once and with the quality of the accepted one (`NegotiatingResolver.mediaTypes?_complete`).
-/

namespace Switchyard

open MediaType

/-- Answers a request only with media types that were read or put together. -/
def Strategy.AnswersObtained (s : Strategy) (req : Request) : Prop :=
  ∀ types, s.resolve req = .ok types → ∀ m ∈ types, m.Obtained

variable {req : Request} {m : MediaType} {types : List MediaType}

private theorem MediaType.obtained_of_mem_all (hm : m ∈ [MediaType.all]) : m.Obtained := by
  rw [List.mem_singleton.mp hm]
  exact .new "*" "*"

private theorem MediaType.obtained_of_parseList {text : String} (h : parseList text = .ok types)
    (hm : m ∈ types) : m.Obtained := by
  obtain ⟨part, -, hparse⟩ := mem_of_mapM_ok h hm
  exact .parsed hparse

private theorem Strategy.header_answersObtained : Strategy.header.AnswersObtained req := by
  intro types h m hm
  rw [header] at h
  dsimp only at h
  split at h
  · cases h
    exact obtained_of_mem_all hm
  split at h
  · cases h
  · cases h
    exact obtained_of_mem_all hm
  · next hparse =>
    cases h
    exact obtained_of_parseList hparse ((sort_perm _).mem_iff.mp hm)

private theorem Strategy.parameter_answersObtained {name : String} {table : ExtensionTable}
    (htable : ∀ e ∈ table.entries, e.2.Obtained) :
    (Strategy.parameter name table).AnswersObtained req := by
  intro types h m hm
  rw [parameter] at h
  dsimp only at h
  split at h
  · cases h
    exact obtained_of_mem_all hm
  split at h
  · next hlookup =>
    cases h
    obtain ⟨e, hfound, he⟩ := Option.map_eq_some_iff.mp hlookup
    rw [List.mem_singleton.mp hm, ← he]
    exact htable e (List.mem_of_find?_eq_some hfound)
  · cases h

private theorem Strategy.fixed_answersObtained (htypes : ∀ m ∈ types, m.Obtained) :
    (Strategy.fixed types).AnswersObtained req := by
  intro types h
  cases h
  exact htypes

private theorem Negotiator.ofSettings_answersObtained {settings : Negotiator.Settings}
    (htable : ∀ e ∈ settings.table.entries, e.2.Obtained)
    (hdefaults : ∀ m ∈ settings.defaultTypes, m.Obtained) :
    ∀ s ∈ (Negotiator.ofSettings settings).strategies, s.AnswersObtained req := by
  intro s hs
  have hone : s = .parameter settings.parameterName settings.table ∨ s = .header ∨
      s = .fixed settings.defaultTypes := by
    simp only [ofSettings, List.mem_append] at hs
    grind
  rcases hone with rfl | rfl | rfl
  · exact Strategy.parameter_answersObtained htable
  · exact Strategy.header_answersObtained
  · exact Strategy.fixed_answersObtained hdefaults

private theorem Negotiator.preference?_obtained {strategies : List Strategy}
    (hstrategies : ∀ s ∈ strategies, s.AnswersObtained req)
    (h : Negotiator.preference? req strategies = .ok (some types)) : ∀ m ∈ types, m.Obtained := by
  induction strategies with
  | nil => cases h
  | cons s rest ih =>
    rw [preference?] at h
    obtain ⟨answer, hanswer, h⟩ := except_bind_ok h
    split at h
    · exact ih (fun s hs => hstrategies s (List.mem_cons_of_mem _ hs)) h
    · cases h
      exact hstrategies s List.mem_cons_self types hanswer

private theorem Negotiator.resolve_obtained {n : Negotiator}
    (hstrategies : ∀ s ∈ n.strategies, s.AnswersObtained req)
    (h : n.resolve req = .ok types) : ∀ m ∈ types, m.Obtained := by
  rw [resolve] at h
  obtain ⟨preferred, hpreference, h⟩ := except_map_ok h
  cases h
  cases preferred with
  | none => exact fun m hm => obtained_of_mem_all hm
  | some types => exact preference?_obtained hstrategies hpreference

namespace NegotiatingResolver

variable {σ : Type} {r : NegotiatingResolver σ} {accept produce : MediaType}
  {acceptable produced : List MediaType}

/-- What stands for an accepted and a produced type: the accepted one if it is more specific than
the produced one would be with its quality, and otherwise that. -/
inductive StandsFor (accept produce : MediaType) : MediaType → Prop where
  | accepted (hlt : accept.specificityCmp (produce.withQuality (accept.parameter? "q")) = .lt) :
      StandsFor accept produce accept
  | produced (hlt : accept.specificityCmp (produce.withQuality (accept.parameter? "q")) ≠ .lt) :
      StandsFor accept produce (produce.withQuality (accept.parameter? "q"))

theorem standsFor_mostSpecific : StandsFor accept produce (mostSpecific accept produce) := by
  rw [mostSpecific, copyQuality_eq_withQuality]
  split
  · next hlt => exact .accepted hlt
  · next hlt => exact .produced hlt

theorem StandsFor.quality (h : StandsFor accept produce m) (hproduce : produce.IsFolded) :
    m.parameter? "q" = accept.parameter? "q" := by
  cases h with
  | accepted => rfl
  | produced => exact parameter?_withQuality hproduce _

private theorem StandsFor.obtained (h : StandsFor accept produce m) (haccept : accept.Obtained)
    (hproduce : produce.Obtained) : m.Obtained := by
  cases h with
  | accepted => exact haccept
  | produced =>
    rw [← copyQuality_eq_withQuality]
    exact hproduce.copyQuality haccept

theorem obtained_producible
    (hdeclared : ∀ declared, req.attributes.produces = some declared → ∀ m ∈ declared, m.Obtained) :
    ∀ m ∈ producible req, m.Obtained := by
  rw [producible]
  split
  · next hproduces => exact hdeclared _ hproduces
  · exact fun m hm => obtained_of_mem_all hm

private theorem obtained_compatible (hacceptable : ∀ m ∈ acceptable, m.Obtained)
    (hproduced : ∀ m ∈ produced, m.Obtained) : ∀ m ∈ compatible acceptable produced, m.Obtained := by
  intro m hm
  obtain ⟨accept, haccept, produce, hproduce, -, rfl⟩ := mem_compatible hm
  exact standsFor_mostSpecific.obtained (hacceptable accept haccept) (hproduced produce hproduce)

private theorem exists_mem_compatible (haccept : accept ∈ acceptable)
    (hproduce : produce ∈ produced)
    (hmeet : accept.isCompatibleWith produce) (hself : (mostSpecific accept produce).IsFolded) :
    ∃ m ∈ compatible acceptable produced, m.equivalent (mostSpecific accept produce) := by
  have hpair : mostSpecific accept produce ∈ meetings acceptable produced :=
    mem_meetings.mpr ⟨accept, haccept, produce, hproduce, hmeet, rfl⟩
  obtain ⟨m, hm, hsame⟩ := exists_mem_keepNew (equivalent_refl hself) hpair
  exact ⟨m, (compatible_perm acceptable produced).mem_iff.mpr hm, hsame⟩

private theorem pairwise_compatible (hacceptable : ∀ m ∈ acceptable, m.Obtained)
    (hproduced : ∀ m ∈ produced, m.Obtained) :
    (compatible acceptable produced).Pairwise fun m n => ¬ m.equivalent n ∧ ¬ n.equivalent m := by
  have hperm := compatible_perm acceptable produced
  have hkept : (keepNew equivalent [] (meetings acceptable produced)).Pairwise
      fun m n => ¬ m.equivalent n := pairwise_keepNew List.Pairwise.nil
  have hobtained := obtained_compatible hacceptable hproduced
  -- adding looks at the earlier types only, and sorting may turn a pair around
  refine (hperm.pairwise_iff fun h => h.symm).mpr (hkept.imp_of_mem ?_)
  intro m n hm hn hnew
  have hm := (hobtained m (hperm.mem_iff.mpr hm)).isFolded
  have hn := (hobtained n (hperm.mem_iff.mpr hn)).isFolded
  exact ⟨hnew, fun h => hnew (equivalent_symm hn hm h)⟩

/-- Each negotiated type stands for a pair that meets and has the quality of the accepted one; what
stands for any such pair equals a negotiated type; and no two of these are equal. -/
theorem mediaTypes?_complete
    (hstrategies : ∀ s ∈ r.negotiator.strategies, s.AnswersObtained req)
    (hdeclared : ∀ declared, req.attributes.produces = some declared → ∀ m ∈ declared, m.Obtained) :
    (r.mediaTypes? req = none ↔ ∃ fault, r.negotiator.resolve req = .error fault) ∧
    ∀ acceptable, r.negotiator.resolve req = .ok acceptable →
      ∃ types, r.mediaTypes? req = some types ∧
        (∀ m ∈ types, ∃ accept ∈ acceptable, ∃ produce ∈ producible req,
          accept.isCompatibleWith produce ∧ StandsFor accept produce m ∧
            m.parameter? "q" = accept.parameter? "q") ∧
        (∀ accept ∈ acceptable, ∀ produce ∈ producible req, accept.isCompatibleWith produce →
          ∃ m, StandsFor accept produce m ∧ ∃ n ∈ types, n.equivalent m) ∧
        types.Pairwise fun m n => ¬ m.equivalent n ∧ ¬ n.equivalent m := by
  have hproduced := obtained_producible hdeclared
  rw [mediaTypes?]
  constructor
  · cases r.negotiator.resolve req <;> simp
  intro acceptable hresolve
  have hacceptable := Negotiator.resolve_obtained hstrategies hresolve
  rw [hresolve]
  refine ⟨compatible acceptable (producible req), rfl, ?_, ?_, ?_⟩
  · intro m hm
    obtain ⟨accept, haccept, produce, hproduce, hmeet, rfl⟩ := mem_compatible hm
    have hstands : StandsFor accept produce (mostSpecific accept produce) := standsFor_mostSpecific
    have hquality := hstands.quality (hproduced produce hproduce).isFolded
    exact ⟨accept, haccept, produce, hproduce, hmeet, hstands, hquality⟩
  · intro accept haccept produce hproduce hmeet
    have hstands : StandsFor accept produce (mostSpecific accept produce) := standsFor_mostSpecific
    have hself := hstands.obtained (hacceptable accept haccept) (hproduced produce hproduce)
    exact ⟨_, hstands, exists_mem_compatible haccept hproduce hmeet hself.isFolded⟩
  · exact pairwise_compatible hacceptable hproduced

/-- Looks at the query first and has HTML as the default. -/
def jsonOrHtml : NegotiatingResolver Unit where
  negotiator := .ofSettings {
    favorParameter := true
    defaultTypes := [.textHtml]
    table := ⟨[("json", .applicationJson)]⟩ }
  resolvers := []

def pageRequest : Request where
  method := .get
  path := "/page"
  headers := [("Accept", "text/*;q=0.5, text/html;q=0.5, application/*")]
  attributes := { produces := some [.textHtml, .applicationJson] }

theorem mediaTypes?_complete_page :
    let acceptable : List MediaType :=
      [application "*", ⟨"text", "html", [("q", "0.5")]⟩, ⟨"text", "*", [("q", "0.5")]⟩]
    (∀ s ∈ jsonOrHtml.negotiator.strategies, s.AnswersObtained pageRequest) ∧
      (∀ declared, pageRequest.attributes.produces = some declared →
        ∀ m ∈ declared, m.Obtained) ∧
      jsonOrHtml.negotiator.resolve pageRequest = .ok acceptable ∧
      ∃ types, jsonOrHtml.mediaTypes? pageRequest = some types ∧
        types = [.applicationJson, ⟨"text", "html", [("q", "0.5")]⟩] ∧
        ∀ m ∈ types, ∃ accept ∈ acceptable, m.parameter? "q" = accept.parameter? "q" := by
  intro acceptable
  have hjson : MediaType.applicationJson.Obtained := .new "application" "json"
  have hhtml : MediaType.textHtml.Obtained := .new "text" "html"
  have hstrategies : ∀ s ∈ jsonOrHtml.negotiator.strategies, s.AnswersObtained pageRequest := by
    apply Negotiator.ofSettings_answersObtained
    · simpa using hjson
    · simpa using hhtml
  have hdeclared : ∀ declared, pageRequest.attributes.produces = some declared →
      ∀ m ∈ declared, m.Obtained := by
    intro declared h
    cases h
    simp [hhtml, hjson]
  have hacceptable : jsonOrHtml.negotiator.resolve pageRequest = .ok acceptable := by
    decide +kernel
  obtain ⟨types, htypes, hstands, -, -⟩ :=
    (mediaTypes?_complete hstrategies hdeclared).2 acceptable hacceptable
  refine ⟨hstrategies, hdeclared, hacceptable, types, htypes, ?_, ?_⟩
  · rw [mediaTypes?, hacceptable] at htypes
    rw [← Option.some.inj htypes]
    decide +kernel
  · intro m hm
    obtain ⟨accept, haccept, -, -, -, -, hquality⟩ := hstands m hm
    exact ⟨accept, haccept, hquality⟩

end NegotiatingResolver

end Switchyard
