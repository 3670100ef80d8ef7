import Switchyard.Proofs.Cors.Combining
/-!
# Combined policies decide as a union

What two policies come to together allows an origin, or a list of headers, when it is allowed by one
of the two, entry by entry, and the same holds of methods where both list some
(`CorsPolicy.combine_unites`). Entries may be dropped on the way, as repetitions of others or beside
the wildcard; what they allow is not.
-/

namespace Switchyard.CorsPolicy

open OriginPattern

variable {a b c p : CorsPolicy} {o : String} {m : Method}

/-- An entry names the origin that is left of a header without blanks and slashes at the end. -/
def names (bare : List Char) (entry : String) : Bool :=
  Text.sameFold (String.ofList (withoutSlashes entry.toList)) (String.ofList bare)

private theorem lower_withoutSlashes (entry : String) :
    Text.lower (String.ofList (withoutSlashes entry.toList)) =
      String.ofList (withoutSlashes (Text.lower entry).toList) := by
  have hslash : ((fun c => decide (c = '/')) ∘ Char.toLower) = fun c => decide (c = '/') := by
    funext c
    simp [Text.toLower_eq_slash]
  simp [Text.lower, withoutSlashes, Text.dropEndWhile, ← List.map_reverse, List.dropWhile_map,
    hslash]

private theorem names_congr {bare : List Char} (x y : String) (h : Text.sameFold x y) :
    names bare x = names bare y := by
  rw [names, names, Text.sameFold, Text.sameFold, lower_withoutSlashes, lower_withoutSlashes,
    lower_of_sameFold h]

private theorem isSome_checkOrigin (hchecked : p.checkCredentials = .ok ()) :
    (p.checkOrigin o).isSome ↔ Text.trim o.toList ≠ [] ∧
      (Covers (p.allowedOrigins.getD []) (names (withoutSlashes (Text.trim o.toList))) ∨
        (p.allowedOriginPatterns.getD []).any
          (·.isMatch (withoutSlashes (Text.trim o.toList)))) := by
  have hopen : wildcard ∈ p.allowedOrigins.getD [] → p.allowCredentials ≠ some true := by
    intro hwild htrue
    have herror := checkCredentials_error_iff.mpr ⟨rfl, htrue, hwild⟩
    rw [hchecked] at herror
    cases herror
  by_cases htrim : Text.trim o.toList = []
  · simp [checkOrigin, htrim]
  · by_cases hwild : wildcard ∈ p.allowedOrigins.getD []
    · simp [checkOrigin, htrim, hwild, hopen hwild, Covers]
    · simp [checkOrigin, htrim, hwild, Covers, names]

private theorem isSome_checkMethod :
    (p.checkMethod m).isSome ↔ Covers p.resolvedMethods (Text.sameFold · m.name) := by
  by_cases hwild : wildcard ∈ p.resolvedMethods
  · simp [checkMethod, Covers, hwild]
  · by_cases hlisted : p.resolvedMethods.any (Text.sameFold · m.name)
    · simp [checkMethod, Covers, hwild, hlisted]
    · simp [checkMethod, Covers, hwild, hlisted]

theorem isSome_checkHeaders {requested : List String} :
    (p.checkHeaders requested).isSome ↔
      ∀ h ∈ requested, Covers (p.allowedHeaders.getD []) (Text.sameFold · h) := by
  cases requested with
  | nil => simp [checkHeaders]
  | cons h requested =>
    cases hallowed : p.allowedHeaders with
    | none =>
      have hnone : ¬ Covers [] (Text.sameFold · h) := by simp [Covers]
      simp [checkHeaders, hallowed, hnone]
    | some allowed =>
      by_cases hwild : wildcard ∈ allowed
      · simp [checkHeaders, hallowed, Covers, hwild]
      · simp [checkHeaders, hallowed, Covers, hwild]

def ListsMethods (p : CorsPolicy) : Prop := p.allowedMethods.getD [] ≠ []

instance : Decidable p.ListsMethods := inferInstanceAs (Decidable (_ ≠ _))

private theorem resolvedMethods_of_lists (h : p.ListsMethods) :
    p.resolvedMethods = p.allowedMethods.getD [] := by
  rw [ListsMethods] at h
  cases hmethods : p.allowedMethods with
  | none => simp [hmethods] at h
  | some methods =>
    cases methods with
    | nil => simp [hmethods] at h
    | cons m ms => rw [resolvedMethods, hmethods, Option.getD_some]

private theorem resolvedMethods_of_not_lists (h : ¬ p.ListsMethods) :
    p.resolvedMethods = defaultMethods := by
  rw [ListsMethods] at h
  cases hmethods : p.allowedMethods with
  | none => rw [resolvedMethods, hmethods]
  | some methods =>
    cases methods with
    | nil => rw [resolvedMethods, hmethods]
    | cons m ms => simp [hmethods] at h

/-- A policy decides as two others do together. -/
structure Unites (a b c : CorsPolicy) : Prop where
  origin (o : String) :
    (c.checkOrigin o).isSome ↔ (a.checkOrigin o).isSome ∨ (b.checkOrigin o).isSome
  headers (requested : List String) : (c.checkHeaders requested).isSome ↔
    ∀ h ∈ requested, (a.checkHeaders [h]).isSome ∨ (b.checkHeaders [h]).isSome
  methods_both (ha : a.ListsMethods) (hb : b.ListsMethods) (m : Method) :
    (c.checkMethod m).isSome ↔ (a.checkMethod m).isSome ∨ (b.checkMethod m).isSome
  methods_first (ha : a.ListsMethods) (hb : ¬ b.ListsMethods) (m : Method) :
    (c.checkMethod m).isSome ↔ (a.checkMethod m).isSome
  methods_second (ha : ¬ a.ListsMethods) (hb : b.ListsMethods) (m : Method) :
    (c.checkMethod m).isSome ↔ (b.checkMethod m).isSome
  methods_neither (ha : ¬ a.ListsMethods) (hb : ¬ b.ListsMethods) (m : Method) :
    (c.checkMethod m).isSome ↔ ∃ name ∈ defaultMethods, Text.sameFold name m.name
  credentials (x : Bool) :
    c.allowCredentials = some x ↔ a.allowCredentials = some x ∨ b.allowCredentials = some x
  maxAge : c.maxAge = (a.maxAge.toList ++ b.maxAge.toList).min?

private theorem listsMethods_joined :
    (joined a b).ListsMethods ↔ a.ListsMethods ∨ b.ListsMethods := by
  -- a list has an entry when it covers what holds of all of them
  rw [ListsMethods, ListsMethods, ListsMethods, ne_nil_iff_covers, ne_nil_iff_covers,
    ne_nil_iff_covers]
  exact covers_combineLists fun _ _ _ => rfl

private theorem joined_origin (hcheck : (joined a b).checkCredentials = .ok ())
    (ha : a.checkCredentials = .ok ()) (hb : b.checkCredentials = .ok ()) :
    ((joined a b).checkOrigin o).isSome ↔ (a.checkOrigin o).isSome ∨ (b.checkOrigin o).isSome := by
  rw [isSome_checkOrigin hcheck, isSome_checkOrigin ha, isSome_checkOrigin hb]
  dsimp only [joined]
  rw [covers_combineLists names_congr, any_combinePatterns, Bool.or_eq_true, ← and_or_left,
    or_or_or_comm]

private theorem joined_headers {requested : List String} :
    ((joined a b).checkHeaders requested).isSome ↔
      ∀ h ∈ requested, (a.checkHeaders [h]).isSome ∨ (b.checkHeaders [h]).isSome := by
  simp only [isSome_checkHeaders, List.forall_mem_singleton, joined,
    covers_combineLists fun x y h => sameFold_congr x y _ h]

private theorem joined_methods (h : a.ListsMethods ∨ b.ListsMethods) :
    ((joined a b).checkMethod m).isSome ↔
      Covers (a.allowedMethods.getD []) (Text.sameFold · m.name) ∨
        Covers (b.allowedMethods.getD []) (Text.sameFold · m.name) := by
  rw [isSome_checkMethod, resolvedMethods_of_lists (listsMethods_joined.mpr h)]
  exact covers_combineLists fun x y h => sameFold_congr x y _ h

private theorem joined_unites (hagree : ¬ Disagree (some a) (some b))
    (hcheck : (joined a b).checkCredentials = .ok ())
    (ha : a.checkCredentials = .ok ()) (hb : b.checkCredentials = .ok ()) :
    Unites a b (joined a b) where
  origin o := joined_origin hcheck ha hb
  headers requested := joined_headers
  methods_both ha hb m := by
    rw [joined_methods (.inl ha), isSome_checkMethod, isSome_checkMethod,
      resolvedMethods_of_lists ha, resolvedMethods_of_lists hb]
  methods_first ha hb m := by
    rw [joined_methods (.inl ha), isSome_checkMethod, resolvedMethods_of_lists ha,
      Decidable.not_not.mp hb]
    simp [Covers]
  methods_second ha hb m := by
    rw [joined_methods (.inr hb), isSome_checkMethod, resolvedMethods_of_lists hb,
      Decidable.not_not.mp ha]
    simp [Covers]
  methods_neither ha hb m := by
    have hneither : ¬ (joined a b).ListsMethods := by
      rw [listsMethods_joined]
      exact not_or.mpr ⟨ha, hb⟩
    rw [isSome_checkMethod, resolvedMethods_of_not_lists hneither]
    simp [Covers, defaultMethods, wildcard]
  credentials x := credentials_joined_iff hagree
  maxAge := combineAges_eq a.maxAge b.maxAge

/-- Two policies fail to combine when they set different credentials, or come to send them to every
origin; otherwise they come to their union. -/
theorem combine_unites (a b : CorsPolicy) :
    ((∃ fault, a.combine b = .error fault) ↔
      (∃ x y, a.allowCredentials = some x ∧ b.allowCredentials = some y ∧ x ≠ y) ∨
        (a.allowCredentials = some true ∨ b.allowCredentials = some true) ∧
          (wildcard ∈ a.allowedOrigins.getD [] ∨ wildcard ∈ b.allowedOrigins.getD [])) ∧
      ∀ c, a.combine b = .ok c → Unites a b c := by
  refine ⟨?_, ?_⟩
  · simp only [combine_error_iff]
    by_cases hdisagree : Disagree (some a) (some b)
    · exact iff_of_true ⟨.conflictingCredentials, hdisagree⟩ (.inl hdisagree)
    · constructor
      · intro ⟨fault, hclash⟩
        cases fault with
        | wildcardWithCredentials => exact .inr hclash.2
        | conflictingCredentials => exact absurd hclash hdisagree
        | _ => exact hclash.elim
      · intro h
        exact ⟨.wildcardWithCredentials, hdisagree, h.resolve_left hdisagree⟩
  · intro c hcombine
    obtain ⟨ha, hb⟩ := checked_of_combine hcombine
    obtain ⟨hagree, hcheck, rfl⟩ := combine_ok_iff.mp hcombine
    exact joined_unites hagree hcheck ha hb

/-- A policy for one method, and below it one for all headers. -/
def shop : CorsPolicy where
  allowedOrigins := some ["https://a.example.com"]
  allowedMethods := some ["PUT"]
  maxAge := some 3600

def stock : CorsPolicy where
  allowedOrigins := some ["https://b.example.com"]
  allowedHeaders := some [wildcard]
  maxAge := some 60

theorem combine_unites_shop : ∃ c, shop.combine stock = .ok c ∧
    (c.checkOrigin "https://B.example.com/").isSome ∧ (c.checkMethod ⟨"PUT"⟩).isSome ∧
    (c.checkHeaders ["X-Shop"]).isSome ∧ c.maxAge = some 60 := by
  have hcombine : shop.combine stock = .ok (joined shop stock) := by rfl
  have hunites := (combine_unites shop stock).2 _ hcombine
  refine ⟨_, hcombine, (hunites.origin _).mpr (.inr (by rfl)), ?_, ?_, hunites.maxAge⟩
  · exact (hunites.methods_first (by decide) (by decide) _).mpr (by rfl)
  · rw [hunites.headers]
    exact fun h hh => .inr (by simp [checkHeaders, stock])

end Switchyard.CorsPolicy
