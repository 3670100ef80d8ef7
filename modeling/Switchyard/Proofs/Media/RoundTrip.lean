import Switchyard.Media.MediaType
import Switchyard.Proofs.Attempt
/-!
# Writing and reading media types

What is read of a media type has names that are tokens in lower case, each name once, and quotes
that close in every value but the last (`isRead_of_parse`). Writing it and reading it again gives the
same media type, unless a value brings quotes of its own that open the written ones before a
semicolon (`parse_render_iff`).
-/

namespace Switchyard

namespace MediaType

variable {text : String} {m m' : MediaType}

/-- A type, a subtype or the name of a parameter: a token in lower case. -/
structure IsName (s : String) : Prop where
  token : Text.isToken s.toList
  lower : Text.lower s = s

/-- A parameter that reading accepts. -/
structure IsParameter (p : String × String) : Prop where
  name : IsName p.1
  quality : p.1 = "q" → (Quality.parse? p.2.toList).any Quality.isUnit

/-- A media type as reading makes it, but for the quotes in its values. -/
structure IsRead (m : MediaType) : Prop where
  mainType : IsName m.mainType
  subtype : IsName m.subtype
  range : m.mainType = wildcard → m.subtype = wildcard
  parameters : ∀ p ∈ m.parameters, IsParameter p
  distinct : (m.parameters.map (·.1)).Nodup

/-- The double quotes of a text come in pairs. -/
def Closes (s : List Char) : Prop := Text.quotedAfter false s = false

private theorem isName_lower {s : List Char} (hs : Text.isToken s) :
    IsName (Text.lower (String.ofList s)) where
  token := by
    rw [Text.isToken, Bool.and_eq_true, List.all_eq_true] at hs ⊢
    rw [Text.lower, String.toList_ofList, String.toList_ofList]
    refine ⟨by simpa using hs.1, ?_⟩
    intro c hc
    obtain ⟨d, hd, rfl⟩ := List.mem_map.mp hc
    exact Text.isTokenChar_toLower (hs.2 d hd)
  lower := Text.lower_lower _

private theorem unquote_sublist (s : List Char) : (unquote s).Sublist s := by
  unfold unquote
  split
  · next rest =>
    split
    · next inner hinner =>
      rw [← List.reverse_reverse rest, hinner, List.reverse_cons]
      exact (List.sublist_append_left inner.reverse ['"']).cons '"'
    · exact List.Sublist.refl _
  · exact List.Sublist.refl s

private theorem closes_unquote_iff {s : List Char} : Closes (unquote s) ↔ Closes s := by
  unfold unquote
  split
  · next rest =>
    split
    · next inner hinner =>
      have hrest : rest = inner.reverse ++ ['"'] := by
        rw [← List.reverse_reverse rest, hinner, List.reverse_cons]
      rw [hrest, Closes, Closes, Text.quotedAfter, Text.quotedAfter, List.count_cons_self,
        List.count_append, List.count_singleton_self, Nat.add_assoc, Nat.add_mod_right]
    · rfl
  · rfl

private theorem closes_trim_iff {s : List Char} : Closes (Text.trim s) ↔ Closes s := by
  rw [Closes, Closes, Text.quotedAfter, Text.quotedAfter, Text.count_trim (by decide)]

private theorem not_mem_of_isToken {s : List Char} (hs : Text.isToken s) {c : Char}
    (hc : Text.isTokenChar c = false) : c ∉ s := by
  intro h
  rw [Text.isToken, Bool.and_eq_true, List.all_eq_true] at hs
  rw [hs.2 c h] at hc
  cases hc

private theorem addParameter_ok {part : List Char} (h : addParameter text m part = .ok m') :
    Text.trim part = [] ∧ m' = m ∨ ∃ name raw, Text.cutFirst '=' (Text.trim part) = some (name, raw) ∧
      Text.isToken (Text.trim name) ∧
      ((Text.trim name).map Char.toLower = ['q'] →
        (Quality.parse? (unquote (Text.trim raw))).any Quality.isUnit) ∧
      m' = m.withParameter (String.ofList (Text.trim name))
        (String.ofList (unquote (Text.trim raw))) := by
  unfold addParameter at h
  split at h
  · next hblank =>
    cases h
    exact .inl ⟨hblank, rfl⟩
  · next part' hpart =>
    split at h
    · cases h
    · next name raw hcut =>
      dsimp only at h
      split at h
      · cases h
      · next htoken =>
        split at h
        · cases h
        · next hquality =>
          cases h
          refine .inr ⟨name, raw, hcut, by simpa using htoken, ?_, rfl⟩
          intro hq
          simpa [hq] using hquality

theorem mem_withParameter {name value : String} {p : String × String} :
    p ∈ (m.withParameter name value).parameters ↔
      p ∈ m.parameters ∧ p.1 ≠ Text.lower name ∨ p = (Text.lower name, value) := by
  simp [withParameter]

theorem nodup_withParameter (hm : (m.parameters.map (·.1)).Nodup) (name value : String) :
    ((m.withParameter name value).parameters.map (·.1)).Nodup := by
  rw [withParameter, List.map_append, List.nodup_append]
  refine ⟨hm.sublist (List.filter_sublist.map _), by simp, ?_⟩
  intro a ha b hb heq
  obtain ⟨p, hp, rfl⟩ := List.mem_map.mp ha
  rw [List.map_singleton, List.mem_singleton] at hb
  simp [heq, hb] at hp

theorem IsRead.withParameter (hm : m.IsRead) {name value : List Char} (hname : Text.isToken name)
    (hquality : name.map Char.toLower = ['q'] → (Quality.parse? value).any Quality.isUnit) :
    (m.withParameter (String.ofList name) (String.ofList value)).IsRead where
  mainType := hm.mainType
  subtype := hm.subtype
  range := hm.range
  parameters := by
    intro p hp
    rcases mem_withParameter.mp hp with ⟨hp, -⟩ | rfl
    · exact hm.parameters p hp
    · refine ⟨isName_lower hname, ?_⟩
      intro hq
      rw [String.toList_ofList]
      apply hquality
      have hlist := congrArg String.toList hq
      rwa [Text.lower, String.toList_ofList, String.toList_ofList] at hlist
  distinct := nodup_withParameter hm.distinct _ _

private theorem isRead_of_essence {part : List Char} (h : essence? text part = .ok m) :
    m.IsRead ∧ m.parameters = [] := by
  dsimp only [essence?] at h
  split at h
  · cases h
  · next mainType subtype hcut =>
    split at h
    · cases h
    · split at h
      · cases h
      · next htoken =>
        split at h
        · cases h
        · next hrange =>
          cases h
          simp only [Bool.or_eq_true, Bool.not_eq_true', not_or, Bool.not_eq_false] at htoken
          simp only [Bool.and_eq_true, decide_eq_true_eq, bne_iff_ne, ne_eq, not_and,
            Decidable.not_not] at hrange
          refine ⟨⟨isName_lower htoken.1, isName_lower htoken.2, ?_, ?_, ?_⟩, rfl⟩
          · -- letter case tells no star from another text
            intro hmain
            have hlist : (Text.trim mainType).map Char.toLower = ['*'] := by
              have h := congrArg String.toList hmain
              rwa [new, Text.lower, String.toList_ofList, String.toList_ofList] at h
            obtain ⟨c, hc, hstar⟩ := List.map_eq_singleton_iff.mp hlist
            rw [Text.toLower_eq_iff (by decide)] at hstar
            rw [hstar] at hc
            rw [new, hrange hc]
            rfl
          · exact List.forall_mem_nil _
          · exact List.nodup_nil

private theorem closes_of_isToken {s : List Char} (hs : Text.isToken s) : Closes s :=
  Text.quotedAfter_of_not_mem (not_mem_of_isToken hs (by decide)) false

theorem IsRead.addParameter {part : List Char} (hm : m.IsRead)
    (h : addParameter text m part = .ok m') : m'.IsRead := by
  rcases addParameter_ok h with ⟨-, rfl⟩ | ⟨name, raw, -, hname, hquality, rfl⟩
  · exact hm
  · exact hm.withParameter hname hquality

/-- A part whose quotes close adds a value whose quotes close, and any part leaves those that are
there. -/
private theorem closes_addParameter {part : List Char} (h : addParameter text m part = .ok m')
    (hm : ∀ p ∈ m.parameters, Closes p.2.toList) :
    (∀ p ∈ m'.parameters.dropLast, Closes p.2.toList) ∧
      (Closes part → ∀ p ∈ m'.parameters, Closes p.2.toList) := by
  rcases addParameter_ok h with ⟨-, rfl⟩ | ⟨name, raw, hcut, hname, -, rfl⟩
  · exact ⟨fun p hp => hm p ((List.dropLast_sublist _).subset hp), fun _ => hm⟩
  · constructor
    · intro p hp
      rw [withParameter, List.dropLast_concat] at hp
      exact hm p (List.mem_filter.mp hp).1
    · intro hpart p hp
      rcases mem_withParameter.mp hp with ⟨hp, -⟩ | rfl
      · exact hm p hp
      · -- the name and the signs around the value bring no quotes
        have hname : Closes name := closes_trim_iff.mp (closes_of_isToken hname)
        rw [← closes_trim_iff, Text.eq_of_cutFirst hcut, Closes, Text.quotedAfter_append, hname,
          Text.quotedAfter_cons_of_ne (by decide)] at hpart
        rw [String.toList_ofList, closes_unquote_iff, closes_trim_iff]
        exact hpart

private theorem foldlM_addParameter {parts : List (List Char)}
    (h : parts.foldlM (addParameter text) m = .ok m') (hm : m.IsRead)
    (hvalues : ∀ p ∈ m.parameters, Closes p.2.toList)
    (hparts : ∀ part ∈ parts.dropLast, Closes part) :
    m'.IsRead ∧ ∀ p ∈ m'.parameters.dropLast, Closes p.2.toList := by
  induction parts generalizing m with
  | nil =>
    cases h
    exact ⟨hm, fun p hp => hvalues p ((List.dropLast_sublist _).subset hp)⟩
  | cons part parts ih =>
    rw [List.foldlM_cons] at h
    obtain ⟨m₁, hadd, h⟩ := except_bind_ok h
    cases parts with
    | nil =>
      cases h
      exact ⟨hm.addParameter hadd, (closes_addParameter hadd hvalues).1⟩
    | cons next parts =>
      rw [List.dropLast_cons_cons, List.forall_mem_cons] at hparts
      exact ih h (hm.addParameter hadd) ((closes_addParameter hadd hvalues).2 hparts.1) hparts.2

/-- What is read: names that are tokens in lower case, each once, and quotes that close in every
value but the last. -/
theorem isRead_of_parse (h : parse text = .ok m) :
    m.IsRead ∧ ∀ p ∈ m.parameters.dropLast, Closes p.2.toList := by
  unfold parse at h
  split at h
  · cases h
  · obtain ⟨first, rest, hsplit, -, hrest⟩ :=
      Text.quotedAfter_pieces ';' false (Text.trim text.toList)
    rw [Text.splitUnquoted, hsplit] at h
    dsimp only at h
    obtain ⟨m₀, hessence, h⟩ := except_bind_ok h
    obtain ⟨hread, hnone⟩ := isRead_of_essence hessence
    exact foldlM_addParameter h hread (by rw [hnone]; exact List.forall_mem_nil _) hrest

def essenceText (m : MediaType) : List Char := m.mainType.toList ++ '/' :: m.subtype.toList

/-- A value as it is written: in quotes unless it is a token. -/
def valueText (value : List Char) : List Char :=
  if Text.isToken value then value else '"' :: (value ++ ['"'])

/-- A parameter as it is written behind its semicolon. -/
def parameterSource (p : String × String) : List Char := p.1.toList ++ '=' :: valueText p.2.toList

/-- The parts that reading finds in what is written of the parameters. -/
def writtenParts (parameters : List (String × String)) : List (List Char) :=
  parameters.flatMap fun p => Text.splitUnquoted ';' (parameterSource p)

private theorem toList_parameterText (p : String × String) :
    (parameterText p).toList = ';' :: parameterSource p := by
  unfold parameterText parameterSource valueText
  split <;> simp [String.toList_append]

private theorem toList_render :
    m.render.toList = m.essenceText ++ m.parameters.flatMap fun p => ';' :: parameterSource p := by
  have hjoin : (String.join (m.parameters.map parameterText)).toList =
      m.parameters.flatMap fun p => ';' :: parameterSource p := by
    rw [String.toList_join, List.flatMap_map]
    simp only [toList_parameterText]
  rw [render, String.toList_append, hjoin, essenceText]
  simp [String.toList_append]

/-- A text that does not begin or end with a blank. -/
structure Tight (s : List Char) : Prop where
  first : ∃ c, s.head? = some c ∧ Text.isBlank c = false
  last : ∃ c, s.getLast? = some c ∧ Text.isBlank c = false

private theorem tight_of_isToken {s : List Char} (hs : Text.isToken s) : Tight s := by
  rw [Text.isToken, Bool.and_eq_true, List.all_eq_true, Bool.not_eq_true',
    List.isEmpty_eq_false_iff] at hs
  refine ⟨⟨s.head hs.1, List.head?_eq_some_head hs.1, ?_⟩,
    ⟨s.getLast hs.1, List.getLast?_eq_some_getLast hs.1, ?_⟩⟩
  · exact Text.isBlank_of_isTokenChar (hs.2 _ (List.head_mem hs.1))
  · exact Text.isBlank_of_isTokenChar (hs.2 _ (List.getLast_mem hs.1))

theorem Tight.append {s t : List Char} (hs : Tight s) (ht : Tight t) (between : List Char) :
    Tight (s ++ (between ++ t)) := by
  obtain ⟨c, hc, hfirst⟩ := hs.first
  obtain ⟨d, hd, hlast⟩ := ht.last
  refine ⟨⟨c, by rw [List.head?_append, hc]; rfl, hfirst⟩, ⟨d, ?_, hlast⟩⟩
  rw [List.getLast?_append, List.getLast?_append, hd]
  rfl

private theorem Tight.trim_eq {s : List Char} (hs : Tight s) : Text.trim s = s := by
  obtain ⟨c, hc, hfirst⟩ := hs.first
  obtain ⟨d, hd, hlast⟩ := hs.last
  apply Text.trim_eq_self_of_ends
  · intro e he
    rw [hc] at he
    cases he
    exact hfirst
  · intro e he
    rw [hd] at he
    cases he
    exact hlast

theorem Tight.ne_nil {s : List Char} (hs : Tight s) : s ≠ [] := by
  rintro rfl
  obtain ⟨c, hc, -⟩ := hs.first
  cases hc

private theorem tight_valueText (value : List Char) : Tight (valueText value) := by
  unfold valueText
  split
  · next h => exact tight_of_isToken h
  · refine ⟨⟨'"', rfl, by decide⟩, ⟨'"', ?_, by decide⟩⟩
    rw [← List.cons_append, List.getLast?_concat]

private theorem tight_parameterSource {p : String × String} (hp : IsName p.1) :
    Tight (parameterSource p) :=
  (tight_of_isToken hp.token).append (tight_valueText _) ['=']

private theorem IsRead.tight_essenceText (hm : m.IsRead) : Tight m.essenceText :=
  (tight_of_isToken hm.mainType.token).append (tight_of_isToken hm.subtype.token) ['/']

private theorem IsRead.tight_render (hm : m.IsRead) : Tight m.render.toList := by
  have hwritten {s : List Char} (hs : Tight s) {parameters : List (String × String)}
      (hparameters : ∀ p ∈ parameters, IsParameter p) :
      Tight (s ++ parameters.flatMap fun p => ';' :: parameterSource p) := by
    induction parameters generalizing s with
    | nil => rwa [List.flatMap_nil, List.append_nil]
    | cons p parameters ih =>
      rw [List.forall_mem_cons] at hparameters
      rw [List.flatMap_cons, ← List.append_assoc]
      exact ih (hs.append (tight_parameterSource hparameters.1.name) [';']) hparameters.2
  rw [toList_render]
  exact hwritten hm.tight_essenceText hm.parameters

private theorem essence_essenceText (hm : m.IsRead) :
    essence? text m.essenceText = .ok ⟨m.mainType, m.subtype, []⟩ := by
  have hslash : '/' ∉ m.mainType.toList := not_mem_of_isToken hm.mainType.token (by decide)
  have hstar : m.essenceText ≠ ['*'] := by
    intro h
    have hmem : '/' ∈ m.essenceText := by simp [essenceText]
    rw [h] at hmem
    simp at hmem
  have hmain := tight_of_isToken hm.mainType.token
  have hsub := tight_of_isToken hm.subtype.token
  have hrange : ¬ (decide (m.mainType.toList = ['*']) && m.subtype.toList != ['*']) := by
    intro h
    rw [Bool.and_eq_true, decide_eq_true_eq, bne_iff_ne] at h
    apply h.2
    rw [hm.range (String.toList_injective h.1)]
    rfl
  dsimp only [essence?]
  rw [hm.tight_essenceText.trim_eq, if_neg hstar, essenceText, Text.cutFirst_append hslash]
  dsimp only
  rw [hmain.trim_eq, hsub.trim_eq, if_neg (by simpa using hsub.ne_nil), hm.mainType.token,
    hm.subtype.token, if_neg (by decide), if_neg hrange, new, String.ofList_toList,
    String.ofList_toList, hm.mainType.lower, hm.subtype.lower]

private theorem unquote_valueText (value : List Char) : unquote (valueText value) = value := by
  unfold valueText
  split
  · next h =>
    have hquote := not_mem_of_isToken h (c := '"') (by decide)
    unfold unquote
    split
    · simp at hquote
    · rfl
  · simp [unquote]

/-- A part that begins with a name sets that name, to no more than what is behind it. -/
private theorem addParameter_front {name value : List Char} (hname : Text.isToken name)
    (h : addParameter text m (name ++ '=' :: value) = .ok m') :
    ∃ value', value'.Sublist value ∧
      m' = m.withParameter (String.ofList name) (String.ofList value') := by
  have htrim : Text.trim (name ++ '=' :: value) =
      name ++ '=' :: Text.dropEndWhile Text.isBlank value := by
    rw [Text.trim_append (tight_of_isToken hname).ne_nil,
      Text.dropEndWhile_cons_of_neg (by decide)]
    intro c hc
    rw [Text.isToken, Bool.and_eq_true, List.all_eq_true] at hname
    exact Text.isBlank_of_isTokenChar (hname.2 c hc)
  rcases addParameter_ok h with ⟨hnil, -⟩ | ⟨name', raw, hcut, -, -, rfl⟩
  · rw [htrim] at hnil
    simp at hnil
  · rw [htrim, Text.cutFirst_append (not_mem_of_isToken hname (by decide))] at hcut
    cases hcut
    rw [(tight_of_isToken hname).trim_eq]
    exact ⟨_, ((unquote_sublist _).trans (Text.trim_sublist _)).trans
      (Text.dropEndWhile_sublist _ _), rfl⟩

/-- A written parameter that is one part is read as it was. -/
private theorem addParameter_parameterSource {p : String × String} (hp : IsParameter p) :
    addParameter text m (parameterSource p) = .ok (m.withParameter p.1 p.2) := by
  have hcut : Text.cutFirst '=' (parameterSource p) = some (p.1.toList, valueText p.2.toList) :=
    Text.cutFirst_append (not_mem_of_isToken hp.name.token (by decide)) _
  have hquality : ¬ (p.1.toList.map Char.toLower == ['q'] &&
      !((Quality.parse? p.2.toList).any Quality.isUnit)) := by
    intro h
    rw [Bool.and_eq_true, beq_iff_eq, Bool.not_eq_true', ← Bool.not_eq_true] at h
    apply h.2
    apply hp.quality
    rw [← hp.name.lower, Text.lower, h.1]
  have hsource := tight_parameterSource hp.name
  unfold addParameter
  rw [hsource.trim_eq]
  split
  · next hnil => exact absurd hnil hsource.ne_nil
  · rw [hcut]
    dsimp only
    rw [(tight_of_isToken hp.name.token).trim_eq, (tight_valueText _).trim_eq, unquote_valueText,
      hp.name.token, if_neg (by decide), if_neg hquality, String.ofList_toList, String.ofList_toList]

/-- A value with a semicolon behind an odd number of its own double quotes: between the quotes that
writing adds, that semicolon stands outside. -/
def Spills (value : List Char) : Prop :=
  ∃ front back, value = front ++ ';' :: back ∧ Text.quotedAfter false front

private theorem not_isToken_of_spills {value : List Char} (h : Spills value) :
    ¬ Text.isToken value := by
  intro htoken
  obtain ⟨front, back, rfl, -⟩ := h
  exact not_mem_of_isToken htoken (c := ';') (by decide) (by simp)

private theorem quotedAfter_true (s : List Char) :
    Text.quotedAfter true s = !Text.quotedAfter false s := by
  rw [Text.quotedAfter, Text.quotedAfter]
  cases s.count '"' % 2 == 1 <;> rfl

private theorem splitUnquoted_parameterSource {p : String × String} (hp : IsName p.1) :
    Text.splitUnquoted ';' (parameterSource p) =
      (p.1.toList ++ ['=']).foldr Text.consHead (Text.splitUnquoted ';' (valueText p.2.toList)) := by
  rw [Text.splitUnquoted, parameterSource, ← List.singleton_append, ← List.append_assoc]
  apply Text.splitUnquotedFrom_front
  intro c hc
  rcases List.mem_append.mp hc with hc | hc
  · constructor
    · rintro rfl
      exact not_mem_of_isToken hp.token (by decide) hc
    · rintro rfl
      exact not_mem_of_isToken hp.token (by decide) hc
  · rw [List.mem_singleton.mp hc]
    decide

private theorem splitUnquoted_of_not_spills {value : List Char} (h : ¬ Spills value) :
    Text.splitUnquoted ';' (valueText value) = [valueText value] := by
  apply Text.splitUnquotedFrom_eq_singleton
  intro a b hab
  unfold valueText at hab
  split at hab
  · next htoken =>
    exact absurd (by simp [hab]) (not_mem_of_isToken htoken (c := ';') (by decide))
  · -- the semicolon is neither of the quotes around the value
    obtain ⟨a', rfl, hvalue⟩ : ∃ a', a = '"' :: a' ∧ value ++ ['"'] = a' ++ ';' :: b := by
      cases a with
      | nil => simp at hab
      | cons c a' =>
        rw [List.cons_append, List.cons.injEq] at hab
        exact ⟨a', by rw [hab.1], hab.2⟩
    rw [Text.quotedAfter_quote, Bool.not_false, quotedAfter_true, Bool.not_eq_true',
      ← Bool.not_eq_true]
    intro hquoted
    rcases List.eq_nil_or_concat b with rfl | ⟨b', c, rfl⟩
    · have hlast := congrArg List.getLast? hvalue
      simp at hlast
    · rw [List.concat_eq_append, ← List.cons_append, ← List.append_assoc] at hvalue
      exact h ⟨a', b', (List.append_inj' hvalue rfl).1, hquoted⟩

private theorem one_lt_length_of_spills {value : List Char} (h : Spills value) :
    1 < (Text.splitUnquoted ';' (valueText value)).length := by
  have htoken := not_isToken_of_spills h
  obtain ⟨front, back, rfl, hquoted⟩ := h
  have hfront : Text.quotedAfter false ('"' :: front) = false := by
    rw [Text.quotedAfter_quote, Bool.not_false, quotedAfter_true, hquoted, Bool.not_true]
  have htext : valueText (front ++ ';' :: back) = ('"' :: front) ++ ';' :: (back ++ ['"']) := by
    rw [valueText, if_neg htoken]
    simp
  rw [htext, Text.splitUnquoted, Text.splitUnquotedFrom_append (by decide) hfront,
    List.length_append]
  have hbefore := List.length_pos_iff.mpr (Text.splitUnquotedFrom_ne_nil ';' false ('"' :: front))
  have hbehind := List.length_pos_iff.mpr (Text.splitUnquotedFrom_ne_nil ';' false (back ++ ['"']))
  omega

private theorem count_valueText (value : List Char) :
    (valueText value).count ';' = value.count ';' := by
  unfold valueText
  split
  · rfl
  · simp

private theorem not_mem_addParameter {p : String × String} {part : List Char}
    (h : addParameter text m part = .ok m') (hp : p ∉ m.parameters)
    (hpart : part.count ';' < p.2.toList.count ';') : p ∉ m'.parameters := by
  rcases addParameter_ok h with ⟨-, rfl⟩ | ⟨name, raw, hcut, -, -, rfl⟩
  · exact hp
  · intro hmem
    rcases mem_withParameter.mp hmem with ⟨hold, -⟩ | rfl
    · exact hp hold
    · rw [String.toList_ofList] at hpart
      have hvalue := ((unquote_sublist _).trans (Text.trim_sublist raw)).count_le ';'
      have hraw := (Text.trim_sublist part).count_le ';'
      rw [Text.eq_of_cutFirst hcut, List.count_append, List.count_cons] at hraw
      omega

private theorem not_mem_foldlM {p : String × String} {parts : List (List Char)}
    (h : parts.foldlM (addParameter text) m = .ok m') (hp : p ∉ m.parameters)
    (hparts : ∀ part ∈ parts, part.count ';' < p.2.toList.count ';') : p ∉ m'.parameters := by
  induction parts generalizing m with
  | nil =>
    cases h
    exact hp
  | cons part parts ih =>
    rw [List.forall_mem_cons] at hparts
    rw [List.foldlM_cons] at h
    obtain ⟨m₁, hadd, h⟩ := except_bind_ok h
    exact ih h (not_mem_addParameter hadd hp hparts.1) hparts.2

/-- A value that spills is lost: what is read for its name is the piece in front of the semicolon,
and no later piece is long enough. -/
private theorem not_mem_of_spills {p : String × String} (hp : IsName p.1)
    (hspills : Spills p.2.toList)
    (h : (Text.splitUnquoted ';' (parameterSource p)).foldlM (addParameter text) m = .ok m') :
    p ∉ m'.parameters := by
  have hlength := one_lt_length_of_spills hspills
  have hcount (piece : List Char) (hpiece : piece ∈ Text.splitUnquoted ';' (valueText p.2.toList)) :
      piece.count ';' < p.2.toList.count ';' := by
    have hlt := Text.count_lt_of_mem_pieces hpiece hlength
    rwa [count_valueText] at hlt
  rw [splitUnquoted_parameterSource hp] at h
  cases hsplit : Text.splitUnquoted ';' (valueText p.2.toList) with
  | nil =>
    rw [hsplit] at hlength
    cases hlength
  | cons first rest =>
    rw [hsplit, List.forall_mem_cons] at hcount
    rw [hsplit, Text.foldr_consHead, List.foldlM_cons, List.append_assoc, List.singleton_append] at h
    obtain ⟨m₁, hadd, h⟩ := except_bind_ok h
    apply not_mem_foldlM h _ hcount.2
    obtain ⟨value, hvalue, rfl⟩ := addParameter_front hp.token hadd
    rw [String.ofList_toList, mem_withParameter, hp.lower]
    rintro (⟨-, hne⟩ | heq)
    · exact hne rfl
    · have hle := hvalue.count_le ';'
      have hlt := hcount.1
      rw [heq, String.toList_ofList] at hlt
      omega

def withParameters (m : MediaType) (parameters : List (String × String)) : MediaType :=
  parameters.foldl (fun m p => m.withParameter p.1 p.2) m

private theorem withParameters_cons (p : String × String) (parameters : List (String × String)) :
    m.withParameters (p :: parameters) = (m.withParameter p.1 p.2).withParameters parameters := rfl

private theorem withParameters_fresh {parameters : List (String × String)}
    (hparameters : ∀ p ∈ parameters, IsParameter p)
    (hdistinct : ((m.parameters ++ parameters).map (·.1)).Nodup) :
    m.withParameters parameters = { m with parameters := m.parameters ++ parameters } := by
  induction parameters generalizing m with
  | nil => rw [List.append_nil]; rfl
  | cons p parameters ih =>
    rw [List.forall_mem_cons] at hparameters
    have hfresh : m.withParameter p.1 p.2 = { m with parameters := m.parameters ++ [p] } := by
      rw [withParameter, hparameters.1.name.lower, List.filter_eq_self.mpr]
      intro q hq
      rw [bne_iff_ne]
      intro heq
      rw [List.map_append, List.nodup_append] at hdistinct
      exact hdistinct.2.2 q.1 (List.mem_map_of_mem hq) p.1 (by simp) heq
    rw [withParameters_cons, hfresh, ih hparameters.2]
    · simp
    · simpa using hdistinct

private theorem not_mem_withParameters {p : String × String} {parameters : List (String × String)}
    (hp : p ∉ m.parameters) (hparameters : p ∉ parameters)
    (hnames : ∀ q ∈ parameters, IsName q.1) : p ∉ (m.withParameters parameters).parameters := by
  induction parameters generalizing m with
  | nil => exact hp
  | cons q parameters ih =>
    rw [List.forall_mem_cons] at hnames
    rw [List.mem_cons, not_or] at hparameters
    rw [withParameters_cons]
    apply ih _ hparameters.2 hnames.2
    rw [mem_withParameter, hnames.1.lower]
    rintro (⟨hold, -⟩ | rfl)
    · exact hp hold
    · exact hparameters.1 rfl

private theorem foldlM_writtenParts {parameters : List (String × String)}
    (hparameters : ∀ p ∈ parameters, IsParameter p)
    (hspills : ∀ p ∈ parameters, ¬ Spills p.2.toList) :
    (writtenParts parameters).foldlM (addParameter text) m = .ok (m.withParameters parameters) := by
  induction parameters generalizing m with
  | nil => rfl
  | cons p parameters ih =>
    rw [List.forall_mem_cons] at hparameters hspills
    rw [writtenParts, List.flatMap_cons, splitUnquoted_parameterSource hparameters.1.name,
      splitUnquoted_of_not_spills hspills.1, Text.foldr_consHead, List.singleton_append,
      List.foldlM_cons, List.append_assoc, List.singleton_append]
    have hadd : addParameter text m _ = _ := addParameter_parameterSource hparameters.1
    rw [parameterSource] at hadd
    rw [hadd]
    exact ih hparameters.2 hspills.2

private theorem exists_not_mem_of_spills {parameters : List (String × String)}
    (hparameters : ∀ p ∈ parameters, IsParameter p)
    (hdistinct : (parameters.map (·.1)).Nodup)
    (hspills : ∃ p ∈ parameters, Spills p.2.toList)
    (h : (writtenParts parameters).foldlM (addParameter text) m = .ok m') :
    ∃ p ∈ parameters, p ∉ m'.parameters := by
  induction parameters generalizing m with
  | nil =>
    obtain ⟨p, hp, -⟩ := hspills
    cases hp
  | cons q parameters ih =>
    rw [List.forall_mem_cons] at hparameters
    rw [List.map_cons, List.nodup_cons] at hdistinct
    rw [writtenParts, List.flatMap_cons, List.foldlM_append] at h
    obtain ⟨m₁, hq, h⟩ := except_bind_ok h
    by_cases hlater : ∃ p ∈ parameters, Spills p.2.toList
    · obtain ⟨p, hp, hlost⟩ := ih hparameters.2 hdistinct.2 hlater h
      exact ⟨p, List.mem_cons_of_mem q hp, hlost⟩
    · -- the last value that spills: the parameters behind it do not bring it back
      have hlast : Spills q.2.toList := by
        obtain ⟨p, hp, hspills⟩ := hspills
        rcases List.mem_cons.mp hp with rfl | hp
        · exact hspills
        · exact absurd ⟨p, hp, hspills⟩ hlater
      have hrest : (writtenParts parameters).foldlM (addParameter text) m₁ = _ :=
        foldlM_writtenParts hparameters.2 fun p hp hspills => hlater ⟨p, hp, hspills⟩
      have heq : m' = m₁.withParameters parameters := Except.ok.inj (h.symm.trans hrest)
      refine ⟨q, List.mem_cons_self, ?_⟩
      rw [heq]
      exact not_mem_withParameters (not_mem_of_spills hparameters.1.name hlast hq)
        (fun hmem => hdistinct.1 (List.mem_map_of_mem hmem))
        fun p hp => (hparameters.2 p hp).name

private theorem closes_parameterSource {p : String × String} (hp : IsName p.1)
    (h : Closes p.2.toList) : Closes (parameterSource p) := by
  have hname := closes_of_isToken hp.token
  have hvalue : Closes (valueText p.2.toList) := by
    unfold valueText
    split
    · exact h
    · rw [Closes, Text.quotedAfter_quote, Text.quotedAfter_append, Bool.not_false, quotedAfter_true,
        h]
      rfl
  rw [parameterSource, Closes, Text.quotedAfter_append, hname,
    Text.quotedAfter_cons_of_ne (by decide), hvalue]

/-- When the quotes close in all that another parameter follows, the semicolons in front of the
parameters cut. -/
private theorem splitUnquoted_written {s : List Char} {parameters : List (String × String)}
    (hparameters : ∀ p ∈ parameters, IsParameter p) (hs : parameters ≠ [] → Closes s)
    (hvalues : ∀ p ∈ parameters.dropLast, Closes p.2.toList) :
    Text.splitUnquoted ';' (s ++ parameters.flatMap fun p => ';' :: parameterSource p) =
      Text.splitUnquoted ';' s ++ writtenParts parameters := by
  induction parameters generalizing s with
  | nil => simp [writtenParts]
  | cons p parameters ih =>
    rw [List.forall_mem_cons] at hparameters
    rw [List.flatMap_cons, List.cons_append, Text.splitUnquoted,
      Text.splitUnquotedFrom_append (by decide) (hs (List.cons_ne_nil _ _)), writtenParts,
      List.flatMap_cons]
    congr 1
    cases parameters with
    | nil => simp [Text.splitUnquoted]
    | cons q parameters =>
      rw [List.dropLast_cons_cons, List.forall_mem_cons] at hvalues
      exact ih hparameters.2 (fun _ => closes_parameterSource hparameters.1.name hvalues.1) hvalues.2

private theorem parse_render (hm : m.IsRead)
    (hvalues : ∀ p ∈ m.parameters.dropLast, Closes p.2.toList) :
    parse m.render = (writtenParts m.parameters).foldlM (addParameter m.render)
      ⟨m.mainType, m.subtype, []⟩ := by
  have hsemicolon : ';' ∉ m.essenceText := by
    rw [essenceText, List.mem_append, List.mem_cons]
    rintro (h | h | h)
    · exact not_mem_of_isToken hm.mainType.token (by decide) h
    · cases h
    · exact not_mem_of_isToken hm.subtype.token (by decide) h
  have hessence : Text.splitUnquoted ';' m.essenceText = [m.essenceText] := by
    apply Text.splitUnquotedFrom_eq_singleton
    intro a b hab
    exact absurd (by simp [hab]) hsemicolon
  have hcloses : Closes m.essenceText := by
    rw [essenceText, Closes, Text.quotedAfter_append, closes_of_isToken hm.mainType.token,
      Text.quotedAfter_cons_of_ne (by decide), closes_of_isToken hm.subtype.token]
  unfold parse
  rw [hm.tight_render.trim_eq]
  split
  · next hnil => exact absurd hnil hm.tight_render.ne_nil
  · rw [toList_render, splitUnquoted_written hm.parameters (fun _ => hcloses) hvalues, hessence,
      List.singleton_append]
    dsimp only
    rw [essence_essenceText hm]
    rfl

/-- What is read comes back from what is written of it exactly when no value spills. -/
theorem parse_render_iff (h : parse text = .ok m) :
    parse m.render = .ok m ↔ ∀ p ∈ m.parameters, ¬ Spills p.2.toList := by
  obtain ⟨hm, hvalues⟩ := isRead_of_parse h
  rw [parse_render hm hvalues]
  constructor
  · intro hback p hp hspills
    obtain ⟨q, hq, hlost⟩ :=
      exists_not_mem_of_spills hm.parameters hm.distinct ⟨p, hp, hspills⟩ hback
    exact hlost hq
  · intro hspills
    have hall := withParameters_fresh (m := ⟨m.mainType, m.subtype, []⟩) hm.parameters hm.distinct
    rw [foldlM_writtenParts hm.parameters hspills, hall]
    rfl

theorem parse_render_iff_quoted :
    parse "Text/HTML ; A=\"x;y \"; q=.5;b=u\"v\"" =
        .ok ⟨"text", "html", [("a", "x;y "), ("q", ".5"), ("b", "u\"v\"")]⟩ ∧
      (parse (render ⟨"text", "html", [("a", "x;y "), ("q", ".5"), ("b", "u\"v\"")]⟩) =
          .ok ⟨"text", "html", [("a", "x;y "), ("q", ".5"), ("b", "u\"v\"")]⟩ ↔
        ∀ p ∈ [("a", "x;y "), ("q", ".5"), ("b", "u\"v\"")], ¬ Spills p.2.toList) := by
  have h : parse "Text/HTML ; A=\"x;y \"; q=.5;b=u\"v\"" =
      .ok ⟨"text", "html", [("a", "x;y "), ("q", ".5"), ("b", "u\"v\"")]⟩ := by rfl
  exact ⟨h, parse_render_iff h⟩

/-- A value with quotes of its own around a semicolon is written in quotes that these end. -/
theorem parse_render_spilled :
    parse "text/plain;x=a\"b;c\"d" = .ok ⟨"text", "plain", [("x", "a\"b;c\"d")]⟩ ∧
      render ⟨"text", "plain", [("x", "a\"b;c\"d")]⟩ = "text/plain;x=\"a\"b;c\"d\"" ∧
      parse "text/plain;x=\"a\"b;c\"d\"" =
        .error (.badParameter "text/plain;x=\"a\"b;c\"d\"") := by
  refine ⟨?_, ?_, ?_⟩ <;> rfl

end MediaType

end Switchyard
