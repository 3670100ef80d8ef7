import Switchyard.Cors.Policy
import Switchyard.Proofs.Pattern.Writing
import Switchyard.Proofs.Regex.Folding
/-!
# Origin patterns as globs

The expression that an origin pattern is written out to can always be read, and among ASCII texts it
stands for the pieces of the pattern between stars, each in either letter case, with any text in the
place of a star. A policy that has nothing else to go by allows exactly these origins
(`CorsPolicy.checkOrigin_fits`); without a star they are those that it would allow if the pattern was
listed as an origin.
-/

namespace Switchyard

namespace OriginPattern

open Regex Text

variable {raw s rest : List Char} {text origin : String} {pattern : OriginPattern}
  {fault : CorsFault}

/-- The written form of a character of a pattern. -/
def written (c : Char) : List Char := if c = '*' then ['.', '*'] else escape [c]

/-- What is read of the written form of a character. -/
def node (c : Char) : Regex :=
  if c = '*' then .star true (.set Pattern.nonLineFeed) else .set (CharSet.singleton c).foldClosure

/-- What is read of the written form of a pattern. -/
def expression (raw : List Char) : Regex :=
  seqs (.assert .textStart :: (raw.map node ++ [.assert .textEnd]))

private theorem intercalate_append {sep front piece : List Char} {pieces : List (List Char)} :
    sep.intercalate ((front ++ piece) :: pieces) = front ++ sep.intercalate (piece :: pieces) := by
  cases pieces <;> simp [List.intercalate_cons_cons]

theorem intercalate_splitOn (raw : List Char) :
    ".*".toList.intercalate ((raw.splitOn '*').map escape) = raw.flatMap written := by
  induction raw with
  | nil => rfl
  | cons c raw ih =>
    obtain ⟨piece, pieces, hpieces⟩ : ∃ piece pieces, raw.splitOn '*' = piece :: pieces :=
      List.exists_cons_of_ne_nil (List.splitOn_ne_nil '*' raw)
    rw [hpieces, List.map_cons] at ih
    rw [List.splitOn_cons_eq_if_modifyHead, hpieces, List.flatMap_cons, ← ih]
    by_cases hstar : c = '*'
    · subst hstar
      rw [if_pos (beq_self_eq_true _), List.map_cons, List.map_cons, List.intercalate_cons_cons]
      rfl
    · have hescape : escape (c :: piece) = written c ++ escape piece := by
        rw [written, if_neg hstar, escape, escape, escape, List.flatMap_cons,
          List.flatMap_singleton]
      rw [if_neg (by simpa using hstar), List.modifyHead_cons, List.map_cons, hescape,
        intercalate_append]

private theorem source_eq (raw : List Char) :
    source raw = '(' :: '?' :: 'i' :: ')' :: '^' :: (raw.flatMap written ++ ['$']) := by
  rw [← intercalate_splitOn]
  rfl

private theorem head?_written (c : Char) : (written c).head? ≠ some '?' := by
  unfold written
  split
  · decide
  · exact Pattern.head?_source (.token (.literal c))

private theorem reads_written (c : Char) (hrest : rest.head? ≠ some '?') :
    Reads .folding (written c ++ rest) [node c] .folding rest := by
  have hsimple := Reader.isSimple_folding
  unfold written node
  split
  · exact (Pattern.reads_dot hsimple ('*' :: rest)).star hsimple rfl hrest
  · exact reads_escape hsimple rfl rest

theorem reads_row (raw : List Char) : Reads .folding (raw.flatMap written ++ ['$'])
    (raw.map node ++ [.assert .textEnd]) .folding [] := by
  induction raw with
  | nil => exact reads_dollar Reader.isSimple_folding []
  | cons c raw ih =>
    rw [List.flatMap_cons, List.append_assoc]
    exact (reads_written c (head?_flatMap_append_ne head?_written raw (by decide))).append ih

/-- The written form of a pattern is read as the expressions of its characters, unless these take
too much room. -/
theorem parse_source (raw : List Char) : Regex.parse (source raw) =
    if (expression raw).size ≤ sizeLimit then .ok (expression raw) else .error .tooLarge := by
  rw [source_eq]
  exact parse_of_reads_folding
    ((reads_caret Reader.isSimple_folding _).append (reads_row raw))

/-- A text consists of pieces, each in either case of its ASCII letters, with any text between one
and the next. -/
def Fits : List (List Char) → List Char → Prop
  | [], _ => False
  | [piece], s => s.map Char.toLower = piece.map Char.toLower
  | piece :: pieces, s => ∃ front fill back, s = front ++ (fill ++ back) ∧
      front.map Char.toLower = piece.map Char.toLower ∧ Fits pieces back

private theorem fits_nil_cons {piece s : List Char} {pieces : List (List Char)} :
    Fits ([] :: piece :: pieces) s ↔ ∃ fill back, s = fill ++ back ∧ Fits (piece :: pieces) back := by
  constructor
  · intro h
    obtain ⟨front, fill, back, rfl, hfront, hback⟩ := h
    obtain rfl : front = [] := by simpa using hfront
    exact ⟨fill, back, rfl, hback⟩
  · intro h
    obtain ⟨fill, back, rfl, hback⟩ := h
    exact ⟨[], fill, back, rfl, rfl, hback⟩

private theorem fits_cons_cons {p : Char} {piece s : List Char} {pieces : List (List Char)} :
    Fits ((p :: piece) :: pieces) s ↔
      ∃ c rest, s = c :: rest ∧ c.toLower = p.toLower ∧ Fits (piece :: pieces) rest := by
  cases pieces with
  | nil =>
    cases s with
    | nil => simp [Fits]
    | cons c s => simp [Fits, and_assoc]
  | cons piece' pieces =>
    constructor
    · intro h
      obtain ⟨front, fill, back, rfl, hfront, hback⟩ := h
      cases front with
      | nil => cases hfront
      | cons c front =>
        rw [List.map_cons, List.map_cons, List.cons.injEq] at hfront
        exact ⟨c, _, rfl, hfront.1, front, fill, back, rfl, hfront.2, hback⟩
    · intro h
      obtain ⟨c, _, rfl, hc, front, fill, back, rfl, hfront, hback⟩ := h
      exact ⟨c :: front, fill, back, rfl, by simp [hc, hfront], hback⟩

/-- The texts that a character of a pattern takes up. -/
def Takes (c : Char) (a : List Char) : Prop :=
  if c = '*' then '\n' ∉ a else ∃ d, a = [d] ∧ d.toLower = c.toLower

theorem spans_node_iff {c : Char} (hc : c.toNat < 0x80) (hs : IsAscii s) {i j : Nat} :
    Spans (.ofText s) (node c) i j ↔ ∃ a, Takes c a ∧ Between s i j a := by
  unfold node Takes
  split
  · exact Pattern.many_nonLineFeed_iff
  · have hmem {d : Char} (h : Between s i j [d]) : d.toNat < 0x80 :=
      hs d (List.mem_of_getElem? (between_singleton.mp h).1)
    rw [spans_set_iff]
    constructor
    · intro h
      obtain ⟨d, hd, hij⟩ := h
      exact ⟨[d], ⟨d, rfl, (CharSet.foldClosure_singleton_contains hc (hmem hij)).mp hd⟩, hij⟩
    · intro h
      obtain ⟨_, ⟨d, rfl, hd⟩, hij⟩ := h
      exact ⟨d, (CharSet.foldClosure_singleton_contains hc (hmem hij)).mpr hd, hij⟩

/-- A star takes up no line feeds, so a text must have none unless the pattern has no stars. -/
private theorem spans_nodes_iff (hraw : IsAscii raw) (hs : IsAscii s) (hline : '*' ∈ raw → '\n' ∉ s)
    {i j : Nat} (hi : i ≤ s.length) :
    Spans (.ofText s) (seqs (raw.map node ++ [.assert .textEnd])) i j ↔
      Fits (raw.splitOn '*') (s.drop i) ∧ j = s.length := by
  induction raw generalizing i with
  | nil => simpa [Fits, seqs] using spans_textEnd_iff hi
  | cons c raw ih =>
    obtain ⟨piece, pieces, hpieces⟩ : ∃ piece pieces, raw.splitOn '*' = piece :: pieces :=
      List.exists_cons_of_ne_nil (List.splitOn_ne_nil '*' raw)
    rw [hpieces] at ih
    rw [List.splitOn_cons_eq_if_modifyHead, hpieces, List.map_cons, List.cons_append]
    rw [spans_seqs_cons_iff hi (fun _ => spans_node_iff (hraw c List.mem_cons_self) hs) fun _ hk =>
      ih (hraw.sublist (List.sublist_cons_self c raw)) (fun h => hline (List.mem_cons_of_mem c h)) hk]
    refine and_congr_left fun _ => ?_
    by_cases hstar : c = '*'
    · subst hstar
      have hfeed : '\n' ∉ s.drop i := fun h => hline List.mem_cons_self (List.mem_of_mem_drop h)
      rw [if_pos (beq_self_eq_true _), fits_nil_cons]
      constructor
      · intro h
        obtain ⟨fill, back, hdrop, -, hback⟩ := h
        exact ⟨fill, back, hdrop, hback⟩
      · intro h
        obtain ⟨fill, back, hdrop, hback⟩ := h
        rw [hdrop, List.mem_append, not_or] at hfeed
        exact ⟨fill, back, hdrop, hfeed.1, hback⟩
    · rw [if_neg (by simpa using hstar), List.modifyHead_cons, fits_cons_cons]
      simp only [Takes, if_neg hstar]
      constructor
      · intro h
        obtain ⟨_, rest, hdrop, ⟨d, rfl, hd⟩, hrest⟩ := h
        exact ⟨d, rest, hdrop, hd, hrest⟩
      · intro h
        obtain ⟨d, rest, hdrop, hd, hrest⟩ := h
        exact ⟨[d], rest, hdrop, ⟨d, rfl, hd⟩, hrest⟩

private theorem isMatch_expression_iff (hraw : IsAscii raw) (hs : IsAscii s)
    (hline : '*' ∈ raw → '\n' ∉ s) :
    (expression raw).isMatch s ↔ Fits (raw.splitOn '*') s :=
  isMatch_anchored_iff fun _ _ => spans_nodes_iff hraw hs hline

private theorem size_seqs_cons (r : Regex) (rs : List Regex) :
    (seqs (r :: rs)).size = r.size + (seqs rs).size := by
  cases rs <;> rfl

private theorem size_node_le {c : Char} (hc : c.toNat < 0x80) : (node c).size ≤ 720 := by
  have hlength := CharSet.length_foldClosure_singleton hc
  unfold node
  split
  · decide
  · rw [Regex.size]
    split <;> omega

private theorem size_expression_le (hraw : IsAscii raw) :
    (expression raw).size ≤ 64 + 720 * raw.length := by
  have hnodes : (seqs (raw.map node ++ [.assert .textEnd])).size ≤ 32 + 720 * raw.length := by
    induction raw with
    | nil => exact Nat.le_refl 32
    | cons c raw ih =>
      have hc := size_node_le (hraw c List.mem_cons_self)
      have hrest := ih (hraw.sublist (List.sublist_cons_self c raw))
      rw [List.map_cons, List.cons_append, size_seqs_cons, List.length_cons]
      omega
  have hstart : (Regex.assert .textStart).size = 32 := rfl
  rw [expression, size_seqs_cons]
  omega

private theorem compile_eq_ok_iff {raw : String} :
    compile raw = .ok pattern ↔ pattern.raw = raw := by
  unfold compile
  constructor
  · intro h
    split at h
    · rw [← Except.ok.inj h]
    · cases h
  · intro h
    subst h
    split
    · exact congrArg Except.ok (eq_of_raw rfl)
    · next hparse =>
      rw [pattern.compiles] at hparse
      cases hparse

private theorem compile_eq_error {raw : String} {fault : Fault} (h : compile raw = .error fault) :
    fault = .tooLarge ∧ sizeLimit < (expression raw.toList).size := by
  unfold compile at h
  split at h
  · cases h
  · next hparse =>
    rw [parse_source] at hparse
    split at hparse
    · cases hparse
    · next hsize =>
      cases hparse
      exact ⟨(Except.error.inj h).symm, Nat.lt_of_not_le hsize⟩

private theorem regex_eq (pattern : OriginPattern) :
    pattern.regex = expression pattern.raw.toList := by
  have h := pattern.compiles
  rw [parse_source] at h
  split at h
  · exact (Except.ok.inj h).symm
  · cases h

private theorem bare_sublist (s : List Char) : (withoutSlashes (trim s)).Sublist s :=
  (dropEndWhile_sublist _ _).trans (trim_sublist s)

private theorem isAscii_bare {s : List Char} (hs : IsAscii s) : IsAscii (withoutSlashes (trim s)) :=
  hs.sublist (bare_sublist s)

private theorem raw_of_parse (h : OriginPattern.parse text = .ok pattern) :
    pattern.raw.toList = withoutSlashes (trim text.toList) := by
  unfold OriginPattern.parse at h
  cases hcompile : compile (String.ofList (withoutSlashes (trim text.toList))) with
  | error fault =>
    rw [hcompile] at h
    cases h
  | ok compiled =>
    rw [hcompile] at h
    cases h
    rw [compile_eq_ok_iff.mp hcompile, String.toList_ofList]

private theorem parse_eq_error (htext : IsAscii text.toList)
    (h : OriginPattern.parse text = .error fault) :
    fault = .badOriginPattern text Fault.tooLarge.message ∧ 14000 < text.toList.length := by
  unfold OriginPattern.parse at h
  cases hcompile : compile (String.ofList (withoutSlashes (trim text.toList))) with
  | ok compiled =>
    rw [hcompile] at h
    cases h
  | error fault =>
    rw [hcompile] at h
    cases h
    obtain ⟨rfl, hsize⟩ := compile_eq_error hcompile
    rw [String.toList_ofList] at hsize
    have hroom := size_expression_le (isAscii_bare htext)
    have hlength := (bare_sublist text.toList).length_le
    have hlimit : sizeLimit = 10485760 := rfl
    exact ⟨rfl, by omega⟩

theorem exists_parse (text : String) (htext : IsAscii text.toList)
    (hlength : text.toList.length ≤ 14000) : ∃ pattern, OriginPattern.parse text = .ok pattern := by
  cases h : OriginPattern.parse text with
  | ok pattern => exact ⟨pattern, rfl⟩
  | error fault => exact absurd (parse_eq_error htext h).2 (Nat.not_lt.mpr hlength)

theorem isMatch_iff_fits (hparse : OriginPattern.parse text = .ok pattern)
    (htext : IsAscii text.toList) (horigin : IsAscii origin.toList)
    (hline : '*' ∈ text.toList → '\n' ∉ origin.toList) :
    pattern.isMatch (withoutSlashes (trim origin.toList)) ↔
      Fits ((withoutSlashes (trim text.toList)).splitOn '*')
        (withoutSlashes (trim origin.toList)) := by
  rw [OriginPattern.isMatch, regex_eq, raw_of_parse hparse]
  exact isMatch_expression_iff (isAscii_bare htext) (isAscii_bare horigin) fun hstar hfeed =>
    hline ((bare_sublist _).subset hstar) ((bare_sublist _).subset hfeed)

end OriginPattern

namespace CorsPolicy

open OriginPattern Text

variable {p q : CorsPolicy} {pattern : OriginPattern} {text origin : String}

theorem checkOrigin_of_pattern (horigins : p.allowedOrigins.getD [] = [])
    (hpatterns : p.allowedOriginPatterns = some [pattern]) : p.checkOrigin origin =
      if trim origin.toList ≠ [] ∧ pattern.isMatch (withoutSlashes (trim origin.toList)) then
        some (trimmed origin)
      else none := by
  by_cases hempty : trim origin.toList = []
  · simp [checkOrigin, hempty]
  · simp [checkOrigin, hempty, horigins, hpatterns, trimmed]

private theorem checkOrigin_of_listed (horigins : q.allowedOrigins = some [text])
    (hpatterns : q.allowedOriginPatterns.getD [] = []) (hstar : text ≠ wildcard) :
    q.checkOrigin origin =
      if trim origin.toList ≠ [] ∧ (withoutSlashes (trim origin.toList)).map Char.toLower =
        (withoutSlashes text.toList).map Char.toLower then some (trimmed origin)
      else none := by
  by_cases hempty : trim origin.toList = []
  · simp [checkOrigin, hempty]
  · have hlisted : Text.sameFold (String.ofList (withoutSlashes text.toList))
        (String.ofList (withoutSlashes (trim origin.toList))) ↔
        (withoutSlashes (trim origin.toList)).map Char.toLower =
          (withoutSlashes text.toList).map Char.toLower := by
      rw [sameFold, beq_iff_eq, lower, lower, String.ofList_inj, String.toList_ofList,
        String.toList_ofList, eq_comm]
    simp [checkOrigin, hempty, horigins, hpatterns, hstar.symm, hlisted, trimmed]

/-- A pattern of ASCII characters compiles unless it is very long. A policy with it as its only
source of origins allows the ASCII origins that fit the pattern, and answers with the origin itself.
A pattern without stars counts as the origin that it spells. -/
theorem checkOrigin_fits (htext : IsAscii text.toList) :
    (∀ fault, OriginPattern.parse text = .error fault →
      fault = .badOriginPattern text Regex.Fault.tooLarge.message ∧ 14000 < text.toList.length) ∧
    ∀ pattern, OriginPattern.parse text = .ok pattern → ∀ p : CorsPolicy,
      p.allowedOrigins.getD [] = [] → p.allowedOriginPatterns = some [pattern] →
        (∀ origin : String, IsAscii origin.toList → '\n' ∉ origin.toList →
          ((p.checkOrigin origin).isSome ↔ trim origin.toList ≠ [] ∧
            Fits ((withoutSlashes (trim text.toList)).splitOn '*')
              (withoutSlashes (trim origin.toList)))) ∧
        (∀ origin answer, p.checkOrigin origin = some answer → answer = trimmed origin) ∧
        ('*' ∉ text.toList → trim text.toList = text.toList → ∀ q : CorsPolicy,
          q.allowedOrigins = some [text] → q.allowedOriginPatterns.getD [] = [] →
            ∀ origin : String, IsAscii origin.toList →
              p.checkOrigin origin = q.checkOrigin origin) := by
  constructor
  · intro fault hfault
    exact parse_eq_error htext hfault
  · intro pattern hparse p horigins hpatterns
    refine ⟨?_, ?_, ?_⟩
    · intro origin horigin hline
      rw [checkOrigin_of_pattern horigins hpatterns,
        ← isMatch_iff_fits hparse htext horigin fun _ => hline]
      split <;> simp_all
    · intro origin answer hanswer
      rw [checkOrigin_of_pattern horigins hpatterns] at hanswer
      split at hanswer
      · exact (Option.some.inj hanswer).symm
      · cases hanswer
    · intro hstar htrim q hlisted hnone origin horigin
      have hwild : text ≠ wildcard := by
        intro h
        subst h
        exact hstar (by decide)
      have hbare : '*' ∉ withoutSlashes text.toList := fun h =>
        hstar ((dropEndWhile_sublist _ _).subset h)
      have hcut : (withoutSlashes text.toList).splitOn '*' = [withoutSlashes text.toList] :=
        List.splitOn_eq_singleton hbare
      have hmatch := isMatch_iff_fits hparse htext horigin fun h => absurd h hstar
      rw [htrim, hcut] at hmatch
      simp only [checkOrigin_of_pattern horigins hpatterns,
        checkOrigin_of_listed hlisted hnone hwild, hmatch, Fits]

/-- The policy that has nothing but a pattern to go by. -/
def ofPattern (pattern : OriginPattern) : CorsPolicy := { allowedOriginPatterns := some [pattern] }

def ofOrigin (origin : String) : CorsPolicy := { allowedOrigins := some [origin] }

theorem checkOrigin_fits_shops :
    (∃ shops, OriginPattern.parse "https://*.shop.example/" = .ok shops ∧
      (ofPattern shops).checkOrigin " https://EU.shop.example" = some "https://EU.shop.example" ∧
      (ofPattern shops).checkOrigin "https://eu.shop.example.org" = none) ∧
    ∃ shop, OriginPattern.parse "https://shop.example" = .ok shop ∧
      (ofPattern shop).checkOrigin "HTTPS://shop.example/" =
        (ofOrigin "https://shop.example").checkOrigin "HTTPS://shop.example/" := by
  obtain ⟨shops, hshops⟩ := exists_parse "https://*.shop.example/" (by decide) (by decide)
  obtain ⟨shop, hshop⟩ := exists_parse "https://shop.example" (by decide) (by decide)
  obtain ⟨hfits, hanswer, -⟩ :=
    (checkOrigin_fits (by decide)).2 shops hshops (ofPattern shops) rfl rfl
  obtain ⟨-, -, hlisted⟩ := (checkOrigin_fits (by decide)).2 shop hshop (ofPattern shop) rfl rfl
  refine ⟨⟨shops, hshops, ?_, ?_⟩, shop, hshop, ?_⟩
  · have hpieces : Fits ["https://".toList, ".shop.example".toList]
        "https://EU.shop.example".toList :=
      ⟨"https://".toList, "EU".toList, ".shop.example".toList, by decide, by decide,
        show List.map _ _ = _ by decide⟩
    have hsome := (hfits " https://EU.shop.example" (by decide) (by decide)).mpr
      ⟨by decide, hpieces⟩
    obtain ⟨answer, h⟩ := Option.isSome_iff_exists.mp hsome
    rw [h, hanswer _ _ h]
    decide
  · rw [← Option.not_isSome_iff_eq_none, hfits _ (by decide) (by decide)]
    intro h
    obtain ⟨-, front, fill, back, horigin, -, hback⟩ := h
    have hback : back.map Char.toLower = ".shop.example".toList := hback
    have hlength : back.length = 13 := by simpa using congrArg List.length hback
    have hsuffix : back <:+ "https://eu.shop.example.org".toList :=
      ⟨front ++ fill, by rw [List.append_assoc, ← horigin]; decide⟩
    rw [List.suffix_iff_eq_drop.mp hsuffix, hlength] at hback
    exact absurd hback (by decide)
  · exact hlisted (by decide) (by decide) _ rfl rfl _ (by decide)

end CorsPolicy

end Switchyard
