import Switchyard.Proofs.Pattern.Matching
import Switchyard.Regex.Captures
/-!
# What patterns note

While the pieces of a pattern take up a text, those of variables note what they took. What a search
finds is what they note of a whole path (`rowGives_of_search`).
-/

namespace Switchyard

namespace Pattern

variable {s a : List Char} {i j : Nat} {g h : Groups} {row : List Piece}

/-- What a piece notes of the text that it takes up. -/
def Piece.note : Piece → List Char → Groups → Groups
  | token (.variable name _), a, g => g.put name a
  | _, _, g => g

/-- The texts that a row of pieces takes up, with what is noted in front of it and behind. -/
def RowGives : List Piece → List Char → Groups → Groups → Prop
  | [], a, g, h => a = [] ∧ h = g
  | p :: row, a, g, h => ∃ b c, a = b ++ c ∧ p.Takes b ∧ RowGives row c (p.note b g) h

section

open Regex

private theorem between_of_between (hij : Between s i j a) :
    (Subject.ofText s).between i j = a := by
  obtain ⟨⟨rest, hrest⟩, rfl⟩ := hij
  simp [Subject.between, Subject.ofText, ← hrest]

private theorem catches_node {p : Piece} (hp : p.isInner)
    (hcatches : Catches (.ofText s) p.node (i, g) (j, h)) :
    ∃ a, p.Takes a ∧ Between s i j a ∧ h = p.note a g := by
  obtain ⟨a, ha, hij⟩ := (spans_node_iff hp).mp hcatches.spans
  refine ⟨a, ha, hij, ?_⟩
  cases p with
  | token t =>
    cases t with
    | «variable» name custom =>
      obtain ⟨⟨m, h'⟩, hbody, heq⟩ := hcatches
      cases heq
      have hnote := hbody.groups_eq rfl
      rw [between_of_between hij, hnote]
      rfl
    | _ => exact hcatches.groups_eq rfl
  | _ => exact hcatches.groups_eq rfl

/-- Inner pieces up to the end of a text note what they take up of it. -/
private theorem rowGives_of_catches (hrow : ∀ p ∈ row, p.isInner) (hi : i ≤ s.length)
    (hcatches : Catches (.ofText s) (seqs ((row ++ [Piece.stop]).map Piece.node)) (i, g) (j, h)) :
    RowGives row (s.drop i) g h := by
  induction row generalizing i g with
  | nil =>
    obtain ⟨hend, heq⟩ := hcatches
    have hnone : s[i]? = none := by
      simpa [Assertion.holds, Subject.next?, Subject.ofText] using hend
    rw [List.getElem?_eq_none_iff] at hnone
    exact ⟨List.drop_eq_nil_of_le hnone, congrArg Prod.snd heq⟩
  | cons p row ih =>
    rw [List.forall_mem_cons] at hrow
    rw [List.cons_append, List.map_cons, catches_seqs_cons] at hcatches
    obtain ⟨⟨k, g'⟩, hp, hrest⟩ := hcatches
    obtain ⟨b, hb, hik, rfl⟩ := catches_node hrow.1 hp
    have hrest := ih hrow.2 (hik.le hi) hrest
    obtain ⟨⟨c, hc⟩, rfl⟩ := hik
    have hdrop : s.drop (i + b.length) = c := by
      rw [← List.drop_drop, ← hc, List.drop_left]
    rw [hdrop] at hrest
    exact ⟨b, c, hc.symm, hb, hrest⟩

/-- Between the ends of a text, inner pieces note what they take up of all of it. -/
theorem rowGives_of_search (hrow : ∀ p ∈ row, p.isInner)
    (hsearch : (seqs ((Piece.start :: (row ++ [Piece.stop])).map Piece.node)).search s = some g) :
    RowGives row s [] g := by
  obtain ⟨i, j, hi, hcatches⟩ := catches_of_search hsearch
  rw [List.map_cons, catches_seqs_cons] at hcatches
  obtain ⟨m, ⟨hstart, rfl⟩, hrest⟩ := hcatches
  have hzero : i = 0 := by
    cases i with
    | zero => rfl
    | succ i =>
      have hnone : s[i]? = none := by
        simpa [Assertion.holds, Subject.last?, Subject.ofText] using hstart
      rw [List.getElem?_eq_none_iff] at hnone
      omega
  subst hzero
  exact rowGives_of_catches hrow hi hrest

end

theorem get?_of_rowGives {name : String}
    (hrow : ∀ p ∈ row, ∀ b g, (p.note b g).get? name = g.get? name)
    (hgives : RowGives row a g h) : h.get? name = g.get? name := by
  induction row generalizing a g with
  | nil => rw [hgives.2]
  | cons p row ih =>
    rw [List.forall_mem_cons] at hrow
    obtain ⟨b, c, -, -, hrest⟩ := hgives
    rw [ih hrow.2 hrest, hrow.1]

end Pattern

end Switchyard
