import Switchyard.Text.Cut
import Switchyard.Text.Ascii
/-!
# Headers

Headers in their order, looked up by name in any letter case.
-/

namespace Switchyard

/-- Names and values in order; a name may occur more than once. -/
abbrev Headers := List (String × String)

namespace Headers

def get? (h : Headers) (name : String) : Option String :=
  (h.find? fun p => Text.sameFold p.1 name).map (·.2)

def getAll (h : Headers) (name : String) : List String :=
  (h.filter fun p => Text.sameFold p.1 name).map (·.2)

def has (h : Headers) (name : String) : Bool := (h.get? name).isSome

/-- Replaces all values of a name by one, which comes last. -/
def set (h : Headers) (name value : String) : Headers :=
  h.filter (fun p => !Text.sameFold p.1 name) ++ [(name, value)]

theorem get?_set (h : Headers) (name value other : String) :
    (h.set name value).get? other =
      if Text.sameFold name other then some value else h.get? other := by
  rw [get?, set, List.find?_append, List.find?_filter]
  by_cases hname : Text.sameFold name other
  · have hnone : List.find? (fun p : String × String =>
        !Text.sameFold p.1 name && Text.sameFold p.1 other) h = none := by
      rw [List.find?_eq_none]
      intro p _
      simp only [Text.sameFold, beq_iff_eq] at hname ⊢
      simp [hname]
    simp [hname, hnone]
  · have hsame : (fun p : String × String =>
        !Text.sameFold p.1 name && Text.sameFold p.1 other) =
          fun p => Text.sameFold p.1 other := by
      funext p
      by_cases hother : Text.sameFold p.1 other
      · simp only [Text.sameFold, beq_iff_eq] at hname hother
        simp [Text.sameFold, hother, Ne.symm hname]
      · simp [hother]
    simp [hname, hsame, get?]

/-- Adds the values that are not there yet, in any letter case, one by one. -/
def mergeValues (present : List String) (values : List String) : List String :=
  values.foldl
    (fun merged v => if merged.any fun m => Text.sameFold m v then merged else merged ++ [v]) present

/-- Adds values to the comma-separated list of a header, those that it has already left out. -/
def addValues (h : Headers) (name : String) (values : List String) : Headers :=
  let present := ((h.get? name).map (Text.listItems ',')).getD []
  h.set name (Text.joinWith ", " (mergeValues present values))

end Headers

end Switchyard
