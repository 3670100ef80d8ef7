import Switchyard.Http.Response
import Switchyard.Proofs.Http.Headers
/-!
# Responses under updates

The headers of a response are a map from names in any letter case, whatever was set and added before
(`Response.headers_map`): names stay distinct, what is set is found again, and what is added to a list
follows the items that it had.
-/

namespace Switchyard

namespace Response

/-- An update of the headers of a response. -/
inductive Update where
  | set (name value : String)
  | add (name : String) (values : List String)

def Update.apply (r : Response) : Update → Response
  | set name value => r.setHeader name value
  | add name values => r.addHeaderValues name values

/-- The response after updates one after the other. -/
def updated (r : Response) (updates : List Update) : Response := updates.foldl Update.apply r

/-- The responses to begin with: an untouched one, one with a body, one that reports an error. -/
inductive IsFresh : Response → Prop where
  | untouched : IsFresh {}
  | json (status : Nat) (body : Value) : IsFresh (.json status body)
  | error (status : Nat) (message : String) : IsFresh (.error status message)

def Update.name : Update → String
  | set name _ => name
  | add name _ => name

variable {r : Response} {u : Update}

theorem IsFresh.distinct (h : r.IsFresh) : r.headers.Distinct := by
  cases h with
  | untouched => exact .nil
  | json | error => exact List.pairwise_singleton _ _

private theorem Update.exists_set (u : Update) (r : Response) :
    ∃ value, (u.apply r).headers = r.headers.set u.name value := by
  cases u with
  | set name value => exact ⟨value, rfl⟩
  | add name values => exact ⟨_, rfl⟩

private theorem distinct_apply (h : r.headers.Distinct) (u : Update) :
    (u.apply r).headers.Distinct := by
  obtain ⟨value, hset⟩ := u.exists_set r
  rw [hset]
  exact h.set u.name value

private theorem distinct_updated (h : r.headers.Distinct) (updates : List Update) :
    (r.updated updates).headers.Distinct := by
  induction updates generalizing r with
  | nil => exact h
  | cons u updates ih => exact ih (distinct_apply h u)

private theorem others_apply (u : Update) (r : Response) :
    (u.apply r).headers.filter (fun p => !Text.sameFold p.1 u.name) =
      r.headers.filter fun p => !Text.sameFold p.1 u.name := by
  obtain ⟨value, hset⟩ := u.exists_set r
  rw [hset]
  exact Headers.filter_set (fun n => !Text.sameFold n u.name) fun n hn => by simp [hn]

/-- Whatever was set and added before, the names of headers are distinct, what is set is found under
its name in any letter case, and an update leaves the other headers alone. Values that are added follow
the items that the header lists, those left out that are there in any letter case. -/
theorem headers_map (hfresh : r.IsFresh) (updates : List Update) :
    let s := r.updated updates
    s.headers.Distinct ∧
    (∀ name value other, Text.sameFold name other →
      (s.setHeader name value).header? other = some value) ∧
    (∀ name values, (∀ value ∈ values, Text.IsItem ',' value.toList) →
      (∀ other, Text.sameFold name other →
        (s.addHeaderValues name values).headers.items other = s.headers.items name ++
          (values.filter fun value => !(s.headers.items name).any (Text.sameFold · value)).eraseDupsBy
            Text.sameFold) ∧
      (s.addHeaderValues name values).addHeaderValues name values =
        s.addHeaderValues name values) ∧
    ∀ u : Update, (u.apply s).headers.filter (fun p => !Text.sameFold p.1 u.name) =
      s.headers.filter fun p => !Text.sameFold p.1 u.name := by
  intro s
  refine ⟨distinct_updated hfresh.distinct updates, ?_, ?_, fun u => others_apply u s⟩
  · intro name value other hother
    rw [header?_setHeader, if_pos hother]
  · intro name values hvalues
    constructor
    · intro other hother
      have hsymm : ∀ x y, Text.sameFold x y = Text.sameFold y x := fun _ _ => Bool.beq_comm
      rw [← keepNew_eq_append hsymm]
      exact Headers.items_addValues hvalues hother
    · exact congrArg (fun headers => { s with headers }) (Headers.addValues_addValues hvalues)

/-- A list that came without blanks, and one more value in another spelling of the name. -/
theorem headers_map_vary :
    let s := ({} : Response).updated [.set "Vary" "Accept,,Cookie", .set "etag" "1"]
    ({} : Response).IsFresh ∧
      (∀ value ∈ ["Origin", "cookie", "origin"], Text.IsItem ',' value.toList) ∧
      (s.addHeaderValues "VARY" ["Origin", "cookie", "origin"]).headers.items "vary" =
        ["Accept", "Cookie", "Origin"] := by
  intro s
  have hvalues : ∀ value ∈ ["Origin", "cookie", "origin"], Text.IsItem ',' value.toList := by decide
  obtain ⟨-, -, hadd, -⟩ := headers_map .untouched [.set "Vary" "Accept,,Cookie", .set "etag" "1"]
  refine ⟨.untouched, hvalues, ((hadd "VARY" _ hvalues).1 "vary" (by decide)).trans ?_⟩
  have hitems : s.headers.items "VARY" = ["Accept", "Cookie"] := by decide +kernel
  rw [hitems]
  decide

end Response

end Switchyard
