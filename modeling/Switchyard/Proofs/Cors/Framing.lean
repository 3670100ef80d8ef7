import Switchyard.Proofs.Cors.Announcing
import Switchyard.Proofs.Cors.Credentials
import Switchyard.Proofs.Cors.Union
import Switchyard.Proofs.Http.Headers
/-!
# What the processor refuses and changes

When a request is refused, and for which of its parts, and what a decision does to the response: a
refusal leaves the headers alone, an acceptance status and body, and of the headers it changes `Vary`
and its own answers only (`Cors.process_frames`).
-/

namespace Switchyard.Cors

variable {policy : CorsPolicy} {req : Request} {o answer : String} {res : Response}

/-- Why a policy refuses a request from another origin: for the origin; for the method, which a
pre-flight request names in a header; or for a header that a pre-flight request asks for. -/
inductive Refuses (policy : CorsPolicy) (req : Request) (o : String) : Prop where
  | origin (horigin : policy.checkOrigin o = none)
  | token (hpre : isPreflight req) (name : String) (hname : req.header? requestMethod = some name)
      (htoken : ¬ Text.isToken (Text.trim name.toList))
  | asked (hpre : isPreflight req) (name : String) (hname : req.header? requestMethod = some name)
      (hmethod : policy.checkMethod ⟨Text.trimmed name⟩ = none)
  | method (hpre : ¬ isPreflight req) (hmethod : policy.checkMethod req.method = none)
  | header (hpre : isPreflight req) (value : String)
      (hvalue : value ∈ req.headers.getAll requestHeaders) (piece : List Char)
      (hpiece : piece ∈ value.toList.splitOn ',') (hne : Text.trim piece ≠ [])
      (hheader : policy.checkHeaders [String.ofList (Text.trim piece)] = none)

private theorem checkHeaders_eq_none_iff {requested : List String} :
    policy.checkHeaders requested = none ↔ ∃ h ∈ requested, policy.checkHeaders [h] = none := by
  rw [← Option.not_isSome_iff_eq_none, CorsPolicy.isSome_checkHeaders]
  simp only [← Option.not_isSome_iff_eq_none, CorsPolicy.isSome_checkHeaders,
    List.forall_mem_singleton, Classical.not_forall, exists_prop]

private theorem mem_requestedHeaders (hpre : isPreflight req) {name : String} :
    name ∈ requestedHeaders req ↔ ∃ value ∈ req.headers.getAll requestHeaders,
      ∃ piece ∈ value.toList.splitOn ',', Text.trim piece ≠ [] ∧
        String.ofList (Text.trim piece) = name := by
  rw [requestedHeaders, if_pos hpre, List.mem_flatMap]
  simp only [Text.mem_listItems]

private theorem Checks.not_refuses (h : Checks policy req o answer) : ¬ Refuses policy req o := by
  obtain ⟨method, hjudged, hallowed⟩ := h.method
  intro hrefuses
  cases hrefuses with
  | origin horigin =>
    rw [h.origin] at horigin
    cases horigin
  | token hpre name hname htoken =>
    rw [judgedMethod?, if_pos hpre, hname, Option.bind_some, Method.ofName?, Text.trimmed,
      String.toList_ofList, if_neg htoken] at hjudged
    cases hjudged
  | asked hpre name hname hmethod =>
    rw [judgedMethod?, if_pos hpre, hname, Option.bind_some, Method.ofName?] at hjudged
    split at hjudged
    · cases hjudged
      simp [hmethod] at hallowed
    · cases hjudged
  | method hpre hmethod =>
    rw [judgedMethod?, if_neg hpre] at hjudged
    cases hjudged
    simp [hmethod] at hallowed
  | header hpre value hvalue piece hpiece hne hheader =>
    have hnone : policy.checkHeaders (requestedHeaders req) = none :=
      checkHeaders_eq_none_iff.mpr
        ⟨_, (mem_requestedHeaders hpre).mpr ⟨value, hvalue, piece, hpiece, hne, rfl⟩, hheader⟩
    simpa [hnone] using h.headers

private theorem method_of_not_refuses (h : ¬ Refuses policy req o) :
    ∃ method, judgedMethod? req = some method ∧ (policy.checkMethod method).isSome := by
  by_cases hpre : isPreflight req
  · have hasked : (req.header? requestMethod).isSome := by
      rw [isPreflight, Bool.and_eq_true] at hpre
      exact hpre.2
    obtain ⟨name, hname⟩ := Option.isSome_iff_exists.mp hasked
    have htoken : Text.isToken (Text.trim name.toList) :=
      Decidable.byContradiction fun hnot => h (.token hpre name hname hnot)
    refine ⟨⟨Text.trimmed name⟩, ?_, Option.isSome_iff_ne_none.mpr fun hnone =>
      h (.asked hpre name hname hnone)⟩
    rw [judgedMethod?, if_pos hpre, hname, Option.bind_some, Method.ofName?, Text.trimmed,
      String.toList_ofList, if_pos htoken]
  · refine ⟨req.method, ?_, Option.isSome_iff_ne_none.mpr fun hnone => h (.method hpre hnone)⟩
    rw [judgedMethod?, if_neg hpre]

private theorem headers_of_not_refuses (h : ¬ Refuses policy req o) :
    (policy.checkHeaders (requestedHeaders req)).isSome := by
  rw [Option.isSome_iff_ne_none]
  intro hnone
  obtain ⟨name, hname, hheader⟩ := checkHeaders_eq_none_iff.mp hnone
  by_cases hpre : isPreflight req
  · obtain ⟨value, hvalue, piece, hpiece, hne, rfl⟩ := (mem_requestedHeaders hpre).mp hname
    exact h (.header hpre value hvalue piece hpiece hne hheader)
  · rw [requestedHeaders, if_neg hpre] at hname
    cases hname

private theorem refuses_iff : Refuses policy req o ↔ ¬ ∃ answer, Checks policy req o answer := by
  constructor
  · rintro hrefuses ⟨answer, hchecks⟩
    exact hchecks.not_refuses hrefuses
  · intro hnone
    refine Classical.byContradiction fun hnot => ?_
    cases horigin : policy.checkOrigin o with
    | none => exact hnot (.origin horigin)
    | some answer =>
      exact hnone ⟨answer, horigin, method_of_not_refuses hnot, headers_of_not_refuses hnot⟩

private theorem judge_refused_iff :
    (judge policy req o res).allowed = false ↔ Refuses policy req o := by
  rw [refuses_iff, ← Bool.not_eq_true]
  refine not_congr ⟨checks_of_allowed, ?_⟩
  rintro ⟨answer, hchecks⟩
  exact (hchecks.judge res).1

/-- A response that was refused: status and body say so, the headers stay. -/
def refusal (res : Response) : Response :=
  { res with status := 403, body := .text "Invalid CORS request" }

private theorem judge_response_of_refused (h : (judge policy req o res).allowed = false) :
    (judge policy req o res).response = refusal res := by
  revert h
  rw [judge]
  repeat' split
  · exact fun _ => rfl
  · exact fun _ => rfl
  · exact fun _ => rfl
  · exact fun _ => rfl
  · intro h
    cases h

/-- The headers of the answer to the origin. -/
def answerNames : List String :=
  [allowOrigin, allowMethods, allowHeaders, exposeHeaders, allowCredentials, maxAge]

/-- Headers of the answer are set on a response, one after the other. -/
inductive Answered (r : Response) : Response → Prop where
  | refl : Answered r r
  | set {r' : Response} (h : Answered r r') {name : String} (hname : name ∈ answerNames)
      (value : String) : Answered r (r'.setHeader name value)

theorem Answered.setList {r r' : Response} (h : Answered r r') {name : String}
    (hname : name ∈ answerNames) (values : List String) :
    Answered r (setList name values r') := by
  rw [Cors.setList]
  split
  · exact h
  · exact h.set hname _

private theorem Answered.ite {r a b : Response} {c : Prop} [Decidable c] (ha : Answered r a)
    (hb : Answered r b) : Answered r (if c then a else b) := by
  split
  · exact ha
  · exact hb

private theorem answered_accept (policy : CorsPolicy) (req : Request) (answer : String)
    (methods headers : List String) (res : Response) :
    Answered (addVary res) (accept policy req answer methods headers res) := by
  have horigin : Answered (addVary res) ((addVary res).setHeader allowOrigin answer) :=
    Answered.refl.set (by decide) answer
  have hmethods := horigin.set (show allowMethods ∈ answerNames by decide)
    (Text.joinWith ", " methods)
  have hheaders := hmethods.setList (show allowHeaders ∈ answerNames by decide) headers
  have hexposed := (Answered.ite (c := isPreflight req) hheaders horigin).setList
    (show exposeHeaders ∈ answerNames by decide) (policy.exposedHeaders.getD [])
  have hcredentials := Answered.ite (c := policy.allowCredentials = some true)
    (hexposed.set (show allowCredentials ∈ answerNames by decide) "true") hexposed
  unfold accept
  dsimp only
  split
  · exact hcredentials.set (by decide) _
  · exact hcredentials

private theorem Answered.mem_headers {r r' : Response} (h : Answered r r') :
    ∀ p ∈ r'.headers, p ∈ r.headers ∨ p.1 ∈ answerNames := by
  induction h with
  | refl => exact fun _ => .inl
  | set _ hname value ih =>
    intro p hp
    rcases List.mem_append.mp hp with hold | hnew
    · exact ih p (List.mem_filter.mp hold).1
    · rw [List.mem_singleton.mp hnew]
      exact .inr hname

/-- A name is not `Vary` and none of others. -/
def isApart (names : List String) (name : String) : Bool :=
  !(vary :: names).any (Text.sameFold name)

/-- A response is changed in `Vary` and in the headers of some names only: `Vary` lists what it did
and the request headers that count, all other headers stay, and in their order. -/
structure Frames (names : List String) (before after : Response) : Prop where
  status : after.status = before.status
  body : after.body = before.body
  distinct : after.headers.Distinct
  listed : ∃ added, added.Sublist varyValues ∧
    after.headers.listed Cors.vary = before.headers.listed Cors.vary ++ added
  lists : ∀ name ∈ varyValues, ∃ item ∈ after.headers.listed vary, Text.sameFold item name
  others : after.headers.filter (fun p => isApart names p.1) =
    before.headers.filter fun p => isApart names p.1

variable {names : List String} {before after : Response}

private theorem frames_addVary (hdistinct : res.headers.Distinct) (names : List String) :
    Frames names res (addVary res) := by
  have hitems : ∀ value ∈ varyValues, Text.IsItem ',' value.toList := by decide
  have hlisted : (addVary res).headers.listed vary =
      Headers.mergeValues (res.headers.listed vary) varyValues :=
    Headers.listed_addValues hdistinct hitems
  refine ⟨rfl, rfl, hdistinct.set _ _, ?_, ?_, ?_⟩
  · obtain ⟨added, hadded, hsub⟩ := exists_keepNew_eq_append (res.headers.listed vary) varyValues
    exact ⟨added, hsub, hlisted.trans hadded⟩
  · intro name hname
    rw [hlisted]
    exact exists_mem_keepNew (beq_self_eq_true _) hname
  · apply Headers.filter_set
    intro other hother
    simp [isApart, hother]

theorem Frames.set (h : Frames names before after) {name : String} (hname : name ∈ names)
    (hvary : Text.sameFold name vary = false) (value : String) :
    Frames names before (after.setHeader name value) := by
  have hlisted : (after.setHeader name value).headers.listed vary = after.headers.listed vary := by
    rw [Headers.listed, Headers.listed, Response.setHeader, Headers.getAll_set_of_ne hvary]
  refine ⟨h.status, h.body, h.distinct.set name value, ?_, ?_, ?_⟩
  · rw [hlisted]
    exact h.listed
  · rw [hlisted]
    exact h.lists
  · rw [← h.others]
    apply Headers.filter_set
    intro other hother
    rw [isApart, Bool.not_eq_true', Bool.not_eq_false, List.any_cons, Bool.or_eq_true]
    exact .inr (List.any_eq_true.mpr ⟨name, hname, hother⟩)

theorem Answered.frames {r : Response} (h : Answered r after) (hr : Frames answerNames before r) :
    Frames answerNames before after := by
  induction h with
  | refl => exact hr
  | set h hname value ih =>
    have hvary : ∀ name ∈ answerNames, Text.sameFold name vary = false := by decide
    exact ih.set hname (hvary _ hname) value

/-- A request with an origin is judged when that is not its own and the response has no answer yet. -/
structure Judged (req : Request) (res : Response) (o : String) : Prop where
  origin : req.header? Cors.origin = some o
  foreign : isSameOrigin req o = false
  fresh : res.headers.has allowOrigin = false

private theorem Judged.refused_iff (h : Judged req res o) {policy : Option CorsPolicy} :
    (process policy req res).allowed = false ↔
      (policy = none ∧ isPreflight req ∨ ∃ p, policy = some p ∧ Refuses p req o) := by
  rw [process_of_origin h.origin policy h.foreign h.fresh]
  cases policy with
  | some p => simp [judge_refused_iff]
  | none =>
    cases isPreflight req with
    | true => simp [reject]
    | false => simp

theorem Judged.response_of_refused (h : Judged req res o) {policy : Option CorsPolicy}
    (hrefused : (process policy req res).allowed = false) :
    (process policy req res).response = refusal res := by
  rw [process_of_origin h.origin policy h.foreign h.fresh] at hrefused ⊢
  cases policy with
  | some p => exact judge_response_of_refused hrefused
  | none =>
    cases hpre : isPreflight req with
    | true => rfl
    | false => simp [hpre] at hrefused

private theorem Judged.answered (h : Judged req res o) {policy : Option CorsPolicy}
    (hallowed : (process policy req res).allowed) :
    Answered (addVary res) (process policy req res).response := by
  rw [process_of_origin h.origin policy h.foreign h.fresh] at hallowed ⊢
  cases policy with
  | some p =>
    obtain ⟨answer, hchecks⟩ := checks_of_allowed hallowed
    obtain ⟨methods, headers, hresponse⟩ := hchecks.response res
    dsimp only
    rw [hresponse]
    exact answered_accept p req answer methods headers res
  | none =>
    cases hpre : isPreflight req with
    | true => simp [hpre, reject] at hallowed
    | false => exact .refl

theorem Judged.frames (h : Judged req res o) (hdistinct : res.headers.Distinct)
    {policy : Option CorsPolicy} (hallowed : (process policy req res).allowed) :
    Frames answerNames res (process policy req res).response :=
  (h.answered hallowed).frames (frames_addVary hdistinct answerNames)

theorem process_of_not_judged (h : ¬ ∃ o, Judged req res o) (policy : Option CorsPolicy) :
    (process policy req res).allowed ∧ (process policy req res).response =
      if (req.header? origin).isSome then addVary res else res := by
  cases horigin : req.header? origin with
  | none => simp [process, horigin]
  | some o =>
    cases hforeign : isSameOrigin req o with
    | true => simp [process, horigin, hforeign]
    | false =>
      cases hfresh : res.headers.has allowOrigin with
      | true => simp [process, horigin, hforeign, hfresh]
      | false => exact absurd ⟨o, horigin, hforeign, hfresh⟩ h

/-- The headers of a response that was untouched before are `Vary` and those of the answer. -/
theorem names_of_process (policy : Option CorsPolicy) (req : Request) :
    ∀ p ∈ (process policy req {}).response.headers, p.1 ∈ vary :: answerNames := by
  have hvary : ∀ p ∈ (addVary {}).headers, p.1 = vary := by
    intro p hp
    rw [List.mem_singleton.mp hp]
  intro p hp
  rw [List.mem_cons]
  by_cases hjudged : ∃ o, Judged req {} o
  · obtain ⟨o, hjudged⟩ := hjudged
    cases hallowed : (process policy req {}).allowed with
    | true => exact ((hjudged.answered hallowed).mem_headers p hp).imp_left (hvary p)
    | false =>
      rw [hjudged.response_of_refused hallowed] at hp
      cases hp
  · rw [(process_of_not_judged hjudged policy).2] at hp
    split at hp
    · exact .inl (hvary p hp)
    · cases hp

/-- A request is refused when it is judged, and there is no policy for a pre-flight one or there is
one that refuses it; the response then keeps its headers. Otherwise a response to a request without
origin stays as it is, and one to a request with an origin changes in `Vary` and, if a policy judged
the request, in the headers of the answer, only. -/
theorem process_frames (policy : Option CorsPolicy) (req : Request) {res : Response}
    (hdistinct : res.headers.Distinct) :
    ((process policy req res).allowed = false ↔ ∃ o, Judged req res o ∧
      (policy = none ∧ isPreflight req ∨ ∃ p, policy = some p ∧ Refuses p req o)) ∧
    ((process policy req res).allowed = false →
      (process policy req res).response = refusal res) ∧
    ((process policy req res).allowed →
      (req.header? origin = none → (process policy req res).response = res) ∧
      (req.header? origin ≠ none → Frames answerNames res (process policy req res).response ∧
        (policy = none ∨ (¬ ∃ o, Judged req res o) →
          Frames [] res (process policy req res).response))) := by
  by_cases hjudged : ∃ o, Judged req res o
  · obtain ⟨o, hjudged⟩ := hjudged
    have hone : ∀ o', Judged req res o' → o' = o := by
      intro o' h
      exact Option.some.inj (h.origin.symm.trans hjudged.origin)
    refine ⟨?_, hjudged.response_of_refused, fun hallowed => ⟨?_, fun _ =>
      ⟨hjudged.frames hdistinct hallowed, ?_⟩⟩⟩
    · rw [hjudged.refused_iff]
      constructor
      · exact fun h => ⟨o, hjudged, h⟩
      · rintro ⟨o', h, hrefuses⟩
        rwa [hone o' h] at hrefuses
    · intro hnone
      rw [hjudged.origin] at hnone
      cases hnone
    · rintro (rfl | hnot)
      · rw [process_of_origin hjudged.origin none hjudged.foreign hjudged.fresh] at hallowed ⊢
        cases hpre : isPreflight req with
        | true => simp [hpre, reject] at hallowed
        | false => exact frames_addVary hdistinct []
      · exact absurd ⟨o, hjudged⟩ hnot
  · obtain ⟨hallowed, hresponse⟩ := process_of_not_judged hjudged policy
    rw [hallowed, hresponse]
    refine ⟨?_, fun h => absurd h (by decide), fun _ => ⟨?_, ?_⟩⟩
    · refine iff_of_false (by decide) ?_
      rintro ⟨o, h, -⟩
      exact hjudged ⟨o, h⟩
    · intro hnone
      simp [hnone]
    · intro hsome
      rw [if_pos (Option.isSome_iff_ne_none.mpr hsome)]
      exact ⟨frames_addVary hdistinct answerNames, fun _ => frames_addVary hdistinct []⟩

/-- A page that lists `Vary` values, and a request for it from another site. -/
def page : Response where
  headers := [("Vary", "Accept, origin"), ("X-Page", "1")]

def visit : Request where
  method := .get
  path := "/page"
  headers := [("Origin", "https://a.example.com")]

theorem process_frames_page : page.headers.Distinct ∧
    (process (some CorsPolicy.permissive) visit page).allowed ∧
    Frames answerNames page (process (some CorsPolicy.permissive) visit page).response ∧
    (process (some CorsPolicy.permissive) visit page).response.headers.listed vary =
      ["Accept", "origin", "Access-Control-Request-Method", "Access-Control-Request-Headers"] := by
  have hdistinct : page.headers.Distinct := by decide
  have hallowed : (process (some CorsPolicy.permissive) visit page).allowed := by decide +kernel
  obtain ⟨-, -, hframes⟩ := process_frames (some CorsPolicy.permissive) visit hdistinct
  exact ⟨hdistinct, hallowed, ((hframes hallowed).2 (by decide)).1, by decide +kernel⟩

end Switchyard.Cors
