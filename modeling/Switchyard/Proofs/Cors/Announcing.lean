import Switchyard.Cors.Processor
/-!
# Requests announced by pre-flight ones

A pre-flight request that the processor accepts announces a request that it accepts too, with the
same answer to the origin (`Cors.process_announced`).
-/

namespace Switchyard

namespace Cors

/-- A pre-flight request is about another one: that names the method, which is a token, asks no
leave itself, and agrees on what it is for and where it comes from. -/
structure Announces (pre actual : Request) : Prop where
  options : pre.method = .options
  foreign : (pre.header? origin).isSome
  requested : pre.header? requestMethod = some actual.method.name
  token : Text.isToken actual.method.name.toList
  unasked : actual.header? requestMethod = none
  path : actual.path = pre.path
  scheme : actual.scheme = pre.scheme
  origin : actual.header? origin = pre.header? origin
  host : actual.header? "host" = pre.header? "host"

namespace Announces

variable {pre actual : Request} (h : Announces pre actual)

include h

theorem isPreflight_pre : isPreflight pre = true := by
  simp [isPreflight, isCors, h.options, h.foreign, h.requested]

theorem isPreflight_actual : isPreflight actual = false := by
  simp [isPreflight, h.unasked]

theorem judgedMethod?_pre : judgedMethod? pre = some actual.method := by
  rw [judgedMethod?, if_pos h.isPreflight_pre, h.requested, Option.bind_some,
    Text.trimmed_of_isToken h.token, Method.ofName?, if_pos h.token]

private theorem judgedMethod?_actual : judgedMethod? actual = some actual.method := by
  rw [judgedMethod?, if_neg (by simp [h.isPreflight_actual])]

private theorem isSameOrigin_eq (o : String) : isSameOrigin actual o = isSameOrigin pre o := by
  rw [isSameOrigin, isSameOrigin, h.host, h.scheme]

end Announces

theorem header?_setHeader_of_ne {name other : String} (hname : Text.sameFold name other = false)
    (value : String) (r : Response) :
    (r.setHeader name value).header? other = r.header? other := by
  rw [r.header?_setHeader, if_neg (by simp [hname])]

theorem header?_setList {name other : String} (hname : Text.sameFold name other = false)
    (values : List String) (r : Response) :
    (setList name values r).header? other = r.header? other := by
  rw [setList]
  split
  · rfl
  · exact header?_setHeader_of_ne hname _ r

theorem header?_addVary {other : String} (hother : Text.sameFold vary other = false)
    (r : Response) : (addVary r).header? other = r.header? other :=
  header?_setHeader_of_ne hother _ r

private theorem header?_accept (policy : CorsPolicy) (req : Request) (answer : String)
    (methods headers : List String) (res : Response) :
    (accept policy req answer methods headers res).header? allowOrigin = some answer := by
  have hmethods : Text.sameFold allowMethods allowOrigin = false := by decide
  have hheaders : Text.sameFold allowHeaders allowOrigin = false := by decide
  have hexposed : Text.sameFold exposeHeaders allowOrigin = false := by decide
  have hcredentials : Text.sameFold allowCredentials allowOrigin = false := by decide
  have hage : Text.sameFold maxAge allowOrigin = false := by decide
  have hanswer :
      ((addVary res).setHeader allowOrigin answer).header? allowOrigin = some answer := by
    rw [Response.header?_setHeader, if_pos (by decide)]
  rw [accept]
  cases isPreflight req <;> cases policy.maxAge <;> by_cases policy.allowCredentials = some true <;>
    simp [*, header?_setHeader_of_ne, header?_setList]

/-- The checks that a policy makes of a request, and what they answer. -/
structure Checks (policy : CorsPolicy) (req : Request) (o answer : String) : Prop where
  origin : policy.checkOrigin o = some answer
  method : ∃ method, judgedMethod? req = some method ∧ (policy.checkMethod method).isSome
  headers : (policy.checkHeaders (requestedHeaders req)).isSome

variable {policy : CorsPolicy} {req : Request} {o answer : String} {res : Response}

theorem checks_of_allowed (h : (judge policy req o res).allowed) :
    ∃ answer, Checks policy req o answer := by
  rw [judge] at h
  cases horigin : policy.checkOrigin o with
  | none => simp [horigin, reject] at h
  | some answer =>
    cases hmethod : judgedMethod? req with
    | none => simp [horigin, hmethod, reject] at h
    | some method =>
      cases hmethods : policy.checkMethod method with
      | none => simp [horigin, hmethod, hmethods, reject] at h
      | some methods =>
        cases hheaders : policy.checkHeaders (requestedHeaders req) with
        | none => simp [horigin, hmethod, hmethods, hheaders, reject] at h
        | some headers =>
          exact ⟨answer, horigin, ⟨method, hmethod, by simp [hmethods]⟩, by simp [hheaders]⟩

theorem Checks.judge (h : Checks policy req o answer) (res : Response) :
    (judge policy req o res).allowed ∧
      (judge policy req o res).response.header? allowOrigin = some answer := by
  obtain ⟨method, hmethod, hmethods⟩ := h.method
  obtain ⟨methods, hmethods⟩ := Option.isSome_iff_exists.mp hmethods
  obtain ⟨headers, hheaders⟩ := Option.isSome_iff_exists.mp h.headers
  simp [Cors.judge, h.origin, hmethod, hmethods, hheaders, header?_accept]

theorem Announces.checks {pre actual : Request} (h : Announces pre actual)
    (hchecks : Checks policy pre o answer) : Checks policy actual o answer := by
  obtain ⟨method, hmethod, hmethods⟩ := hchecks.method
  rw [h.judgedMethod?_pre] at hmethod
  cases hmethod
  refine ⟨hchecks.origin, ⟨actual.method, h.judgedMethod?_actual, hmethods⟩, ?_⟩
  rw [requestedHeaders, if_neg (by simp [h.isPreflight_actual])]
  rfl

theorem process_of_origin (horigin : req.header? origin = some o) (policy : Option CorsPolicy)
    (hforeign : isSameOrigin req o = false) (hfresh : res.headers.has allowOrigin = false) :
    process policy req res =
      match policy with
      | some policy => Cors.judge policy req o res
      | none =>
        if isPreflight req then
          reject res (.warn "CORS preflight: no configuration applies" [("origin", .text o)])
        else ⟨true, addVary res, none⟩ := by
  cases policy with
  | none => simp [process, horigin, hforeign, hfresh]
  | some policy => simp [process, horigin, hforeign, hfresh]

theorem header?_process_none (hpre : isPreflight req = false) (res : Response) :
    (process none req res).response.header? allowOrigin = res.header? allowOrigin := by
  have hvary : Text.sameFold vary allowOrigin = false := by decide
  rw [process]
  cases req.header? origin with
  | none => rfl
  | some o =>
    dsimp only
    split
    · exact header?_addVary hvary res
    · split
      · exact header?_addVary hvary res
      · rw [if_neg (by simp [hpre])]
        exact header?_addVary hvary res

theorem process_announced {pre actual : Request} (h : Announces pre actual)
    (policy : Option CorsPolicy) {res : Response} (hallowed : (process policy pre res).allowed) :
    (process policy actual res).allowed ∧
      (process policy actual res).response.header? allowOrigin =
        (process policy pre res).response.header? allowOrigin := by
  obtain ⟨o, hpre⟩ := Option.isSome_iff_exists.mp h.foreign
  have hactual : actual.header? origin = some o := h.origin.trans hpre
  have hsame := h.isSameOrigin_eq o
  cases hforeign : isSameOrigin pre o with
  | true => simp [process, hpre, hactual, hsame, hforeign]
  | false =>
    rw [hforeign] at hsame
    cases hfresh : res.headers.has allowOrigin with
    | true => simp [process, hpre, hactual, hsame, hforeign, hfresh]
    | false =>
      rw [process_of_origin hpre policy hforeign hfresh] at hallowed ⊢
      rw [process_of_origin hactual policy hsame hfresh]
      cases policy with
      | none => simp [h.isPreflight_pre, reject] at hallowed
      | some policy =>
        obtain ⟨answer, hchecks⟩ := checks_of_allowed hallowed
        obtain ⟨-, hanswer⟩ := hchecks.judge res
        obtain ⟨hpasses, hanswer'⟩ := (h.checks hchecks).judge res
        exact ⟨hpasses, hanswer'.trans hanswer.symm⟩

end Cors

end Switchyard
