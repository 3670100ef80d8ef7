import Switchyard.Proofs.Attempt
import Switchyard.Proofs.Cors.Announcing
import Switchyard.Proofs.Cors.Globs
import Switchyard.Proofs.Cors.Union
/-!
# Policies that may send credentials

However a policy was built and combined, it sends credentials only to origins that it lists or has a
pattern for: the order of building and combining does not matter, because each of them keeps what
the next one relies on (`CorsPolicy.IsSafe`). So an answer with credentials names the origin that
asked (`CorsPolicy.Obtained.answer_with_credentials`).
-/

namespace Switchyard

namespace CorsPolicy

open OriginPattern

variable {a b p : CorsPolicy} {o answer : String}

/-- What every policy keeps to, however it was obtained. -/
structure IsSafe (p : CorsPolicy) : Prop where
  closed : p.allowCredentials = some true → wildcard ∉ p.allowedOrigins.getD []
  known : p.allowCredentials = some true →
    p.allowedOrigins.getD [] ≠ [] ∨ p.allowedOriginPatterns.getD [] ≠ []
  methods : ∀ m ∈ p.allowedMethods.getD [], m = wildcard ∨ Text.isToken m.toList

/-- Policies that are built, or combined from such. -/
inductive Obtained : CorsPolicy → Prop where
  | empty : Obtained empty
  | permissive : Obtained permissive
  | built {draft : Draft} {p : CorsPolicy} (h : build draft = .ok p) : Obtained p
  | combined {a b p : CorsPolicy} (ha : Obtained a) (hb : Obtained b)
      (h : a.combine b = .ok p) : Obtained p

private theorem empty_isSafe : empty.IsSafe where
  closed h := nomatch h
  known h := nomatch h
  methods _ hm := nomatch hm

private theorem permissive_isSafe : permissive.IsSafe where
  closed h := nomatch h
  known h := nomatch h
  methods m hm := by
    right
    simp only [permissive, defaultMethods, Option.getD_some, List.mem_cons, List.not_mem_nil,
      or_false] at hm
    rcases hm with rfl | rfl | rfl <;> decide

/-- What a policy that was built has passed. -/
theorem build_ok {draft : Draft} (h : build draft = .ok p) :
    p.checkCredentials = .ok () ∧
    (∀ m ∈ p.allowedMethods.getD [], m = wildcard ∨ Text.isToken m.toList) ∧
    (p.allowCredentials = some true →
      p.allowedOrigins.getD [] ≠ [] ∨ p.allowedOriginPatterns.getD [] ≠ []) := by
  rw [build] at h
  split at h
  · cases h
  · dsimp only at h
    split at h
    · cases h
    · next hmethods =>
      obtain ⟨patterns, -, h⟩ := except_bind_ok h
      split at h
      · cases h
      · next horigins =>
        obtain ⟨_, hcheck, h⟩ := except_bind_ok h
        cases h
        refine ⟨hcheck, ?_, ?_⟩
        · intro m hm
          have htoken := List.find?_eq_none.mp hmethods m hm
          by_cases hwild : m = wildcard
          · exact .inl hwild
          · simp only [Method.ofName?] at htoken
            by_cases htok : Text.isToken m.toList
            · exact .inr htok
            · simp [hwild, htok] at htoken
        · intro hcredentials
          dsimp only at hcredentials ⊢
          by_cases hlist : draft.allowedOrigins.getD [] = []
          · right
            intro hpatterns
            simp [hcredentials, hlist, hpatterns] at horigins
          · exact .inl hlist

theorem build_checked {draft : Draft} (h : build draft = .ok p) :
    p.checkCredentials = .ok () := (build_ok h).1

private theorem not_mem_of_checked (hcheck : p.checkCredentials = .ok ())
    (hcredentials : p.allowCredentials = some true) : wildcard ∉ p.allowedOrigins.getD [] :=
  fun hwild => checkCredentials_ok_iff.mp hcheck ⟨hcredentials, hwild⟩

private theorem build_isSafe {draft : Draft} (h : build draft = .ok p) : p.IsSafe := by
  obtain ⟨hcheck, hmethods, hknown⟩ := build_ok h
  exact ⟨not_mem_of_checked hcheck, hknown, hmethods⟩

private theorem mem_combineLists {x y : Option (List String)} {e : String}
    (h : e ∈ (combineLists x y).getD []) : e = wildcard ∨ e ∈ x.getD [] ∨ e ∈ y.getD [] := by
  cases x with
  | none =>
    rw [combineLists_none_left] at h
    exact .inr (.inr h)
  | some x =>
    cases y with
    | none => exact .inr (.inl h)
    | some y =>
      rw [combineLists_some, Option.getD_some, absorbed] at h
      split at h
      · exact .inl (List.mem_singleton.mp h)
      · rw [dedupFold_eq] at h
        have hmem : e ∈ x ++ y := (mem_of_mem_keepNew h).resolve_left List.not_mem_nil
        exact .inr (List.mem_append.mp hmem)

/-- Something is there to be allowed in a union, as it was in one of the two. -/
private theorem joined_known : ((joined a b).allowedOrigins.getD [] ≠ [] ∨
      (joined a b).allowedOriginPatterns.getD [] ≠ []) ↔
    (a.allowedOrigins.getD [] ≠ [] ∨ a.allowedOriginPatterns.getD [] ≠ []) ∨
      b.allowedOrigins.getD [] ≠ [] ∨ b.allowedOriginPatterns.getD [] ≠ [] := by
  have hpattern (l : List OriginPattern) : l ≠ [] ↔ (l.any fun _ => true) = true := by
    cases l <;> simp
  simp only [ne_nil_iff_covers, hpattern]
  dsimp only [joined]
  rw [covers_combineLists fun _ _ _ => rfl, any_combinePatterns, Bool.or_eq_true, or_or_or_comm]

/-- Credentials come from one of the two, and an origin for them from the same one. -/
private theorem combine_isSafe (ha : a.IsSafe) (hb : b.IsSafe) (h : a.combine b = .ok p) :
    p.IsSafe := by
  obtain ⟨hagree, hcheck, rfl⟩ := combine_ok_iff.mp h
  refine ⟨not_mem_of_checked hcheck, ?_, ?_⟩
  · intro hcredentials
    rw [joined_known]
    rcases (credentials_joined_iff hagree).mp hcredentials with ha' | hb'
    · exact .inl (ha.known ha')
    · exact .inr (hb.known hb')
  · intro m hm
    rcases mem_combineLists hm with hwild | hm | hm
    · exact .inl hwild
    · exact ha.methods m hm
    · exact hb.methods m hm

private theorem Obtained.isSafe (h : p.Obtained) : p.IsSafe := by
  induction h with
  | empty => exact empty_isSafe
  | permissive => exact permissive_isSafe
  | built h => exact build_isSafe h
  | combined _ _ h iha ihb => exact combine_isSafe iha ihb h

/-- What applies to a request is obtained from the policies for its path and of its handler. -/
private theorem obtained_of_effectivePolicy {path own : Option CorsPolicy}
    (hpath : ∀ q ∈ path, q.Obtained) (hown : ∀ q ∈ own, q.Obtained)
    (h : HandlerMapping.effectivePolicy path own = .ok (some p)) : p.Obtained := by
  cases HandlerMapping.joins_of_effectivePolicy h with
  | first => exact hpath p rfl
  | second => exact hown p rfl
  | both hcombine => exact (hpath _ rfl).combined (hown _ rfl) hcombine

/-- An entry names the origin, other than by allowing all, or a pattern matches it. -/
def Knows (p : CorsPolicy) (o : String) : Prop :=
  let bare := withoutSlashes (Text.trim o.toList)
  (∃ entry ∈ p.allowedOrigins.getD [], entry ≠ wildcard ∧ names bare entry) ∨
    ∃ pattern ∈ p.allowedOriginPatterns.getD [], pattern.isMatch bare

private theorem knows_of_checkOrigin (hsafe : p.IsSafe)
    (hcredentials : p.allowCredentials = some true)
    (h : p.checkOrigin o = some answer) : answer = Text.trimmed o ∧ p.Knows o := by
  have hclosed := hsafe.closed hcredentials
  rw [checkOrigin] at h
  split at h
  · cases h
  · split at h
    · next hopen => simp [hcredentials] at hopen
    · split at h
      · next hknown =>
        cases h
        refine ⟨rfl, ?_⟩
        rw [Bool.or_eq_true, List.any_eq_true, List.any_eq_true] at hknown
        rcases hknown with ⟨entry, hentry, hnames⟩ | hpattern
        · refine .inl ⟨entry, hentry, ?_, hnames⟩
          rintro rfl
          exact hclosed hentry
        · exact .inr hpattern
      · cases h

end CorsPolicy

namespace Cors

variable {policy : CorsPolicy} {req : Request} {o answer : String}

private theorem header?_accept_credentials (policy : CorsPolicy) (req : Request) (answer : String)
    (methods headers : List String) (res : Response) :
    (accept policy req answer methods headers res).header? allowCredentials =
      if policy.allowCredentials = some true then some "true"
      else res.header? allowCredentials := by
  have hvary : Text.sameFold vary allowCredentials = false := by decide
  have horigin : Text.sameFold allowOrigin allowCredentials = false := by decide
  have hmethods : Text.sameFold allowMethods allowCredentials = false := by decide
  have hheaders : Text.sameFold allowHeaders allowCredentials = false := by decide
  have hexposed : Text.sameFold exposeHeaders allowCredentials = false := by decide
  have hage : Text.sameFold maxAge allowCredentials = false := by decide
  have hset (r : Response) :
      (r.setHeader allowCredentials "true").header? allowCredentials = some "true" := by
    rw [Response.header?_setHeader, if_pos (by decide)]
  rw [accept]
  cases isPreflight req <;> cases policy.maxAge <;> by_cases policy.allowCredentials = some true <;>
    simp [*, header?_setHeader_of_ne, header?_setList, header?_addVary]

theorem Checks.response (h : Checks policy req o answer) (res : Response) :
    ∃ methods headers,
      (Cors.judge policy req o res).response = accept policy req answer methods headers res := by
  obtain ⟨method, hmethod, hmethods⟩ := h.method
  obtain ⟨methods, hmethods⟩ := Option.isSome_iff_exists.mp hmethods
  obtain ⟨headers, hheaders⟩ := Option.isSome_iff_exists.mp h.headers
  exact ⟨methods, headers, by simp [Cors.judge, h.origin, hmethod, hmethods, hheaders]⟩

/-- Leave to send credentials is written to a response: it was not there before, or it is set again,
by a policy with credentials on a response without an answer to the origin. -/
def WritesCredentials (policy : CorsPolicy) (before after : Response) : Prop :=
  after.header? allowCredentials = some "true" ∧
    (before.header? allowCredentials ≠ some "true" ∨
      policy.allowCredentials = some true ∧ before.headers.has allowOrigin = false)

private theorem checks_of_writesCredentials (horigin : req.header? origin = some o)
    (hforeign : isSameOrigin req o = false) {res : Response}
    (hallowed : (process (some policy) req res).allowed)
    (hwrites : WritesCredentials policy res (process (some policy) req res).response) :
    policy.allowCredentials = some true ∧ ∃ answer, Checks policy req o answer ∧
      (process (some policy) req res).response.header? allowOrigin = some answer := by
  obtain ⟨hafter, hbefore⟩ := hwrites
  cases hfresh : res.headers.has allowOrigin with
  | true =>
    -- the headers stay, but for `Vary`
    have hkept : (process (some policy) req res).response = addVary res := by
      simp [process, horigin, hforeign, hfresh]
    rw [hkept, header?_addVary (by decide)] at hafter
    rcases hbefore with hnew | ⟨-, hnone⟩
    · exact absurd hafter hnew
    · rw [hfresh] at hnone
      cases hnone
  | false =>
    rw [process_of_origin horigin _ hforeign hfresh] at hallowed hafter ⊢
    obtain ⟨answer, hchecks⟩ := checks_of_allowed hallowed
    refine ⟨?_, answer, hchecks, (hchecks.judge res).2⟩
    obtain ⟨methods, headers, hresponse⟩ := hchecks.response res
    dsimp only at hafter
    rw [hresponse, header?_accept_credentials] at hafter
    split at hafter
    · next hcredentials => exact hcredentials
    · exact (hbefore.resolve_left fun hnew => hnew hafter).1

end Cors

namespace CorsPolicy

open OriginPattern

/-- A policy that was built, or combined from such, does not allow credentials to all origins, knows
an origin if it allows them, and lists tokens as methods. When it lets a request of another origin go
on and writes leave to send credentials, then next to the very origin that the request names, which
it knows; that is no answer for all. -/
theorem Obtained.answer_with_credentials {p : CorsPolicy} (h : p.Obtained) :
    (p.allowCredentials = some true → wildcard ∉ p.allowedOrigins.getD [] ∧
      (p.allowedOrigins.getD [] ≠ [] ∨ p.allowedOriginPatterns.getD [] ≠ [])) ∧
    (∀ m ∈ p.allowedMethods.getD [], m = wildcard ∨ Text.isToken m.toList) ∧
    ∀ (req : Request) (o : String) (res : Response), req.header? Cors.origin = some o →
      Cors.isSameOrigin req o = false → (Cors.process (some p) req res).allowed →
      Cors.WritesCredentials p res (Cors.process (some p) req res).response →
        (Cors.process (some p) req res).response.header? Cors.allowOrigin =
          some (Text.trimmed o) ∧ p.Knows o := by
  have hsafe := h.isSafe
  refine ⟨fun hcredentials => ⟨hsafe.closed hcredentials, hsafe.known hcredentials⟩,
    hsafe.methods, ?_⟩
  intro req o res horigin hforeign hallowed hwrites
  obtain ⟨hcredentials, answer, hchecks, hanswer⟩ :=
    Cors.checks_of_writesCredentials horigin hforeign hallowed hwrites
  obtain ⟨rfl, hknows⟩ := knows_of_checkOrigin hsafe hcredentials hchecks.origin
  exact ⟨hanswer, hknows⟩

/-- Credentials for the pages of a site, methods for one of them, and a request to change it. -/
def site : Draft where
  allowedOriginPatterns := some ["https://*.example.com"]
  allowCredentials := some true

def editing : Draft where
  allowedMethods := some ["PUT"]

def edit : Request where
  method := ⟨"PUT"⟩
  path := "/pages"
  headers := [("Origin", " https://a.example.com/ ")]

theorem answer_with_credentials_site : ∃ a b p, build site = .ok a ∧ build editing = .ok b ∧
    HandlerMapping.effectivePolicy (some a) (some b) = .ok (some p) ∧
    wildcard ∉ p.allowedOrigins.getD [] ∧ (Cors.process (some p) edit {}).allowed ∧
    (Cors.process (some p) edit {}).response.header? Cors.allowCredentials = some "true" ∧
    (Cors.process (some p) edit {}).response.header? Cors.allowOrigin =
      some "https://a.example.com/" := by
  obtain ⟨pattern, hparse⟩ := exists_parse "https://*.example.com" (by decide) (by decide)
  let a : CorsPolicy := { allowedOriginPatterns := some [pattern], allowCredentials := some true }
  let p : CorsPolicy := { a with allowedMethods := some ["PUT"] }
  have hsite : build site = .ok a := by
    -- for any text, since the kernel would otherwise compile this one
    have hpatterns (text : String) (h : OriginPattern.parse text = .ok pattern) :
        (some [text]).mapM (·.mapM OriginPattern.parse) = .ok (some [pattern]) := by
      simp [h]
    rw [build, site, hpatterns _ hparse]
    rfl
  have hediting : build editing = .ok { allowedMethods := some ["PUT"] } := by rfl
  have hpolicy : HandlerMapping.effectivePolicy (some a) (some { allowedMethods := some ["PUT"] }) =
      .ok (some p) := by rfl
  have hobtained : Obtained p := by
    refine obtained_of_effectivePolicy ?_ ?_ hpolicy
    · rintro q ⟨⟩
      exact .built hsite
    · rintro q ⟨⟩
      exact .built hediting
  have hmatch : pattern.isMatch (withoutSlashes (Text.trim " https://a.example.com/ ".toList)) :=
    (isMatch_iff_fits hparse (by decide) (by decide) (by decide)).mpr
      ⟨"https://".toList, "a".toList, ".example.com".toList, by decide, by decide,
        show List.map _ _ = _ by decide⟩
  have horigin : p.checkOrigin " https://a.example.com/ " = some "https://a.example.com/" := by
    rw [checkOrigin_of_pattern rfl rfl, if_pos ⟨by decide, hmatch⟩]
    decide
  have hchecks : Cors.Checks p edit " https://a.example.com/ " "https://a.example.com/" :=
    ⟨horigin, ⟨⟨"PUT"⟩, rfl, rfl⟩, rfl⟩
  have hprocess : Cors.process (some p) edit {} =
      Cors.judge p edit " https://a.example.com/ " {} :=
    Cors.process_of_origin rfl (some p) (by decide +kernel) rfl
  have hallowed : (Cors.process (some p) edit {}).allowed := by
    rw [hprocess]
    exact (hchecks.judge {}).1
  have hwritten :
      (Cors.process (some p) edit {}).response.header? Cors.allowCredentials = some "true" := by
    obtain ⟨methods, headers, hresponse⟩ := hchecks.response {}
    rw [hprocess, hresponse, Cors.header?_accept_credentials]
    rfl
  obtain ⟨hclosed, -, hanswer⟩ := hobtained.answer_with_credentials
  obtain ⟨hanswer, -⟩ := hanswer edit " https://a.example.com/ " {} rfl (by decide +kernel)
    hallowed ⟨hwritten, .inl (by decide)⟩
  refine ⟨_, _, p, hsite, hediting, hpolicy, (hclosed rfl).1, hallowed, hwritten, ?_⟩
  rw [hanswer]
  decide

end CorsPolicy

end Switchyard
