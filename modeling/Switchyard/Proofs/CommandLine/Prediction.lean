import Switchyard.Proofs.CommandLine.Printing
/-!
# Reports foretell dispatches

What is printed about a synthetic request is what becomes of it when it is dispatched
(`Command.resolve_predicts`), as long as the handlers that serve it carry no policies of their own:
the tool does not know those (`Command.resolve_overlooks_own`).
-/

namespace Switchyard

open Config (Settings)

variable {σ : Type}

/-- The status that a dispatch ends with, in its response or by its error. -/
def Dispatcher.endStatus : Except DispatchError (DispatchOutcome σ) → Nat
  | .ok outcome => outcome.exchange.response.status
  | .error e => e.status

private theorem DispatchError.status_ne_rejection (e : DispatchError) :
    e.status ≠ Cors.rejectionStatus := by
  have hstatus : e.status = 503 ∨ e.status = 500 := by
    cases e
    case asyncTimeout => exact .inl rfl
    all_goals exact .inr rfl
  rcases hstatus with h | h <;> rw [h] <;> decide

/-- The registered handlers leave responses alone and carry no policies of their own. -/
def HandlerRegistry.IsIdle (registry : HandlerRegistry σ) : Prop :=
  ∀ name handler, registry.find? name = some handler →
    handler.LeavesAlone AnyWorlds ∧ handler.cors = none

/-- Over idle handlers and interceptors that let everything through a request that the mapping does
not decline ends with what the guard makes of an untouched response. -/
private theorem Config.Settings.dispatch_gives {s : Settings} {registry : HandlerRegistry σ}
    {available : String → Option (Interceptor σ)} {m : HandlerMapping σ} {w : World σ}
    (h : ((s.mapping registry available).run.run w).1 = .ok m) (hidle : registry.IsIdle)
    (hpass : ∀ name i, available name = some i → i.Passes AnyWorlds) {req : Request}
    (htype : req.dispatchType = .request) (hreq : ¬ m.Declines req) {d : Dispatcher σ}
    (hd : d.mappings = [m]) : (d.dispatch req).Gives AnyWorlds fun r =>
      (∀ outcome, r = .ok outcome →
        outcome.exchange.response = (Cors.guarded (m.policyFor req) req).response) ∧
      ∀ e, r = .error e → (Cors.guarded (m.policyFor req) req).allowed := by
  intro w₁
  refine ⟨?_, trivial⟩
  have hplain : ∀ name handler, registry.find? name = some handler → handler.cors = none :=
    fun name handler hfound => (hidle name handler hfound).2
  obtain ⟨c, attributes, hresolve, hc⟩ := Settings.resolve_of_not_declines h hplain hreq w₁
  have hserves : ((m.resolve req).run w₁).1.1 ≠ .ok none := by
    rw [hresolve]
    exact fun h => nomatch h
  have hsearch := Dispatcher.chainFor_of_not_declines m [] hserves
  generalize (m.resolve req).run w₁ = answer at hresolve hsearch
  obtain ⟨_, w₂⟩ := answer
  obtain rfl : _ = _ := hresolve
  rw [← hd] at hsearch
  rw [Dispatcher.dispatch_run d {} hsearch]
  generalize m.policyFor req = policy at hc
  cases hc with
  | answer hpre =>
    have hpre' : Cors.isPreflight { req with attributes } := hpre
    rw [Dispatcher.runChain_of_preflight, Cors.guarded_of_preflight hpre]
    refine ⟨?_, fun _ h => nomatch h⟩
    rintro _ ⟨⟩
    rfl
  | @guarded hpre name handler hname rest hrest =>
    have hpre' : Cors.isPreflight { req with attributes } = false := hpre
    have his : ∀ i ∈ rest, i.Passes AnyWorlds := by
      intro i hi
      obtain ⟨name, hi⟩ := hrest i hi
      exact hpass name i hi
    have hgives : (d.runChain (.guardedBy policy handler rest)
        ⟨{ req with attributes }, {}⟩).Gives AnyWorlds _ :=
      Dispatcher.runChain_gives appearance_anyWorlds hpre' htype (hidle name handler hname).1 his
    obtain ⟨hok, herror⟩ := (hgives w₂).1
    exact ⟨hok, fun e he => (herror e he).1⟩

private theorem Cors.guarded_of_not_cors {policy : Option CorsPolicy} {req : Request}
    (hreq : isCors req = false) : (guarded policy req).allowed := by
  have hnone : ¬ ∃ o, Judged req {} o := by
    rintro ⟨o, ho⟩
    rw [isCors, ho.origin] at hreq
    cases hreq
  cases hpre : isPreflight req with
  | true =>
    rw [guarded_of_preflight hpre]
    exact (process_of_not_judged hnone policy).1
  | false =>
    rw [guarded_of_actual hpre]
    cases policy with
    | none => rfl
    | some p => exact (process_of_not_judged hnone (some p)).1

namespace CommandLine

private theorem readRequest_dispatchType {method path : String} {headers : List String}
    {req : Request}
    (h : readRequest method path headers = .ok req) : req.dispatchType = .request := by
  obtain ⟨m, -, hread⟩ := except_bind_ok h
  clear h
  have hnew : (Request.new m path).dispatchType = .request := by
    rw [Request.new]
    split <;> rfl
  generalize Request.new m path = start at hread hnew
  induction headers generalizing start with
  | nil =>
    cases hread
    exact hnew
  | cons text headers ih =>
    rw [List.foldlM_cons] at hread
    obtain ⟨next, hnext, hread⟩ := except_bind_ok hread
    obtain ⟨⟨name, value⟩, -, hnext⟩ := except_bind_ok hnext
    cases hnext
    exact ih _ hread hnew

theorem Command.resolve_run {contents : Option String} {config method path : String}
    {headers : List String} {s : Settings} {req : Request}
    (hload : Settings.load config contents = .ok s)
    (hread : readRequest method path headers = .ok req) (w : World (Array String)) :
    ((Command.resolve config method path headers).execute contents).run.run w =
      (Report.resolution s req).run.run
        { w with journal := w.journal.push (s.loadedEvent config) } := by
  rw [Command.execute, loadSettings, hload, hread]
  rfl

/-- The printed lines say that the rules of cross-origin requests reject the request. A line is one
that is printed at once, not what a name with a line feed makes look like one. -/
def Rejects (lines : List String) : Prop :=
  ∃ status : Nat, corsLine ("rejected (" ++ toString status ++ ")") ∈ lines

/-- The printed lines say that these headers are added to the response. -/
def Lists (lines : List String) (headers : String) : Prop :=
  corsLine ("allowed [" ++ headers ++ "]") ∈ lines

/-- The headers of a response by which it answers a request from another origin, in any letter
case. -/
def crossOriginHeaders (res : Response) : Headers :=
  res.headers.filter fun h =>
    Text.startsWith "access-control-".toList (Text.lower h.1).toList || Text.sameFold h.1 Cors.vary

/-- The text of headers that stand in a line. -/
def headersText (hs : Headers) : String :=
  Text.joinWith "; " (hs.map fun h => h.1 ++ ": " ++ h.2)

/-- What the lines say of other origins is so of the end of a dispatch: it ends with a rejection
exactly if they say so, and listed headers are those of its response. -/
structure Foretells (lines : List String) (result : Except DispatchError (DispatchOutcome σ)) :
    Prop where
  rejected : Rejects lines ↔ Dispatcher.endStatus result = Cors.rejectionStatus
  listed : ∀ headers, Lists lines headers → ∀ outcome, result = .ok outcome →
    headers = headersText (crossOriginHeaders outcome.exchange.response)

private theorem corsHeaders_guarded (policy : Option CorsPolicy) (req : Request) :
    Text.joinWith "; " (Report.corsHeaders (Cors.guarded policy req).response) =
      headersText (crossOriginHeaders (Cors.guarded policy req).response) := by
  have hcase : ∀ name ∈ Cors.vary :: Cors.answerNames, Text.lower name = name := by decide
  have hsame : ∀ h ∈ (Cors.guarded policy req).response.headers,
      (Text.startsWith "access-control-".toList h.1.toList || Text.sameFold h.1 Cors.vary) =
        (Text.startsWith "access-control-".toList (Text.lower h.1).toList ||
          Text.sameFold h.1 Cors.vary) := by
    intro h hh
    rw [hcase h.1 (Cors.names_of_guarded policy req h hh)]
  rw [headersText, Report.corsHeaders, crossOriginHeaders, List.filter_congr hsame]

private theorem corsLine_inj {a b : String} : corsLine a = corsLine b ↔ a = b :=
  String.append_right_inj _

namespace Report

variable {policy : Option CorsPolicy} {req : Request} {lines : List String} {text : String}

theorem Served.mem_iff (h : Served policy req lines) :
    corsLine text ∈ lines ↔ text = corsText policy req := by
  obtain ⟨hbefore, hafter⟩ := h
  rw [List.mem_append, List.mem_cons, corsLine_inj]
  constructor
  · rintro (hmem | rfl | hmem)
    · exact absurd (hbefore _ hmem) (not_other_corsLine text)
    · rfl
    · exact absurd (hafter _ hmem) (not_other_corsLine text)
  · exact fun htext => .inr (.inl htext)

private theorem corsLine_not_mem_unserved (req : Request) (text : String) :
    corsLine text ∉ unserved req := by
  have hother : ∀ line ∈ unserved req, Other line := by
    rw [unserved, List.forall_mem_cons, List.forall_mem_singleton]
    exact ⟨other_requestLine req, 'H', rfl, by decide⟩
  exact fun hmem => not_other_corsLine text (hother _ hmem)

private theorem Served.ne_unserved (h : Served policy req lines) : lines ≠ unserved req := by
  rintro rfl
  exact corsLine_not_mem_unserved req _ (h.mem_iff.mpr rfl)

private theorem corsText_cases (policy : Option CorsPolicy) (req : Request) :
    let v := Cors.guarded policy req
    v.allowed = false ∧ corsText policy req = "rejected (" ++ toString v.response.status ++ ")" ∨
      v.allowed = true ∧ (corsText policy req = "not a CORS request" ∨
        corsText policy req = "allowed (no CORS headers added)" ∨
        corsText policy req =
          "allowed [" ++ headersText (crossOriginHeaders v.response) ++ "]") := by
  intro v
  cases hcors : Cors.isCors req with
  | false =>
    refine .inr ⟨Cors.guarded_of_not_cors hcors, .inl ?_⟩
    rw [corsText, hcors]
    rfl
  | true =>
    rw [corsText, if_pos hcors, verdictText, corsHeaders_guarded]
    cases hallowed : v.allowed with
    | false => exact .inl ⟨rfl, rfl⟩
    | true =>
      refine .inr ⟨rfl, .inr ?_⟩
      cases v.response.headers.has Cors.allowOrigin with
      | false => exact .inl rfl
      | true => exact .inr rfl

private theorem corsText_rejected_iff :
    (∃ status : Nat, "rejected (" ++ toString status ++ ")" = corsText policy req) ↔
      (Cors.guarded policy req).allowed = false := by
  rcases corsText_cases policy req with ⟨hrefused, htext⟩ | ⟨hallowed, htext⟩
  · exact ⟨fun _ => hrefused, fun _ => ⟨_, htext.symm⟩⟩
  · constructor
    · rintro ⟨status, hrejected⟩
      have hhead : ("rejected (" ++ toString status ++ ")").toList.head? = some 'r' :=
        head?_append (head?_append rfl _) _
      rw [hrejected] at hhead
      rcases htext with htext | htext | htext <;> rw [htext] at hhead
      · exact absurd hhead (by decide)
      · exact absurd hhead (by decide)
      · rw [head?_append (c := 'a') (head?_append rfl _)] at hhead
        exact absurd hhead (by decide)
    · rw [hallowed]
      exact fun h => nomatch h

private theorem eq_of_corsText (h : "allowed [" ++ text ++ "]" = corsText policy req) :
    text = headersText (crossOriginHeaders (Cors.guarded policy req).response) := by
  have hsign : ("allowed [" ++ text ++ "]").toList[8]? = some '[' := by
    rw [String.toList_append, String.toList_append]
    rfl
  have hhead : ("allowed [" ++ text ++ "]").toList.head? = some 'a' :=
    head?_append (head?_append rfl _) _
  rw [h] at hsign hhead
  rcases corsText_cases policy req with ⟨-, htext⟩ | ⟨-, htext | htext | htext⟩
  · rw [htext, head?_append (c := 'r') (head?_append rfl _)] at hhead
    exact absurd hhead (by decide)
  · rw [htext] at hhead
    exact absurd hhead (by decide)
  · rw [htext] at hsign
    exact absurd hsign (by decide)
  · rw [htext, String.append_left_inj, String.append_right_inj] at h
    exact h

private theorem foretells_unserved (req : Request) :
    Foretells (unserved req) (.ok (.notFound ⟨req, Dispatcher.notFound {}⟩) :
      Except DispatchError (DispatchOutcome σ)) where
  rejected := by
    have hstatus : 404 ≠ Cors.rejectionStatus := by decide
    refine ⟨?_, fun h => absurd h hstatus⟩
    rintro ⟨status, hrejected⟩
    exact absurd hrejected (corsLine_not_mem_unserved req _)
  listed headers hlisted := absurd hlisted (corsLine_not_mem_unserved req _)

private theorem Served.foretells (h : Served policy req lines)
    {result : Except DispatchError (DispatchOutcome σ)}
    (hok : ∀ outcome, result = .ok outcome →
      outcome.exchange.response = (Cors.guarded policy req).response)
    (herror : ∀ e, result = .error e → (Cors.guarded policy req).allowed) :
    Foretells lines result where
  rejected := by
    have hrejects : Rejects lines ↔ (Cors.guarded policy req).allowed = false := by
      rw [← corsText_rejected_iff, Rejects]
      exact exists_congr fun status => h.mem_iff
    rw [hrejects]
    have hstatus := Cors.guarded_status policy req
    cases result with
    | ok outcome =>
      rw [Dispatcher.endStatus, hok outcome rfl, hstatus]
      cases (Cors.guarded policy req).allowed <;> decide
    | error e =>
      rw [herror e rfl]
      exact ⟨fun h => (nomatch h), fun h => absurd h e.status_ne_rejection⟩
  listed headers hlisted outcome hend := by
    rw [hok outcome hend]
    exact eq_of_corsText (h.mem_iff.mp hlisted)

/-- What the tool prints of a request, when it accepts the settings and the request. -/
private theorem resolve_prints (config method path : String) (headers : List String)
    (contents : Option String) :
    Prints ((Command.resolve config method path headers).execute contents) fun _ lines =>
      ∃ s req m, Settings.load config contents = .ok s ∧ readRequest method path headers = .ok req ∧
        StandIn s m ∧ (m.Declines req ∧ lines = unserved req ∨
          ¬ m.Declines req ∧ Served (m.policyFor req) req lines) := by
  have hload : Prints (loadSettings config contents) fun s lines =>
      lines = [] ∧ Settings.load config contents = .ok s := by
    refine .bind_silent (.check _) fun s hs => ?_
    exact .emit_bind (.pure ⟨rfl, hs⟩)
  refine .bind_silent hload fun s hs => ?_
  refine .bind_silent (.check _) fun req hreq => ?_
  apply (resolution_prints s (readRequest_dispatchType hreq)).mono
  rintro _ lines ⟨m, hm, hlines⟩
  exact ⟨s, req, m, hs, hreq, hm, hlines⟩

end Report

/-- When the tool accepts settings and a request, they make a mapping over any handlers and
interceptors of the names in use, and what is printed is what a dispatch over that mapping ends with.
That nothing serves the request is printed exactly if nothing is found. What is printed of other
origins holds for handlers that leave responses alone and carry no policies of their own, behind
interceptors that let everything through. -/
theorem Command.resolve_predicts {contents : Option String} {config method path : String}
    {headers : List String} {w w' : World (Array String)}
    (haccepted : ((Command.resolve config method path headers).execute contents).run.run w =
      (.ok (), w')) :
    ∃ s req lines, Settings.load config contents = .ok s ∧
      readRequest method path headers = .ok req ∧ w'.app.toList = w.app.toList ++ lines ∧
      ∀ {σ : Type} (registry : HandlerRegistry σ) (available : String → Option (Interceptor σ))
        (w₀ : World σ), (∀ name ∈ s.handlerNames, (registry.find? name).isSome) →
        (∀ i ∈ s.interceptors, (available i.name).isSome) →
        ∃ m, ((s.mapping registry available).run.run w₀).1 = .ok m ∧
          ∀ d : Dispatcher σ, d.mappings = [m] → ∀ w₁,
            (lines = Report.unserved req ↔
              ∃ x, ((d.dispatch req).run w₁).1 = .ok (.notFound x)) ∧
            (registry.IsIdle → (∀ name i, available name = some i → i.Passes AnyWorlds) →
              Foretells lines ((d.dispatch req).run w₁).1) := by
  obtain ⟨lines, hprinted, s, req, m, hload, hread, ⟨registry, w₂, -, hm⟩, hlines⟩ :=
    Report.resolve_prints config method path headers contents w () w' haccepted
  refine ⟨s, req, lines, hload, hread, hprinted, ?_⟩
  intro σ registry' available' w₀ hnames havailable
  obtain ⟨m', hm'⟩ := Settings.mapping_builds hm hnames havailable w₀
  refine ⟨m', hm', fun d hd w₁ => ?_⟩
  rw [← Settings.declines_congr hm hm' req, ← Settings.policyFor_congr hm hm' req] at hlines
  have hurl : ∀ m ∈ d.mappings, ∃ router, m.lookup = .byUrl router := by
    rw [hd, List.forall_mem_singleton]
    exact Settings.lookup_of_mapping hm'
  rw [Dispatcher.notFound_iff hurl]
  rcases hlines with ⟨hdeclines, rfl⟩ | ⟨hserves, hserved⟩
  · have hall : ∀ m ∈ d.mappings, m.Declines req := by
      rw [hd, List.forall_mem_singleton]
      exact hdeclines
    refine ⟨⟨fun _ => hall, fun _ => rfl⟩, fun _ _ => ?_⟩
    rw [Dispatcher.dispatch_of_declines hurl hall {} w₁]
    exact Report.foretells_unserved req
  · constructor
    · rw [hd, List.forall_mem_singleton]
      exact ⟨fun h => absurd h hserved.ne_unserved, fun h => absurd h hserves⟩
    · intro hidle hpass
      obtain ⟨hok, herror⟩ := (Config.Settings.dispatch_gives hm' hidle hpass
        (readRequest_dispatchType hread) hserves hd w₁).1
      exact hserved.foretells hok herror

def siteText : String :=
  "routes: [\x7bpattern: /a, handler: page\x7d]\n" ++
    "cors: [\x7bpattern: /a, allowed_origins: [\"https://x.example\"]\x7d]"

def site : Settings where
  routes := [{ pattern := "/a", handler := "page" }]
  policies := [{ pattern := "/a", policy := { allowedOrigins := some ["https://x.example"] } }]

private theorem load_siteText :
    Settings.load "site.yaml" (some siteText) = .ok site := by decide +kernel

/-- A request for the page from yet another site. -/
def foreign : Request where
  method := .get
  path := "/a"
  headers := [("Origin", "https://y.example")]

private theorem pageRegistry_isIdle : Settings.pageRegistry.IsIdle := by
  intro name handler hfound
  cases List.mem_singleton.mp (HandlerRegistry.mem_of_find? hfound)
  exact ⟨fun _ _ _ => ⟨⟨rfl, fun _ h => nomatch h⟩, trivial⟩, rfl⟩

def rejectedLines : List String := [
  "Request: GET /a", "Handler: page", "Pattern: /a", "Interceptors: CorsInterceptor",
  "URI variables: <none>", "CORS: rejected (403)", "Media types: */*", "Unresolved view: <none>"]

theorem Command.resolve_predicts_site :
    ∃ w', ((Command.resolve "site.yaml" "GET" "/a" ["Origin: https://y.example"]).execute
        (some siteText)).run.run { app := #[] } = (.ok (), w') ∧ w'.app.toList = rejectedLines ∧
      ∃ m, ((site.mapping Settings.pageRegistry fun _ => none).run.run { app := () }).1 = .ok m ∧
        ∀ d : Dispatcher Unit, d.mappings = [m] → ∀ w,
          Dispatcher.endStatus ((d.dispatch foreign).run w).1 = 403 := by
  let start : World (Array String) := { app := #[], journal := #[site.loadedEvent "site.yaml"] }
  have hread : readRequest "GET" "/a" ["Origin: https://y.example"] = .ok foreign := rfl
  have hok : ((Report.resolution site foreign).run.run start).1 = .ok () := by decide +kernel
  have hlines : ((Report.resolution site foreign).run.run start).2.app.toList = rejectedLines := by
    decide +kernel
  have hreport : (Report.resolution site foreign).run.run start =
      (.ok (), ((Report.resolution site foreign).run.run start).2) := Prod.ext hok rfl
  have haccepted := (Command.resolve_run load_siteText hread { app := #[] }).trans hreport
  obtain ⟨s, req, lines, hload, hrequest, hprinted, hpredicts⟩ := Command.resolve_predicts haccepted
  cases load_siteText.symm.trans hload
  cases hread.symm.trans hrequest
  obtain rfl : rejectedLines = lines := hlines.symm.trans hprinted
  obtain ⟨m, hm, hends⟩ := hpredicts Settings.pageRegistry (fun _ => none) { app := () }
    (by decide) (by decide)
  refine ⟨_, haccepted, hlines, m, hm, fun d hd w => ?_⟩
  have hforetells := (hends d hd w).2 pageRegistry_isIdle fun _ _ h => nomatch h
  exact hforetells.rejected.mp ⟨403, by decide⟩

/-- Two pages, one by a handler that is named like none. -/
def oddText : String :=
  "routes: [\x7bpattern: /a, handler: page\x7d, \x7bpattern: /b, handler: \"<none> (404)\"\x7d]"

def odd : Settings where
  routes := [{ pattern := "/a", handler := "page" }, { pattern := "/b", handler := "<none> (404)" }]

private theorem load_oddText :
    Settings.load "odd.yaml" (some oddText) = .ok odd := by decide +kernel

/-- The handlers of the pages leave responses alone. One of them is for one other site only, by a
policy of its own. -/
def oddRegistry : HandlerRegistry Unit := ⟨[
  ("page", {
    name := "page"
    run _ res := return (.ok .handled, res)
    cors := some { allowedOrigins := some ["https://x.example"] } }),
  ("<none> (404)", { name := "<none> (404)", run := fun _ res => return (.ok .handled, res) })]⟩

private theorem oddRegistry_leavesAlone {name : String} {handler : Handler Unit}
    (hfound : oddRegistry.find? name = some handler) : handler.LeavesAlone AnyWorlds := by
  cases List.mem_pair.mp (HandlerRegistry.mem_of_find? hfound) with
  | inl hpage =>
    cases hpage
    exact fun _ _ _ => ⟨⟨rfl, fun _ h => nomatch h⟩, trivial⟩
  | inr hodd =>
    cases hodd
    exact fun _ _ _ => ⟨⟨rfl, fun _ h => nomatch h⟩, trivial⟩

/-- The tool does not know the policy that the first handler carries, and it prints the name of the
second one. -/
theorem Command.resolve_overlooks_own :
    ∃ w₁ w₂ m, ((Command.resolve "odd.yaml" "GET" "/a" ["Origin: https://y.example"]).execute
        (some oddText)).run.run { app := #[] } = (.ok (), w₁) ∧ ¬ Rejects w₁.app.toList ∧
      ((Command.resolve "odd.yaml" "GET" "/b" []).execute (some oddText)).run.run { app := #[] } =
        (.ok (), w₂) ∧ "Handler: <none> (404)" ∈ w₂.app.toList ∧
      (∀ name handler, oddRegistry.find? name = some handler → handler.LeavesAlone AnyWorlds) ∧
      ((odd.mapping oddRegistry fun _ => none).run.run { app := () }).1 = .ok m ∧
      let d : Dispatcher Unit := { mappings := [m] }
      Dispatcher.endStatus ((d.dispatch foreign).run { app := () }).1 = 403 ∧
      ¬ ∃ x, ((d.dispatch { method := .get, path := "/b" }).run { app := () }).1 =
        .ok (.notFound x) := by
  let start : World (Array String) := { app := #[], journal := #[odd.loadedEvent "odd.yaml"] }
  let other : Request := { method := .get, path := "/b" }
  let report (req : Request) := (Report.resolution odd req).run.run start
  have hread : readRequest "GET" "/a" ["Origin: https://y.example"] = .ok foreign := rfl
  have hread' : readRequest "GET" "/b" [] = .ok other := rfl
  have hok : (report foreign).1 = .ok () ∧ (report other).1 = .ok () := by decide +kernel
  have hreport : report foreign = (.ok (), (report foreign).2) := Prod.ext hok.1 rfl
  have hreport' : report other = (.ok (), (report other).2) := Prod.ext hok.2 rfl
  have hsaid : ∀ line ∈ (report foreign).2.app.toList,
      line.toList.take 7 ≠ "CORS: r".toList := by
    decide +kernel
  have hnamed : "Handler: <none> (404)" ∈ (report other).2.app.toList := by decide +kernel
  have hrejects : ¬ Rejects (report foreign).2.app.toList := by
    rintro ⟨status, hmem⟩
    apply hsaid _ hmem
    rw [corsLine, String.toList_append, String.toList_append, String.toList_append]
    rfl
  have hdispatched : ((odd.mapping oddRegistry fun _ => none).run.run { app := () }).1.toOption.any
      fun m =>
        let d : Dispatcher Unit := { mappings := [m] }
        Dispatcher.endStatus ((d.dispatch foreign).run { app := () }).1 = 403 ∧
          Dispatcher.endStatus ((d.dispatch other).run { app := () }).1 = 200 := by
    decide +kernel
  obtain ⟨m, hm, hends⟩ := exists_ok_of_any hdispatched
  obtain ⟨hforeign, hother⟩ := of_decide_eq_true hends
  refine ⟨_, _, m, (Command.resolve_run load_oddText hread { app := #[] }).trans hreport, hrejects,
    (Command.resolve_run load_oddText hread' { app := #[] }).trans hreport', hnamed,
    fun _ _ => oddRegistry_leavesAlone, hm, hforeign, ?_⟩
  have hurl : ∀ m' ∈ [m], ∃ router, m'.lookup = .byUrl router :=
    List.forall_mem_singleton.mpr (Settings.lookup_of_mapping hm)
  intro hfound
  have hdeclines := (Dispatcher.notFound_iff hurl {} _).mp hfound
  rw [Dispatcher.dispatch_of_declines hurl hdeclines] at hother
  cases hother

end CommandLine

end Switchyard
