import Switchyard.CommandLine.Report
import Switchyard.Proofs.Config.Likeness
import Switchyard.Proofs.Dispatch.Agreement
/-!
# What reports print

The report on a request, when it succeeds, is that nothing serves the request, or it has one line on
cross-origin requests, which says what the guard of the chain does (`Report.resolution_prints`).
-/

namespace Switchyard.CommandLine

open Config (Failure Settings Setup)

variable {α β : Type}

def SamePrint (w w' : World (Array String)) : Prop := w.app = w'.app

private theorem appearance_samePrint : Appearance SamePrint := Appearance.of_app id

theorem head?_append {text : String} {c : Char} (h : text.toList.head? = some c) (rest : String) :
    (text ++ rest).toList.head? = some c := by
  rw [String.toList_append, List.head?_append, h]
  rfl

/-- A line that begins with another letter than the one on cross-origin requests. -/
def Other (line : String) : Prop := ∃ c, line.toList.head? = some c ∧ c ≠ 'C'

theorem Other.append {line : String} (h : Other line) (rest : String) : Other (line ++ rest) := by
  obtain ⟨c, hc, hne⟩ := h
  exact ⟨c, head?_append hc rest, hne⟩

def corsLine (text : String) : String := "CORS: " ++ text

theorem not_other_corsLine (text : String) : ¬ Other (corsLine text) := by
  rintro ⟨c, hc, hne⟩
  rw [corsLine, head?_append (c := 'C') rfl] at hc
  exact hne (Option.some.inj hc).symm

namespace Report

/-- When a report succeeds, its result and the lines that it printed are so. -/
def Prints (x : Report α) (P : α → List String → Prop) : Prop :=
  ∀ w a w', x.run.run w = (.ok a, w') →
    ∃ lines, w'.app.toList = w.app.toList ++ lines ∧ P a lines

namespace Prints

variable {x : Report α} {f : α → Report β} {P P' : α → List String → Prop}
  {Q : β → List String → Prop}

protected theorem pure {a : α} (h : P a []) : Prints (pure a) P := by
  rintro w _ _ ⟨⟩
  exact ⟨[], (List.append_nil _).symm, h⟩

protected theorem bind (hx : x.Prints P)
    (hf : ∀ a lines, P a lines → (f a).Prints fun b more => Q b (lines ++ more)) :
    (x >>= f).Prints Q := by
  intro w b w' h
  rw [ExceptT.run_bind, StateT.run_bind] at h
  generalize hrun : x.run.run w = answer at h
  obtain ⟨result, w₁⟩ := answer
  cases result with
  | error e => cases h
  | ok a =>
    obtain ⟨lines, hlines, ha⟩ := hx w a w₁ hrun
    obtain ⟨more, hmore, hb⟩ := hf a lines ha w₁ b w' h
    refine ⟨lines ++ more, ?_, hb⟩
    rw [hmore, hlines, List.append_assoc]

theorem mono (hx : x.Prints P) (h : ∀ a lines, P a lines → P' a lines) : x.Prints P' := by
  intro w a w' hrun
  obtain ⟨lines, hlines, ha⟩ := hx w a w' hrun
  exact ⟨lines, hlines, h a lines ha⟩

theorem ran (hx : x.Prints P) :
    x.Prints fun a lines => P a lines ∧ ∃ w, (x.run.run w).1 = .ok a := by
  intro w a w' hrun
  obtain ⟨lines, hlines, ha⟩ := hx w a w' hrun
  exact ⟨lines, hlines, ha, w, congrArg (·.1) hrun⟩

theorem line (text : String) : Prints (Report.line text) fun _ lines => lines = [text] := by
  rintro w _ _ ⟨⟩
  exact ⟨[text], Array.toList_push, rfl⟩

theorem lift {a : Act (Array String) α} {p : α → Prop} (ha : a.Gives SamePrint p) :
    Prints (ExceptT.lift a) fun x lines => lines = [] ∧ p x := by
  intro w x w' h
  obtain ⟨hx, hw⟩ := ha w
  obtain ⟨hvalue, rfl⟩ := Prod.mk.inj h
  obtain rfl := Except.ok.inj hvalue
  refine ⟨[], ?_, rfl, hx⟩
  rw [List.append_nil]
  exact congrArg Array.toList hw.symm

theorem check (result : Except Failure α) :
    Prints (Setup.check result) fun a lines => lines = [] ∧ result = .ok a := by
  rintro w a _ ⟨⟩
  exact ⟨[], (List.append_nil _).symm, rfl, rfl⟩

private theorem lift_silent {a : Act (Array String) α} (ha : a.Gives SamePrint fun _ => True) :
    Prints (ExceptT.lift a) fun _ lines => lines = [] :=
  (lift ha).mono fun _ _ h => h.1

theorem fail (e : Failure) : Prints (throw e : Report α) P := by
  rintro w a w' ⟨⟩

theorem orFail (result : Except DispatchError α) :
    Prints (Report.orFail result) fun a lines => lines = [] ∧ result = .ok a := by
  apply (check _).mono
  rintro a lines ⟨rfl, hresult⟩
  cases result with
  | error e => cases hresult
  | ok b =>
    cases hresult
    exact ⟨rfl, rfl⟩

theorem bind_silent {p : α → Prop} (hx : x.Prints fun a lines => lines = [] ∧ p a)
    (hf : ∀ a, p a → (f a).Prints Q) : (x >>= f).Prints Q := by
  apply Prints.bind hx
  rintro a _ ⟨rfl, ha⟩
  exact hf a ha

theorem emit_bind {e : Event} {f : Unit → Report β} (hf : (f ()).Prints Q) :
    Prints (Setup.emit e >>= f) Q := by
  apply Prints.bind (lift_silent (a := Act.emit e) fun _ => ⟨trivial, rfl⟩)
  rintro _ _ rfl
  exact hf

private theorem line_bind {text : String} {f : Unit → Report β}
    (hf : (f ()).Prints fun b lines => Q b (text :: lines)) : (Report.line text >>= f).Prints Q := by
  apply Prints.bind (line text)
  rintro _ _ rfl
  exact hf

theorem optional {γ : Type} (o : Option γ) (f : γ → String) :
    Prints (o.toList.forM fun a => Report.line (f a)) fun _ lines => lines = o.toList.map f := by
  cases o with
  | none => exact .pure rfl
  | some a =>
    change Prints (Report.line (f a) >>= fun _ => pure ()) _
    exact .line_bind (.pure rfl)

private theorem mapM_silent {f : α → Report β} {as : List α}
    (hf : ∀ a, (f a).Prints fun _ lines => lines = []) :
    (as.mapM f).Prints fun _ lines => lines = [] := by
  induction as with
  | nil => exact .pure rfl
  | cons a as ih =>
    rw [List.mapM_cons]
    apply Prints.bind (hf a)
    rintro b _ rfl
    apply Prints.bind ih
    rintro bs _ rfl
    exact .pure rfl

end Prints

def StandIns (registry : HandlerRegistry (Array String)) : Prop :=
  ∀ entry ∈ registry.entries, ∃ name, entry.2 = standIn name

private theorem StandIns.of_find? {registry : HandlerRegistry (Array String)}
    (h : StandIns registry)
    {name : String} {handler : Handler (Array String)} (hfound : registry.find? name = some handler) :
    ∃ name, handler = standIn name := h _ (HandlerRegistry.mem_of_find? hfound)

private theorem register_gives {registry : HandlerRegistry (Array String)} (h : StandIns registry)
    (name : String) :
    (registry.register name (standIn name)).Gives SamePrint StandIns := by
  apply Act.Gives.emit_bind appearance_samePrint
  refine .pure appearance_samePrint fun entry hentry => ?_
  rcases List.mem_append.mp hentry with hold | hnew
  · exact h entry (List.mem_of_mem_filter hold)
  · rw [List.mem_singleton.mp hnew]
    exact ⟨name, rfl⟩

private theorem registerAll_gives (names : List String) {registry : HandlerRegistry (Array String)}
    (h : StandIns registry) :
    (names.foldlM (fun registry name => HandlerRegistry.register registry name (standIn name))
      registry).Gives SamePrint StandIns := by
  induction names generalizing registry with
  | nil => exact .pure appearance_samePrint h
  | cons name names ih =>
    rw [List.foldlM_cons]
    apply Act.Gives.bind appearance_samePrint (register_gives h name)
    exact fun _ h => ih h

/-- The interceptors of a report, each of which does nothing. -/
def standIns (s : Settings) (name : String) : Option (Interceptor (Array String)) :=
  if s.interceptors.any (·.name == name) then some { name } else none

private theorem standIns_pass {s : Settings} {name : String} {i : Interceptor (Array String)}
    (h : standIns s name = some i) : i.Passes SamePrint := by
  rw [standIns] at h
  split at h
  · cases h
    exact Interceptor.passes_default appearance_samePrint name
  · cases h

private theorem settingsMapping_prints (s : Settings) (registry : HandlerRegistry (Array String))
    (available : String → Option (Interceptor (Array String))) :
    Prints (s.mapping registry available) fun _ lines => lines = [] := by
  have hbuild (i : Config.InterceptorSettings) :
      Prints (i.build available) fun _ lines => lines = [] := by
    rw [Config.InterceptorSettings.build]
    split
    · exact .fail _
    · refine .bind_silent (.check _) fun scope _ => ?_
      exact .emit_bind (.pure rfl)
  have hrouter : Prints (s.router : Setup (Array String) _) fun _ lines => lines = [] := by
    rw [Settings.router]
    refine .bind_silent (.check _) fun routes _ => ?_
    exact .emit_bind (.pure rfl)
  rw [Settings.mapping]
  split
  · exact .fail _
  · apply Prints.bind hrouter
    rintro router _ rfl
    apply Prints.bind (.mapM_silent hbuild)
    rintro interceptors _ rfl
    refine .bind_silent (.check _) fun table _ => ?_
    have hnew (m : HandlerMapping (Array String)) : m.new.Gives SamePrint fun _ => True :=
      .emit_bind appearance_samePrint (.pure appearance_samePrint trivial)
    exact .lift_silent (hnew _)

/-- The mapping of a report is built from the settings, over code that does nothing. -/
private theorem mapping_prints (s : Settings) :
    Prints (Report.mapping s) fun m lines => lines = [] ∧ ∃ registry w, StandIns registry ∧
      ((s.mapping registry (standIns s)).run.run w).1 = .ok m := by
  have hnone : StandIns {} := fun entry hentry => nomatch hentry
  refine .bind_silent (.lift (registerAll_gives s.handlerNames hnone)) fun registry hregistry => ?_
  apply (settingsMapping_prints s registry (standIns s)).ran.mono
  rintro m lines ⟨rfl, w, hbuilt⟩
  exact ⟨rfl, registry, w, hregistry, hbuilt⟩

variable {s : Settings} {registry : HandlerRegistry (Array String)} {policy : Option CorsPolicy}
  {req : Request} {c : Chain (Array String)}

/-- What is found out about a cross-origin request is what the guard of its chain does. -/
private theorem corsOutcome_prints
    (hc : Settings.Makes registry (standIns s) policy req c) (htype : req.dispatchType = .request) :
    Prints (corsOutcome c req) fun x lines => lines = [] ∧
      x = ((Cors.guarded policy req).allowed, (Cors.guarded policy req).response) := by
  have hR := appearance_samePrint
  cases hc with
  | answer hpre =>
    let c : Chain (Array String) := { handler := CorsProcessor.standard.preFlightHandler policy }
    have hpassed : (c.preHandle req {}).Gives SamePrint
        (· = (.ok true, { c with state := .preHandling }, {})) := fun w => ⟨rfl, rfl⟩
    have hinvoked (c' : Chain (Array String)) (hc' : c'.handler = c.handler) :
        (c'.invoke req {}).Gives SamePrint fun x => x.1 = .ok .handled ∧
          x.2.2 = (Cors.process policy req {}).response ∧ x.2.1.interceptors = c'.interceptors := by
      rw [Chain.invoke, hc']
      apply Act.Gives.bind hR (CorsProcessor.preFlightHandler_gives hR policy req {})
      rintro _ rfl
      exact .pure hR ⟨rfl, rfl, rfl⟩
    rw [corsOutcome]
    refine .bind_silent (.lift hpassed) ?_
    rintro _ rfl
    refine .bind_silent (.orFail _) fun passed hpassed => ?_
    cases hpassed
    rw [hpre, Bool.and_true]
    refine .bind_silent (.lift (hinvoked { c with state := .preHandling } rfl)) ?_
    rintro ⟨result, c', res⟩ ⟨rfl, rfl, hnone⟩
    refine .bind_silent (.orFail _) fun _ _ => ?_
    have hleave : ∀ i ∈ c'.interceptors, i.LeavesAlone SamePrint := by
      intro i hi
      rw [hnone] at hi
      cases hi
    refine .bind_silent (.lift (Chain.complete_gives hR hleave none)) ?_
    rintro ⟨c'', res⟩ ⟨rfl, -, -⟩
    refine .pure ⟨rfl, ?_⟩
    have hstatus := Cors.process_status policy req
    rw [Cors.guarded_of_preflight hpre, hstatus]
    cases (Cors.process policy req {}).allowed <;> rfl
  | @guarded hpre name handler hname rest hrest =>
    have his : ∀ i ∈ rest, i.Passes SamePrint := by
      intro i hi
      obtain ⟨name, hi⟩ := hrest i hi
      exact standIns_pass hi
    rw [corsOutcome]
    refine .bind_silent (.lift (Chain.preHandle_guarded hR hpre htype his)) ?_
    rintro ⟨result, c, res⟩ ⟨rfl, rfl, -, hc⟩
    refine .bind_silent (.orFail _) fun passed hpassed => ?_
    cases hpassed
    rw [hpre, Bool.and_false]
    have hleave := Chain.guardedBy_leavesAlone policy handler hR his
    dsimp only at hc
    rw [← hc] at hleave
    refine .bind_silent (.lift (Chain.complete_gives hR hleave none)) ?_
    rintro ⟨c', res⟩ ⟨rfl, -, -⟩
    exact .pure ⟨rfl, rfl⟩

/-- What is said to a cross-origin request of which this was found out. -/
def verdictText (v : Cors.Verdict) : String :=
  if !v.allowed then "rejected (" ++ toString v.response.status ++ ")"
  else if !v.response.headers.has Cors.allowOrigin then "allowed (no CORS headers added)"
  else "allowed [" ++ Text.joinWith "; " (corsHeaders v.response) ++ "]"

/-- What is said to a request under the policy that applies if one does. -/
def corsText (policy : Option CorsPolicy) (req : Request) : String :=
  if Cors.isCors req then verdictText (Cors.guarded policy req) else "not a CORS request"

private theorem corsDecision_prints
    (hc : Settings.Makes registry (standIns s) policy req c) (htype : req.dispatchType = .request) :
    Prints (corsDecision c req) fun text lines => lines = [] ∧ text = corsText policy req := by
  rw [corsDecision, corsText]
  cases Cors.isCors req with
  | false => exact .pure ⟨rfl, rfl⟩
  | true =>
    change Prints _ fun text lines => lines = [] ∧ text = verdictText (Cors.guarded policy req)
    refine .bind_silent (corsOutcome_prints hc htype) ?_
    rintro _ rfl
    rw [verdictText]
    dsimp only
    split
    · exact .pure ⟨rfl, rfl⟩
    · split
      · exact .pure ⟨rfl, rfl⟩
      · exact .pure ⟨rfl, rfl⟩

private theorem chain_prints (c : Chain (Array String)) (req : Request) :
    Prints (Report.chain c req) fun _ lines => ∀ line ∈ lines, Other line := by
  have hhandler (name : String) : Other ("Handler: " ++ name) :=
    Other.append ⟨'H', rfl, by decide⟩ name
  have hpattern (pattern : String) : Other ("Pattern: " ++ pattern) :=
    Other.append ⟨'P', rfl, by decide⟩ pattern
  have hinterceptors (names : String) : Other ("Interceptors: " ++ names) :=
    Other.append ⟨'I', rfl, by decide⟩ names
  have hvariables (texts : String) : Other ("URI variables: " ++ texts) :=
    Other.append ⟨'U', rfl, by decide⟩ texts
  rw [Report.chain]
  apply Prints.line_bind
  apply Prints.bind (.optional _ _)
  rintro _ _ rfl
  apply Prints.line_bind
  apply (Prints.line _).mono
  rintro _ _ rfl
  simp only [List.forall_mem_cons, List.forall_mem_append, List.forall_mem_map]
  exact ⟨hhandler _, fun pattern _ => hpattern pattern, hinterceptors _, hvariables _, nofun⟩

/-- A resolver that asks no others refuses, or it shows one of the views that it has itself. -/
private theorem negotiating_gives {R : World (Array String) → World (Array String) → Prop}
    (hR : Appearance R) {r : NegotiatingResolver (Array String)} (hr : r.resolvers = [])
    (name locale : String) (req : Request) :
    (r.resolve name locale req).Gives R fun _ => True := by
  have hrefuse : (r.refuse name).Gives R fun _ => True := by
    rw [NegotiatingResolver.refuse]
    split <;> exact .emit_bind hR (.pure hR trivial)
  rw [NegotiatingResolver.resolve]
  apply Act.Gives.bind hR (.emitAll hR _)
  intro _ _
  split
  · exact .bind hR hrefuse fun _ _ => .pure hR trivial
  · rw [hr, NegotiatingResolver.collect, pure_bind]
    dsimp only
    split
    · exact .bind hR hrefuse fun _ _ => .pure hR trivial
    · exact .emit_bind hR (.pure hR trivial)

private theorem negotiation_prints (s : Settings) (c : Chain (Array String)) (req : Request) :
    Prints (negotiation s c req) fun _ lines => ∀ line ∈ lines, Other line := by
  have hR := appearance_samePrint
  have hresolver : Prints (Setup.check (s.negotiation.viewResolver [] []))
      fun (r : NegotiatingResolver (Array String)) lines => lines = [] ∧ r.resolvers = [] := by
    apply (Prints.check _).mono
    rintro r lines ⟨rfl, hr⟩
    obtain ⟨negotiator, -, hr⟩ := except_bind_ok hr
    cases hr
    exact ⟨rfl, List.mergeSort_nil⟩
  have htypes (types : String) : Other ("Media types: " ++ types) :=
    Other.append ⟨'M', rfl, by decide⟩ types
  have hview (view : String) : Other ("Unresolved view: " ++ view) :=
    Other.append ⟨'U', rfl, by decide⟩ view
  rw [negotiation]
  refine .bind_silent hresolver fun r hr => ?_
  refine .bind_silent (.lift (.emitAll hR _)) fun _ _ => ?_
  apply Prints.line_bind
  refine .bind_silent (.lift (negotiating_gives hR hr _ _ _)) fun view _ => ?_
  refine .bind_silent (.orFail _) fun view _ => ?_
  apply (Prints.line _).mono
  rintro _ _ rfl
  simp only [List.forall_mem_cons]
  exact ⟨htypes _, hview _, nofun⟩

/-- A mapping of the settings over handlers and interceptors that do nothing. -/
def StandIn (s : Settings) (m : HandlerMapping (Array String)) : Prop :=
  ∃ registry w, StandIns registry ∧ ((s.mapping registry (standIns s)).run.run w).1 = .ok m

def requestLine (req : Request) : String := "Request: " ++ req.method.name ++ " " ++ req.path

theorem other_requestLine (req : Request) : Other (requestLine req) := by
  have hstart : Other "Request: " := ⟨'R', rfl, by decide⟩
  exact (hstart.append _).append _ |>.append _

/-- The lines about a request that nothing serves. -/
def unserved (req : Request) : List String := [requestLine req, "Handler: <none> (404)"]

/-- The lines about a request that something serves: one on cross-origin requests, with others
before and after it. -/
inductive Served (policy : Option CorsPolicy) (req : Request) : List String → Prop where
  | of_other {before after : List String} (hbefore : ∀ line ∈ before, Other line)
      (hafter : ∀ line ∈ after, Other line) :
      Served policy req (before ++ corsLine (corsText policy req) :: after)

theorem resolution_prints (s : Settings) {req : Request} (htype : req.dispatchType = .request) :
    Prints (resolution s req) fun _ lines => ∃ m, StandIn s m ∧
      (m.Declines req ∧ lines = unserved req ∨
        ¬ m.Declines req ∧ Served (m.policyFor req) req lines) := by
  have hR := appearance_samePrint
  rw [resolution]
  refine .bind_silent (mapping_prints s) ?_
  rintro m ⟨registry, w, hregistry, hm⟩
  apply Prints.line_bind
  have hplain : ∀ name handler, registry.find? name = some handler → handler.cors = none := by
    intro name handler hfound
    obtain ⟨name, rfl⟩ := hregistry.of_find? hfound
    rfl
  obtain ⟨router, hlookup⟩ := Settings.lookup_of_mapping hm
  have hlooks (req : Request) (method : Method) :
      (m.lookup req method).Gives SamePrint fun _ => True := by
    rw [hlookup]
    exact Lookup.byUrl_gives hR router req method
  by_cases hdeclines : m.Declines req
  · have hnone : (m.resolve req).Gives SamePrint (· = (.ok none, req)) := fun w₁ =>
      ⟨HandlerMapping.resolve_of_declines hlookup hdeclines w₁,
        (HandlerMapping.resolve_gives hR hlooks req w₁).2⟩
    refine .bind_silent (.lift hnone) ?_
    rintro _ rfl
    apply (Prints.line _).mono
    rintro _ _ rfl
    exact ⟨m, ⟨registry, w, hregistry, hm⟩, .inl ⟨hdeclines, rfl⟩⟩
  · have hfound : (m.resolve req).Gives SamePrint fun x => ∃ c attributes,
        x = (.ok (some c), { req with attributes }) ∧
          Settings.Makes registry (standIns s) (m.policyFor req) req c := fun w₁ =>
      ⟨Settings.resolve_of_not_declines hm hplain hdeclines w₁,
        (HandlerMapping.resolve_gives hR hlooks req w₁).2⟩
    refine .bind_silent (.lift hfound) ?_
    rintro _ ⟨c, attributes, rfl, hc⟩
    refine .bind_silent (.orFail _) fun found hfound => ?_
    cases hfound
    apply Prints.emit_bind
    apply Prints.bind (chain_prints c { req with attributes })
    intro _ before hbefore
    refine .bind_silent (corsDecision_prints (hc.published attributes) htype) ?_
    rintro text rfl
    apply Prints.line_bind
    apply (negotiation_prints s c { req with attributes }).mono
    intro _ after hafter
    refine ⟨m, ⟨registry, w, hregistry, hm⟩, .inr ⟨hdeclines, ?_⟩⟩
    have hbefore' := List.forall_mem_cons.mpr ⟨other_requestLine req, hbefore⟩
    exact .of_other hbefore' hafter

end Report

end Switchyard.CommandLine
