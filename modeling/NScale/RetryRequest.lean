import NScale.HttpHandler

/-!
# What a repeated request is

Each request that the handler hands over to be sent, in order: the inbound request itself, and
after it what is built from the saved method and the saved text of the URI, without headers.
-/
namespace NScale.Http
open Service (Within Code Config Area ForwardRequestError)

/-- Hand a request over. -/
def handOver (forwarded : List Inbound) : HttpOp → List Inbound
  | .send _ _ req => forwarded ++ [req]
  | .other _ => forwarded

/-- The requests that have been handed over, the oldest first. -/
def forwarded (steps : Program.Steps HttpOps) : List Inbound :=
  steps.foldl (fun sent step => handOver sent step.1) []

/-- All of them are the first one, but for headers of one connection. -/
def SameRequest (sent : List Inbound) : Prop :=
  ∀ first ∈ sent.head?, ∀ req ∈ sent, req.method = first.method ∧
    req.uri.target = first.uri.target ∧ endToEnd req.headers = endToEnd first.headers

variable {α β : Type} {req again : Inbound} {sent : List Inbound} {cfg : Config}

/-- The request has been handed over, and after it only what is built for a repetition. -/
def Repeats (req : Inbound) (sent : List Inbound) : Prop :=
  ∃ rest, sent = req :: rest ∧ ∀ r ∈ rest, buildRetryRequest req.method req.uri.target = some r

/-- A repetition has lost the headers and nothing else. -/
lemma eq_of_built (built : buildRetryRequest req.method req.uri.target = some again) :
    again.method = req.method ∧ again.uri.target = req.uri.target ∧ again.headers = [] := by
  obtain ⟨uri, parsed, rfl⟩ := Option.map_eq_some_iff.mp built
  exact ⟨rfl, Uri.target_of_parse parsed, rfl⟩

lemma Repeats.append (repeats : Repeats req sent)
    (built : buildRetryRequest req.method req.uri.target = some again) :
    Repeats req (sent ++ [again]) := by
  obtain ⟨rest, rfl, all⟩ := repeats
  refine ⟨rest ++ [again], rfl, fun r mem => ?_⟩
  obtain mem | mem := List.mem_append.mp mem
  · exact all r mem
  · exact List.mem_singleton.mp mem ▸ built

lemma Repeats.same_iff (repeats : Repeats req sent) (more : 1 < sent.length) :
    SameRequest sent ↔ endToEnd req.headers = [] := by
  obtain ⟨rest, rfl, built⟩ := repeats
  constructor
  · intro same
    obtain ⟨r, mem⟩ := List.exists_mem_of_length_pos (Nat.lt_of_succ_lt_succ more)
    have equal := (same req rfl r (List.mem_cons_of_mem req mem)).2.2
    rw [← equal, (eq_of_built (built r mem)).2.2]
    rfl
  · rintro none_ first same r mem
    obtain rfl : req = first := Option.some.inj same
    obtain rfl | mem := List.mem_cons.mp mem
    · exact ⟨rfl, rfl, rfl⟩
    · obtain ⟨method, target, headers⟩ := eq_of_built (built r mem)
      exact ⟨method, target, by rw [headers, none_]; rfl⟩

/-- The operation sends a request whose headers are unknown. -/
def sends : Service.Op → Bool
  | .send .. => true
  | _ => false

/-- One request is handed over as it may be; after that only the request itself is repeated. -/
def repeatMonitor (req : Inbound) : Monitor HttpOps (List Inbound) where
  requires sent
    | .send _ _ r => sent = [] ∨
        Repeats req sent ∧ buildRetryRequest req.method req.uri.target = some r
    | .other op => sends op = false
  assumes _ _ _ := True
  next sent op _ := handOver sent op

/-- The code hands over only the request built for a repetition, if any. -/
def Resends (built : Option Inbound) : HttpOp → Prop
  | .send _ _ r => built = some r
  | .other op => sends op = false

section
variable {built : Option Inbound}

lemma plain_resends {p : Code α} (uses : p.Uses fun op => sends op = false) :
    (plain p).Uses (Resends built) := .lift uses

lemma perform_resends {op : Service.Op} (quiet : sends op = false) :
    (plain (Service.perform op)).Uses (Resends built) := plain_resends ⟨quiet, fun _ => trivial⟩

lemma within_resends {areas : List Area} {p : Code α} (uses : p.Uses (Within areas))
    (apart : .exchange ∉ areas) : (plain p).Uses (Resends built) := by
  apply plain_resends
  apply Program.Uses.mono uses
  intro op within
  cases op with
  | send => exact absurd within apart
  | _ => rfl

lemma dropLifecycle_resends : (plain Service.dropLifecycle).Uses (Resends built) :=
  plain_resends ⟨rfl, fun _ => ⟨rfl, fun _ => trivial⟩⟩

variable (job : JobId) (ep : Endpoint) {method : Service.Method} {text : String}
  (same : buildRetryRequest method text = built)
include same

lemma again_resends : (Http.again job ep method text).Uses (Resends built) := by
  unfold Http.again
  cases found : buildRetryRequest method text with
  | none => trivial
  | some r =>
    have permitted : Resends built (.send job ep r) := same.symm.trans found
    exact .bind (.perform permitted fun _ => perform_resends rfl) fun _ => trivial

lemma retry_resends (err : ForwardRequestError) (delays : List ℕ) :
    (retry job ep method text err delays).Uses (Resends built) := by
  induction delays generalizing err with
  | nil => trivial
  | cons millis delays ih =>
    apply Program.Uses.bind (perform_resends rfl)
    intro _
    apply Program.Uses.bind (again_resends job ep same)
    intro outcome
    match outcome with
    | none => trivial
    | some (.ok resp) => trivial
    | some (.error e) =>
      dsimp only
      split
      · exact ih e
      · trivial

variable (reg : JobRegistration)

lemma clearAndForward_resends :
    (clearAndForward cfg reg ep method text).Uses (Resends built) := by
  apply Program.Uses.bind (within_resends (Service.clearMissingJobCounter_within reg.jobId) (by simp))
  intro _
  apply Program.Uses.bind (again_resends reg.jobId ep same)
  intro outcome
  cases outcome <;> trivial

omit same in
lemma cancelAndHandle_resends (source : String) :
    (cancelAndHandle cfg reg source).Uses (Resends built) := by
  apply Program.Uses.bind (perform_resends rfl)
  intro _
  exact .bind (within_resends (Service.handleMissingJob_within reg.jobId source) (by simp))
    fun _ => trivial

lemma rewake_resends : (rewake cfg reg method text).Uses (Resends built) := by
  apply Program.Uses.bind (within_resends (Service.ensureRunning_within reg) (by simp))
  intro woken
  split
  · exact clearAndForward_resends _ same reg
  · exact cancelAndHandle_resends reg "rewake"
  · trivial

lemma refreshAndRetry_resends (err : ForwardRequestError) :
    (refreshAndRetry cfg reg ep method text err).Uses (Resends built) := by
  apply Program.Uses.bind (within_resends (Service.refreshEndpoint_within reg ep) (by simp))
  intro refreshed
  split
  · exact .bind (within_resends (Service.clearMissingJobCounter_within reg.jobId) (by simp))
      fun _ => trivial
  · exact clearAndForward_resends _ same reg
  · exact rewake_resends same reg
  · exact cancelAndHandle_resends reg "refresh"
  · trivial

end

/-- Whatever it is answered, the code hands over what it may. -/
abbrev HandsOver (req : Inbound) (p : HttpCode α) (sent : List Inbound) : Prop :=
  p.Meets (repeatMonitor req) (fun _ _ => True) sent

/-- Code that hands nothing over. -/
lemma nothing_handedOver {p : HttpCode α} (uses : p.Uses (Resends none)) :
    p.Meets (repeatMonitor req) (fun _ after => after = sent) sent := by
  apply Program.Meets.of_uses (· = sent) uses
  · rintro op _ permitted rfl
    cases op with
    | send => exact absurd permitted (by simp [Resends])
    | other op => exact ⟨permitted, fun _ _ => rfl⟩
  · rfl

lemma ends_handsOver {p : HttpCode α} (uses : p.Uses (Resends none)) : HandsOver req p sent :=
  (nothing_handedOver uses).mono fun _ _ _ => trivial

/-- After the request, any number of repetitions. -/
lemma repeats_handsOver {p : HttpCode α}
    (uses : p.Uses (Resends (buildRetryRequest req.method req.uri.target)))
    (repeats : Repeats req sent) : p.Meets (repeatMonitor req) (fun _ => Repeats req) sent := by
  apply Program.Meets.of_uses (Repeats req) uses
  · intro op sent permitted repeats
    cases op with
    | send => exact ⟨.inr ⟨repeats, permitted⟩, fun _ _ => repeats.append permitted⟩
    | other op => exact ⟨permitted, fun _ _ => repeats⟩
  · exact repeats

lemma replayableMethod_eq {method method' : Service.Method}
    (replays : Service.replayableMethod method = some method') : method' = method := by
  cases method <;> cases replays <;> rfl

section
variable (reg : JobRegistration) (ep : Endpoint)

lemma serveOrdinary_handsOver : HandsOver req (serveOrdinary cfg reg req ep) [] := by
  have fresh : (repeatMonitor req).requires [] (.send reg.jobId ep req) := .inl rfl
  have first : (forwardRequest reg.jobId ep req).Meets (repeatMonitor req) (fun _ => Repeats req) [] :=
    Program.Meets.perform fresh fun _ _ => ⟨rfl, fun _ _ => ⟨[], rfl, by simp⟩⟩
  apply Program.Meets.bind first
  intro outcome after repeats
  cases outcome with
  | ok resp => trivial
  | error err =>
    dsimp only
    split
    · trivial
    · cases replays : Service.replayableMethod req.method with
      | none => trivial
      | some method =>
        obtain rfl := replayableMethod_eq replays
        apply Program.Meets.bind
          (repeats_handsOver (retry_resends reg.jobId ep rfl err Service.transientRetryBackoff) repeats)
        intro result after repeats
        match result with
        | none => trivial
        | some (.ok resp) => trivial
        | some (.error err) =>
          exact (repeats_handsOver (refreshAndRetry_resends ep rfl reg err) repeats).mono
            fun _ _ _ => trivial

lemma forwardWebsocketUpgrade_handsOver (job : JobId) :
    HandsOver req (forwardWebsocketUpgrade job ep req) [] := by
  apply Program.Meets.bind (nothing_handedOver (perform_resends rfl))
  rintro connected _ rfl
  cases connected with
  | error e => exact ends_handsOver (.bind dropLifecycle_resends fun _ => trivial)
  | ok _ =>
    dsimp only
    cases Uri.parse req.uri.target with
    | none => exact ends_handsOver (.bind dropLifecycle_resends fun _ => trivial)
    | some uri =>
      refine Program.Meets.perform ?_ fun _ _ => ?_
      · exact .inl rfl
      apply ends_handsOver
      apply Program.Uses.bind (perform_resends rfl)
      intro outcome
      cases outcome with
      | error e => exact .bind dropLifecycle_resends fun _ => trivial
      | ok resp =>
        dsimp only
        split
        · exact .bind (perform_resends rfl) fun _ => trivial
        · exact .bind dropLifecycle_resends fun _ => trivial

lemma serve_handsOver : HandsOver req (serve cfg reg req ep) [] := by
  apply Program.Meets.bind (nothing_handedOver (perform_resends rfl))
  rintro _ _ rfl
  apply Program.Meets.bind (nothing_handedOver (perform_resends rfl))
  rintro _ _ rfl
  split
  · apply Program.Meets.bind (forwardWebsocketUpgrade_handsOver ep reg.jobId)
    intro outcome _ _
    cases outcome <;> trivial
  · apply Program.Meets.bind (serveOrdinary_handsOver reg ep)
    intro resp _ _
    apply ends_handsOver
    exact .bind (perform_resends rfl) fun _ => .bind (perform_resends rfl) fun _ => trivial

lemma wakeAndServe_handsOver : HandsOver req (wakeAndServe cfg reg req) [] := by
  apply Program.Meets.bind
    (nothing_handedOver (within_resends (Service.ensureRunning_within reg) (by simp)))
  rintro woken _ rfl
  split
  · apply Program.Meets.bind
      (nothing_handedOver (within_resends (Service.clearMissingJobCounter_within reg.jobId) (by simp)))
    rintro _ _ rfl
    exact serve_handsOver reg _
  · exact ends_handsOver (.bind (within_resends (Service.handleMissingJob_within reg.jobId "wake")
      (by simp)) fun _ => trivial)
  · trivial

end

lemma proxyHandler_handsOver : HandsOver req (proxyHandler cfg req) [] := by
  unfold proxyHandler
  cases req.headers.get .host with
  | none => trivial
  | some value =>
    apply Program.Meets.bind
      (nothing_handedOver (within_resends (Service.registryGet_within _ _) (by simp)))
    rintro found _ rfl
    match found with
    | .error e => trivial
    | .ok none => trivial
    | .ok (some reg) => exact wakeAndServe_handsOver reg

/-- A request that has been handed over more than once is the request itself and repetitions. -/
lemma repeats_of_trace {steps : Program.Steps HttpOps} (trace : (proxyHandler cfg req).Trace steps)
    (more : 1 < (forwarded steps).length) : Repeats req (forwarded steps) := by
  have kept : (forwarded steps).length ≤ 1 ∨ Repeats req (forwarded steps) := by
    apply trace.keeps proxyHandler_handsOver (fun _ _ _ => trivial)
      (fun sent => sent.length ≤ 1 ∨ Repeats req sent)
    · exact .inl (Nat.zero_le 1)
    · intro sent op _ holds required
      cases op with
      | other => exact holds
      | send job ep r =>
        obtain rfl | ⟨repeats, built⟩ := required
        · exact .inl le_rfl
        · exact .inr (repeats.append built)
  exact kept.resolve_left (Nat.not_le.mpr more)

/-- At every moment of every run that has sent the request more than once, all that was sent is
the same request if and only if the request has no headers to lose. -/
theorem sameRequest_iff (cfg : Config) (req : Inbound) (steps : Program.Steps HttpOps)
    (trace : (proxyHandler cfg req).Trace steps) (more : 1 < (forwarded steps).length) :
    SameRequest (forwarded steps) ↔ endToEnd req.headers = [] :=
  (repeats_of_trace trace more).same_iff more

def docsUri : Uri := ⟨some "/docs?page=2", by decide⟩

def docsRequest (headers : HeaderMap) : Inbound :=
  ⟨.get, docsUri, (.host, asciiValue "docs.localhost") :: headers⟩

def docsReg : JobRegistration := ⟨⟨"docs"⟩, ⟨"docs-s2z"⟩, "main"⟩

def docsEndpoint : Endpoint := ⟨"10.0.0.1", 8080⟩

def docsConfig : Config where
  nomadConcurrency := 50
  wakeTimeout := 60
  durable := false
  autoDeregisterEnabled := false
  autoDeregisterThreshold := 2
  idleThreshold := 300000
  lockTtl := 60000
  trafficProbe := false

/-- The first attempt fails to connect, and the second succeeds. -/
def docsRetried (headers : HeaderMap) : Program.Steps HttpOps :=
  [⟨.other (.store (.hget .byJob "docs")), .ok (some docsReg)⟩,
    ⟨.other (.call (.ensureRunning docsReg)), (0 : ℕ)⟩, ⟨.other (.ensured docsReg 0), .ok docsEndpoint⟩,
    ⟨.other (.track docsReg.jobId), ()⟩, ⟨.other (.startHeartbeat docsReg.jobId), ()⟩,
    ⟨.send docsReg.jobId docsEndpoint (docsRequest headers), ()⟩,
    ⟨.other .response, .error (.transport true false)⟩, ⟨.other (.sleep 100), ()⟩,
    ⟨.send docsReg.jobId docsEndpoint ⟨.get, docsUri, []⟩, ()⟩,
    ⟨.other .response, .ok ⟨200, true⟩⟩]

theorem docsRetried_same : 1 < (forwarded (docsRetried [])).length ∧
    SameRequest (forwarded (docsRetried [])) :=
  ⟨by decide, (sameRequest_iff docsConfig (docsRequest []) (docsRetried [])
    (.of_rest? (by decide +kernel)) (by decide)).mpr (by decide)⟩

def authorization : HeaderMap := [(⟨"authorization", by decide⟩, asciiValue "Bearer secret")]

theorem credentials_lost : ¬ ∀ (cfg : Config) (req : Inbound) (steps : Program.Steps HttpOps),
    (proxyHandler cfg req).Trace steps → 1 < (forwarded steps).length →
      SameRequest (forwarded steps) := by
  intro all
  have trace : (proxyHandler docsConfig (docsRequest authorization)).Trace
      (docsRetried authorization) := .of_rest? (by decide +kernel)
  have same := all docsConfig _ _ trace (by decide)
  have repeated := same (docsRequest authorization) rfl ⟨.get, docsUri, []⟩ (by decide)
  exact absurd repeated.2.2 (by decide)

end NScale.Http
