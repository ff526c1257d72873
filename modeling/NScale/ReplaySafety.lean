import NScale.Footprint
import NScale.ProgramTrace

/-!
# How often a request is sent

The handler may try a request again: twice more at the same endpoint, then at a refreshed
one or at the one of a new wake. What it has sent is followed through every sequence of
answers.
-/
namespace NScale.Service

/-- What a handler has done so far: how each attempt to send its request came back, the newest
first, and its calls of the coordinator. -/
structure Sent where
  attempts : List (Option Forwarded)
  wakes : ℕ
  refreshes : ℕ

/-- The attempt has ended in a transport failure that may be retried. -/
def Retryable (attempt : Option Forwarded) : Prop :=
  ∃ err, attempt = some (.error err) ∧ err.isRetryableTransport = true

namespace Sent

def start : Sent := ⟨[], 0, 0⟩

/-- An attempt comes back. -/
def cameBack (sent : Sent) (outcome : Forwarded) : Sent :=
  match sent.attempts with
  | [] => sent
  | _ :: earlier => { sent with attempts := some outcome :: earlier }

def next (sent : Sent) : (op : Op) → op.Answer → Sent
  | .send .., _ => { sent with attempts := none :: sent.attempts }
  | .response, outcome | .upgradeResponse, outcome => sent.cameBack outcome
  | .call (.ensureRunning _), _ => { sent with wakes := sent.wakes + 1 }
  | .call (.refreshEndpoint ..), _ => { sent with refreshes := sent.refreshes + 1 }
  | _, _ => sent

/-- What has been sent when the operations have been answered. -/
def after (steps : Program.Steps Ops) : Sent :=
  steps.foldl (fun sent step => sent.next step.1 step.2) start

end Sent

/-- The request may be sent more than once. -/
def Replayable (req : Request) : Prop :=
  req.upgrade = false ∧ (req.method = .get ∨ req.method = .head)

/-- What the handler has sent of a request is safe to have been received. -/
structure ReplaySafe (req : Request) (sent : Sent) : Prop where
  once : ¬ Replayable req → sent.attempts.length ≤ 1
  four : sent.attempts.length ≤ 4
  wakes : sent.wakes ≤ 2
  refreshes : sent.refreshes ≤ 1
  /-- every attempt before the newest -/
  earlier : ∀ attempt ∈ sent.attempts.tail, Retryable attempt

/-- The request is sent again only if it may be and all attempts so far have failed. -/
def replayMonitor (req : Request) : Monitor Ops Sent where
  requires sent
    | .send .. => (∀ attempt ∈ sent.attempts, Retryable attempt) ∧
        (sent.attempts = [] ∨ Replayable req ∧ sent.attempts.length < 4)
    | .call (.ensureRunning _) => sent.wakes < 2
    | .call (.refreshEndpoint ..) => sent.refreshes < 1
    | _ => True
  assumes _ _ _ := True
  next := Sent.next

variable {cfg : Config} {req : Request} {sent : Sent} {α : Type}

namespace ReplaySafe

lemma cameBack (safe : ReplaySafe req sent) (outcome : Forwarded) :
    ReplaySafe req (sent.cameBack outcome) := by
  obtain ⟨attempts, wakes, refreshes⟩ := sent
  cases attempts with
  | nil => exact safe
  | cons attempt earlier => exact ⟨safe.once, safe.four, safe.wakes, safe.refreshes, safe.earlier⟩

/-- Every operation that the monitor allows keeps the replays safe. -/
lemma next (safe : ReplaySafe req sent) (op : Op) (r : op.Answer)
    (required : (replayMonitor req).requires sent op) : ReplaySafe req (sent.next op r) := by
  cases op with
  | send =>
    obtain ⟨lost, room⟩ := required
    refine ⟨fun no => ?_, ?_, safe.wakes, safe.refreshes, lost⟩
    · obtain none_ | ⟨may, -⟩ := room
      · simp [Sent.next, none_]
      · exact absurd may no
    · obtain none_ | ⟨-, fewer⟩ := room
      · simp [Sent.next, none_]
      · exact fewer
  | response => exact safe.cameBack r
  | upgradeResponse => exact safe.cameBack r
  | call operation =>
    cases operation with
    | ensureRunning => exact { safe with wakes := required }
    | refreshEndpoint => exact { safe with refreshes := required }
    | _ => exact safe
  | _ => exact safe

end ReplaySafe

/-! ## The code keeps to the monitor -/

/-- Whatever it is answered, the code sends only what it may. -/
abbrev Sends (req : Request) (p : Code α) (sent : Sent) : Prop :=
  p.Meets (replayMonitor req) (fun _ _ => True) sent

lemma quiet_sends {areas : List Area} {p : Code α} (uses : p.Uses (Within areas))
    (apart : .exchange ∉ areas ∧ .wake ∉ areas) :
    p.Meets (replayMonitor req) (fun _ after => after = sent) sent := by
  apply Program.Meets.of_uses (· = sent) uses
  · rintro op _ within rfl
    have outside : op.area ≠ .exchange ∧ op.area ≠ .wake :=
      ⟨fun h => apart.1 (h ▸ within), fun h => apart.2 (h ▸ within)⟩
    cases op with
    | send | response | upgradeResponse => exact absurd rfl outside.1
    | call operation =>
      cases operation with
      | ensureRunning | refreshEndpoint => exact absurd rfl outside.2
      | _ => exact ⟨trivial, fun _ _ => rfl⟩
    | _ => exact ⟨trivial, fun _ _ => rfl⟩
  · rfl

lemma ends_sends {areas : List Area} {p : Code α} (uses : p.Uses (Within areas))
    (apart : .exchange ∉ areas ∧ .wake ∉ areas) : Sends req p sent :=
  (quiet_sends uses apart).mono fun _ _ _ => trivial

/-- So many attempts have been made, all in vain, and so many calls. -/
structure Failed (attempts wakes refreshes : ℕ) (sent : Sent) : Prop where
  attempts : sent.attempts.length = attempts
  lost : ∀ attempt ∈ sent.attempts, Retryable attempt
  wakes : sent.wakes = wakes
  refreshes : sent.refreshes = refreshes

variable {n w k : ℕ}

/-- After an attempt that has come back. -/
def Tried (n w k : ℕ) (outcome : Forwarded) (sent : Sent) : Prop :=
  ∀ err, outcome = .error err → err.isRetryableTransport = true → Failed (n + 1) w k sent

lemma Failed.tried (failed : Failed n w k sent) (outcome : Forwarded) :
    Tried n w k outcome { sent with attempts := some outcome :: sent.attempts } := by
  rintro err rfl retryable
  refine ⟨congrArg (· + 1) failed.attempts, ?_, failed.wakes, failed.refreshes⟩
  intro attempt mem
  obtain rfl | mem := List.mem_cons.mp mem
  · exact ⟨err, rfl, retryable⟩
  · exact failed.lost attempt mem

lemma Failed.may_send (failed : Failed n w k sent) (room : n = 0 ∨ Replayable req ∧ n < 4)
    (job : JobId) (ep : Endpoint) (method : Method) (uri : String) :
    (replayMonitor req).requires sent (.send job ep method uri) := by
  refine ⟨failed.lost, room.imp ?_ ?_⟩
  · rintro rfl
    exact List.length_eq_zero_iff.mp failed.attempts
  · exact fun room => ⟨room.1, failed.attempts ▸ room.2⟩

lemma forwardRequest_sends (failed : Failed n w k sent) (room : n = 0 ∨ Replayable req ∧ n < 4)
    (job : JobId) (ep : Endpoint) (method : Method) (uri : String) :
    (forwardRequest job ep method uri).Meets (replayMonitor req) (Tried n w k) sent := by
  apply Program.Meets.perform (failed.may_send room job ep method uri)
  intro _ _
  exact ⟨trivial, fun outcome _ => failed.tried outcome⟩

lemma forward_sends (failed : Failed n w k sent) (room : n = 0 ∨ Replayable req ∧ n < 4)
    (job : JobId) (ep : Endpoint) (method : Method) (uri : String) :
    Sends req (do return toResponse (← forwardRequest job ep method uri)) sent :=
  .bind (forwardRequest_sends failed room job ep method uri) fun _ _ _ => trivial

lemma dropLifecycle_sends : Sends req dropLifecycle sent :=
  ⟨trivial, fun _ _ => ⟨trivial, fun _ _ => trivial⟩⟩

lemma forwardWebsocketUpgrade_sends (failed : Failed 0 w k sent) (job : JobId) (ep : Endpoint) :
    Sends req (forwardWebsocketUpgrade job ep req) sent := by
  apply Program.Meets.perform trivial
  intro connected _
  cases connected with
  | error e => exact .bind dropLifecycle_sends fun _ _ _ => trivial
  | ok _ =>
    apply Program.Meets.perform (failed.may_send (.inl rfl) job ep req.method req.uri)
    intro _ _
    apply Program.Meets.perform trivial
    intro outcome _
    cases outcome with
    | error e => exact .bind dropLifecycle_sends fun _ _ _ => trivial
    | ok resp =>
      dsimp only
      split
      · exact Program.Meets.perform trivial fun _ _ => trivial
      · exact .bind dropLifecycle_sends fun _ _ _ => trivial

/-- Each repetition is one attempt more. -/
lemma retry_sends (may : Replayable req) (job : JobId) (ep : Endpoint) (method : Method)
    (uri : String) (err : ForwardRequestError) (delays : List ℕ)
    (failed : Failed n w k sent) (room : n + delays.length ≤ 4) :
    (retry job ep method uri err delays).Meets (replayMonitor req)
      (fun result after => ∀ err, result = .error err → Failed (n + delays.length) w k after) sent := by
  induction delays generalizing n err sent with
  | nil => exact fun _ _ => failed
  | cons millis delays ih =>
    have fewer : n < 4 := by
      rw [List.length_cons] at room
      omega
    apply Program.Meets.perform trivial
    intro _ _
    apply Program.Meets.bind (forwardRequest_sends failed (.inr ⟨may, fewer⟩) job ep method uri)
    intro outcome after tried
    cases outcome with
    | ok resp => exact fun _ same => nomatch same
    | error e =>
      dsimp only
      split
      next retryable =>
        have again := ih e (tried e rfl retryable) (by rwa [Nat.add_right_comm, Nat.add_assoc])
        rwa [Nat.add_right_comm, Nat.add_assoc] at again
      next => exact fun _ same => nomatch same

section
variable (reg : JobRegistration) (ep : Endpoint) (method : Method) (uri : String)

lemma clearAndForward_sends (may : Replayable req) (failed : Failed 3 w k sent) :
    Sends req (do
      clearMissingJobCounter cfg reg.jobId
      return toResponse (← forwardRequest reg.jobId ep method uri)) sent := by
  apply Program.Meets.bind (quiet_sends (clearMissingJobCounter_within reg.jobId) (by simp))
  rintro _ _ rfl
  exact forward_sends failed (.inr ⟨may, by decide⟩) reg.jobId ep method uri

lemma cancelAndHandle_sends (source : String) : Sends req (do
    perform .cancelHeartbeat
    handleMissingJob cfg reg.jobId source) sent := by
  apply Program.Meets.perform trivial
  intro _ _
  exact ends_sends (handleMissingJob_within reg.jobId source) (by simp)

lemma rewake_sends (may : Replayable req) (failed : Failed 3 1 k sent) :
    Sends req (rewake cfg reg method uri) sent := by
  have once : sent.wakes < 2 := failed.wakes.trans_lt Nat.one_lt_two
  apply Program.Meets.perform once
  intro c _
  apply Program.Meets.perform trivial
  intro woken _
  have woke : Failed 3 2 k { sent with wakes := sent.wakes + 1 } :=
    { failed with wakes := congrArg (· + 1) failed.wakes }
  split
  · exact clearAndForward_sends reg _ method uri may woke
  · exact cancelAndHandle_sends reg "rewake"
  · trivial

lemma refreshAndRetry_sends (may : Replayable req) (failed : Failed 3 1 0 sent)
    (err : ForwardRequestError) : Sends req (refreshAndRetry cfg reg ep method uri err) sent := by
  have never : sent.refreshes < 1 := failed.refreshes.trans_lt Nat.one_pos
  apply Program.Meets.perform never
  intro c _
  apply Program.Meets.perform trivial
  intro refreshed _
  have asked : Failed 3 1 1 { sent with refreshes := sent.refreshes + 1 } :=
    { failed with refreshes := congrArg (· + 1) failed.refreshes }
  split
  · exact .bind (ends_sends (clearMissingJobCounter_within reg.jobId) (by simp)) fun _ _ _ => trivial
  · exact clearAndForward_sends reg _ method uri may asked
  · exact rewake_sends reg method uri may asked
  · exact cancelAndHandle_sends reg "refresh"
  · trivial

lemma serveOrdinary_sends (ordinary : req.upgrade = false) (failed : Failed 0 1 0 sent) :
    Sends req (serveOrdinary cfg req reg ep) sent := by
  apply Program.Meets.bind (forwardRequest_sends failed (.inl rfl) reg.jobId ep req.method req.uri)
  intro outcome after tried
  cases outcome with
  | ok resp => trivial
  | error err =>
    dsimp only
    split
    next => trivial
    next retryable =>
      have lost := tried err rfl (by simpa using retryable)
      cases replays : replayableMethod req.method with
      | none => trivial
      | some method =>
        have may : Replayable req := by
          refine ⟨ordinary, ?_⟩
          cases verb : req.method with
          | get => exact .inl rfl
          | head => exact .inr rfl
          | other name => simp [verb, replayableMethod] at replays
        apply Program.Meets.bind
          (retry_sends may reg.jobId ep method req.uri err transientRetryBackoff lost (by decide))
        intro result after tried
        cases result with
        | ok resp => trivial
        | error err => exact refreshAndRetry_sends reg ep method req.uri may (tried err rfl) err

lemma serve_sends (failed : Failed 0 1 0 sent) : Sends req (serve cfg req reg ep) sent := by
  apply Program.Meets.perform trivial
  intro _ _
  apply Program.Meets.perform trivial
  intro _ _
  cases upgrade : req.upgrade with
  | true => exact .bind (forwardWebsocketUpgrade_sends failed reg.jobId ep) fun _ _ _ => trivial
  | false =>
    apply Program.Meets.bind (serveOrdinary_sends reg ep upgrade failed)
    intro resp _ _
    exact Program.Meets.perform trivial fun _ _ => Program.Meets.perform trivial fun _ _ => trivial

lemma wakeAndServe_sends (failed : Failed 0 0 0 sent) : Sends req (wakeAndServe cfg req reg) sent := by
  have never : sent.wakes < 2 := failed.wakes.trans_lt Nat.two_pos
  apply Program.Meets.perform never
  intro c _
  apply Program.Meets.perform trivial
  intro woken _
  have woke : Failed 0 1 0 { sent with wakes := sent.wakes + 1 } :=
    { failed with wakes := congrArg (· + 1) failed.wakes }
  split
  · apply Program.Meets.bind (quiet_sends (clearMissingJobCounter_within reg.jobId) (by simp))
    rintro _ _ rfl
    exact serve_sends reg _ woke
  · exact ends_sends (handleMissingJob_within reg.jobId "wake") (by simp)
  · trivial

end

lemma proxyHandler_sends : Sends req (proxyHandler cfg req) .start := by
  unfold proxyHandler
  cases req.host with
  | none => trivial
  | some host =>
    apply Program.Meets.bind (quiet_sends (registryGet_within _ _) (by simp))
    rintro found _ rfl
    match found with
    | .error e => trivial
    | .ok none => trivial
    | .ok (some reg) => exact wakeAndServe_sends reg ⟨rfl, by simp [Sent.start], rfl, rfl⟩

/-- At every moment of every run of the handler, whatever the operations are answered, the
request has been sent once if it may not be repeated and at most four times otherwise, each
time only after all attempts before had failed in transport. -/
theorem proxyHandler_replays (cfg : Config) (req : Request) (steps : Program.Steps Ops)
    (trace : (proxyHandler cfg req).Trace steps) : ReplaySafe req (.after steps) :=
  trace.keeps proxyHandler_sends (fun _ _ _ => trivial) (ReplaySafe req)
    ⟨fun _ => Nat.zero_le 1, Nat.zero_le 4, Nat.zero_le 2, Nat.zero_le 1, by simp [Sent.start]⟩
    fun _ op r safe required => safe.next op r required

def pageReg : JobRegistration := ⟨⟨"page"⟩, ⟨"page-s2z"⟩, "main"⟩

def pageOld : Endpoint := ⟨"10.0.0.1", 8080⟩

def pageNew : Endpoint := ⟨"10.0.0.2", 8080⟩

def pageConfig : Config where
  nomadConcurrency := 50
  wakeTimeout := 60
  durable := false
  autoDeregisterEnabled := false
  autoDeregisterThreshold := 2
  idleThreshold := 300000
  lockTtl := 60000
  trafficProbe := false

def pageRequest : Request := ⟨some (some "page-s2z.localhost"), .get, "/", false⟩

/-- Three attempts fail, Nomad has no allocation any more, and the job is woken again. -/
def pageRewoken : Program.Steps Ops :=
  [⟨.store (.hget .byJob "page-s2z"), .ok none⟩,
    ⟨.store (.hget .byService "page-s2z"), .ok (some pageReg)⟩,
    ⟨.call (.ensureRunning pageReg), 0⟩, ⟨.ensured pageReg 0, .ok pageOld⟩,
    ⟨.track pageReg.jobId, ()⟩, ⟨.startHeartbeat pageReg.jobId, ()⟩,
    ⟨.send pageReg.jobId pageOld .get "/", ()⟩, ⟨.response, .error (.transport true false)⟩,
    ⟨.sleep 100, ()⟩, ⟨.send pageReg.jobId pageOld .get "/", ()⟩,
    ⟨.response, .error (.transport true false)⟩,
    ⟨.sleep 250, ()⟩, ⟨.send pageReg.jobId pageOld .get "/", ()⟩,
    ⟨.response, .error (.transport false true)⟩,
    ⟨.call (.refreshEndpoint pageReg pageOld), 1⟩, ⟨.refreshed pageReg 1, .ok .missing⟩,
    ⟨.call (.ensureRunning pageReg), 2⟩, ⟨.ensured pageReg 2, .ok pageNew⟩,
    ⟨.send pageReg.jobId pageNew .get "/", ()⟩, ⟨.response, .ok ⟨200, true⟩⟩]

theorem pageRewoken_replays : (Sent.after pageRewoken).attempts.length = 4 ∧
    ReplaySafe pageRequest (.after pageRewoken) :=
  ⟨rfl, proxyHandler_replays pageConfig pageRequest pageRewoken (.of_rest? (by decide +kernel))⟩

end NScale.Service
