import NScale.Threads
import NScale.RegistryKeys

/-!
# Which operations the code performs

The operations fall into areas, so that an argument about one area can pass over the code
that stays in the others.
-/
namespace NScale.Service
open JobRegistry (StoreOp)

inductive Area
  | plain
  | wake
  | missing
  | removal
  | exchange
  | sweep
  | lock
  deriving DecidableEq

@[simp] def Op.area : Op → Area
  | .store op => if op.deletes then .removal else .plain
  | .call (.ensureRunning _) | .call (.refreshEndpoint ..) | .ensured .. | .refreshed .. => .wake
  | .incrementNotFound _ | .clearNotFound _ => .missing
  | .track _ | .dropGuard | .send .. | .response | .upgradeResponse => .exchange
  | .tunnelClosed | .spawn .tunnel => .exchange
  | .zrangebyscore _ | .deferral _ | .hasInFlight _ | .scaleDown .. => .sweep
  | .tryAcquireLock _ => .lock
  | _ => .plain

/-- The operations of some areas. -/
def Within (areas : List Area) (op : Op) : Prop := op.area ∈ areas

variable {areas : List Area} {α : Type} {cfg : Config}

lemma Within.mono {wider : List Area} {p : Code α} (uses : p.Uses (Within areas))
    (sub : ∀ a ∈ areas, a ∈ wider) : p.Uses (Within wider) := Program.Uses.mono uses fun _ h => sub _ h

lemma perform_within {op : Op} (permitted : op.area ∈ areas) :
    (perform op).Uses (Within areas) := ⟨permitted, fun _ => trivial⟩

lemma registry_within (x : JobRegistry.Action α) :
    (registry x).Uses (Within [.plain, .removal]) := by
  apply Program.Uses.lift
  apply (Program.Uses.all x.run).mono
  intro op _
  cases h : op.deletes <;> simp [Within, h]

lemma keeps_within {op : StoreOp} (keeps : op.deletes = false) :
    Within [.plain] (.store op) := by
  simp [Within, keeps]

lemma registryGet_within (durable : Bool) (lookup : JobId) :
    (registry (JobRegistry.get durable lookup)).Uses (Within [.plain]) :=
  .lift ((JobRegistry.get_adds lookup).mono fun _ adds => keeps_within adds.keeps)

lemma registryRegister_within (durable : Bool) (reg : JobRegistration) :
    (registry (JobRegistry.register durable reg)).Uses (Within [.plain]) :=
  .lift ((JobRegistry.register_adds reg).mono fun _ adds => keeps_within adds.keeps)

lemma recordActivity_within (key : JobId) : (recordActivity key).Uses (Within [.plain]) :=
  .bind (perform_within (by simp)) fun _ => perform_within (by simp)

lemma markDormant_within (job : JobId) : (markDormant job).Uses (Within [.plain]) :=
  .bind (perform_within (by simp)) fun _ => perform_within (by simp)

lemma ensureRunning_within (reg : JobRegistration) :
    (ensureRunning reg).Uses (Within [.wake]) :=
  .bind (perform_within (by simp)) fun _ => perform_within (by simp)

lemma refreshEndpoint_within (reg : JobRegistration) (current : Endpoint) :
    (refreshEndpoint reg current).Uses (Within [.wake]) :=
  .bind (perform_within (by simp)) fun _ => perform_within (by simp)

lemma clearMissingJobCounter_within (job : JobId) :
    (clearMissingJobCounter cfg job).Uses (Within [.missing]) := by
  unfold clearMissingJobCounter
  split
  · exact .bind (perform_within (by simp)) fun _ => trivial
  · trivial

lemma cleanupMissingJobState_within (job : JobId) :
    (cleanupMissingJobState cfg job).Uses (Within [.plain, .removal, .missing]) := by
  apply Program.Uses.bind (Within.mono (markDormant_within job) (by simp))
  intro _
  apply Program.Uses.bind (perform_within (by simp))
  intro _
  apply Program.Uses.bind (Within.mono (registry_within _) (by simp))
  intro result
  cases result with
  | error e => trivial
  | ok _ => exact .bind (perform_within (by simp)) fun _ => trivial

lemma handleMissingJob_within (job : JobId) (source : String) :
    (handleMissingJob cfg job source).Uses (Within [.plain, .removal, .missing]) := by
  unfold handleMissingJob
  split
  · trivial
  · apply Program.Uses.bind (perform_within (by simp))
    intro counted
    cases counted with
    | error e => trivial
    | ok count =>
      dsimp only
      split
      · apply Program.Uses.bind (cleanupMissingJobState_within job)
        intro result
        cases result <;> trivial
      · trivial

/-- The areas of a request. -/
abbrev requestAreas : List Area := [.exchange, .wake, .plain, .removal, .missing]

lemma forwardRequest_within (job : JobId) (ep : Endpoint) (method : Method) (uri : String) :
    (forwardRequest job ep method uri).Uses (Within [.exchange]) :=
  .bind (perform_within (by simp)) fun _ => perform_within (by simp)

lemma dropLifecycle_within : dropLifecycle.Uses (Within [.exchange, .plain]) :=
  .bind (perform_within (by simp)) fun _ => perform_within (by simp)

lemma forwardWebsocketUpgrade_within (job : JobId) (ep : Endpoint) (req : Request) :
    (forwardWebsocketUpgrade job ep req).Uses (Within [.exchange, .plain]) := by
  apply Program.Uses.bind (perform_within (by simp))
  intro connected
  cases connected with
  | error e => exact .bind dropLifecycle_within fun _ => trivial
  | ok _ =>
    apply Program.Uses.bind (perform_within (by simp))
    intro _
    apply Program.Uses.bind (perform_within (by simp))
    intro result
    cases result with
    | error e => exact .bind dropLifecycle_within fun _ => trivial
    | ok resp =>
      dsimp only
      split
      · exact .bind (perform_within (by simp)) fun _ => trivial
      · exact .bind dropLifecycle_within fun _ => trivial

lemma retry_within (job : JobId) (ep : Endpoint) (method : Method) (uri : String)
    (delays : List ℕ) (err : ForwardRequestError) :
    (retry job ep method uri err delays).Uses (Within [.exchange, .plain]) := by
  induction delays generalizing err with
  | nil => trivial
  | cons millis delays ih =>
    apply Program.Uses.bind (perform_within (by simp))
    intro _
    apply Program.Uses.bind (Within.mono (forwardRequest_within job ep method uri) (by simp))
    intro result
    cases result with
    | ok resp => trivial
    | error e =>
      dsimp only
      split
      · exact ih e
      · trivial

section
variable (reg : JobRegistration) (ep : Endpoint) (method : Method) (uri : String)

lemma clearAndForward_within : Program.Uses (Within requestAreas) (do
    clearMissingJobCounter cfg reg.jobId
    return toResponse (← forwardRequest reg.jobId ep method uri)) := by
  apply Program.Uses.bind (Within.mono (clearMissingJobCounter_within reg.jobId) (by simp))
  intro _
  exact .bind (Within.mono (forwardRequest_within reg.jobId ep method uri) (by simp)) fun _ => trivial

lemma cancelAndHandle_within (source : String) : Program.Uses (Within requestAreas) (do
    perform .cancelHeartbeat
    handleMissingJob cfg reg.jobId source) := by
  apply Program.Uses.bind (perform_within (by simp))
  intro _
  exact Within.mono (handleMissingJob_within reg.jobId source) (by simp)

lemma rewake_within : (rewake cfg reg method uri).Uses (Within requestAreas) := by
  apply Program.Uses.bind (Within.mono (ensureRunning_within reg) (by simp))
  intro woken
  split
  · exact clearAndForward_within reg _ method uri
  · exact cancelAndHandle_within reg "rewake"
  · trivial

lemma refreshAndRetry_within (err : ForwardRequestError) :
    (refreshAndRetry cfg reg ep method uri err).Uses (Within requestAreas) := by
  apply Program.Uses.bind (Within.mono (refreshEndpoint_within reg ep) (by simp))
  intro refreshed
  split
  · exact .bind (Within.mono (clearMissingJobCounter_within reg.jobId) (by simp)) fun _ => trivial
  · exact clearAndForward_within reg _ method uri
  · exact rewake_within reg method uri
  · exact cancelAndHandle_within reg "refresh"
  · trivial

variable (req : Request)

lemma serveOrdinary_within : (serveOrdinary cfg req reg ep).Uses (Within requestAreas) := by
  apply Program.Uses.bind
    (Within.mono (forwardRequest_within reg.jobId ep req.method req.uri) (by simp))
  intro result
  cases result with
  | ok resp => trivial
  | error err =>
    dsimp only
    split
    · trivial
    · cases replayableMethod req.method with
      | none => trivial
      | some method =>
        apply Program.Uses.bind (Within.mono (retry_within reg.jobId ep method req.uri _ err) (by simp))
        intro retried
        cases retried with
        | ok resp => trivial
        | error err => exact refreshAndRetry_within reg ep method req.uri err

lemma serve_within : (serve cfg req reg ep).Uses (Within requestAreas) := by
  apply Program.Uses.bind (perform_within (by simp))
  intro _
  apply Program.Uses.bind (perform_within (by simp))
  intro _
  split
  · exact .bind (Within.mono (forwardWebsocketUpgrade_within reg.jobId ep req) (by simp)) fun _ => trivial
  · apply Program.Uses.bind (serveOrdinary_within reg ep req)
    intro resp
    apply Program.Uses.bind (perform_within (by simp))
    intro _
    exact .bind (perform_within (by simp)) fun _ => trivial

lemma wakeAndServe_within : (wakeAndServe cfg req reg).Uses (Within requestAreas) := by
  apply Program.Uses.bind (Within.mono (ensureRunning_within reg) (by simp))
  intro woken
  split
  · apply Program.Uses.bind (Within.mono (clearMissingJobCounter_within reg.jobId) (by simp))
    intro _
    exact serve_within reg _ req
  · exact Within.mono (handleMissingJob_within reg.jobId "wake") (by simp)
  · trivial

end

lemma proxyHandler_within (req : Request) : (proxyHandler cfg req).Uses (Within requestAreas) := by
  unfold proxyHandler
  cases req.host with
  | none => trivial
  | some host =>
    apply Program.Uses.bind (Within.mono (registryGet_within _ _) (by simp))
    intro found
    match found with
    | .error e => trivial
    | .ok none => trivial
    | .ok (some reg) => exact wakeAndServe_within reg req

lemma activityService_within (req : Request) :
    (activityService cfg req).Uses (Within requestAreas) := by
  unfold activityService
  cases extractJobId req.host with
  | none => exact .bind (proxyHandler_within req) fun _ => trivial
  | some key =>
    apply Program.Uses.bind (Within.mono (recordActivity_within key) (by simp))
    intro _
    apply Program.Uses.bind (proxyHandler_within req)
    intro _
    exact perform_within (by simp)

lemma task_within (task : Task) : task.code.Uses (Within [.exchange, .plain]) := by
  cases task with
  | recordActivity key =>
    exact .bind (Within.mono (recordActivity_within key) (by simp)) fun _ => trivial
  | releaseLock => exact .bind (perform_within (by simp)) fun _ => trivial
  | tunnel =>
    apply Program.Uses.bind (perform_within (by simp))
    intro _
    exact .bind (perform_within (by simp)) fun _ => perform_within (by simp)

namespace ScaleDownController

lemma clearBaseline_within (key : JobId) : (clearBaseline cfg key).Uses (Within [.plain]) := by
  unfold clearBaseline
  split
  · exact perform_within (by simp)
  · trivial

lemma hasActiveTraffic_within (key : JobId) : (hasActiveTraffic key).Uses (Within [.plain]) := by
  apply Program.Uses.bind (perform_within (by simp))
  intro scraped
  cases scraped with
  | error e => trivial
  | ok total =>
    apply Program.Uses.bind (perform_within (by simp))
    intro prev
    cases prev <;> trivial

lemma cleanupMissingJobState_within (key : JobId) :
    (cleanupMissingJobState cfg key).Uses (Within [.plain, .removal, .missing]) := by
  apply Program.Uses.bind (Within.mono (markDormant_within key) (by simp))
  intro _
  apply Program.Uses.bind (perform_within (by simp))
  intro _
  apply Program.Uses.bind (perform_within (by simp))
  intro _
  apply Program.Uses.bind (Within.mono (clearBaseline_within key) (by simp))
  intro _
  apply Program.Uses.bind (Within.mono (registry_within _) (by simp))
  intro result
  cases result with
  | error e => trivial
  | ok _ => exact .bind (perform_within (by simp)) fun _ => trivial

lemma handleMissingJob_within (key : JobId) :
    (handleMissingJob cfg key).Uses (Within [.plain, .removal, .missing]) := by
  unfold handleMissingJob
  split
  · trivial
  · apply Program.Uses.bind (perform_within (by simp))
    intro counted
    cases counted with
    | error e => trivial
    | ok count =>
      dsimp only
      split
      · exact .bind (cleanupMissingJobState_within key) fun _ => trivial
      · trivial

lemma handleScaleDownResult_within (key : JobId) (result : Result Unit) :
    (handleScaleDownResult cfg key result).Uses (Within [.plain]) := by
  unfold handleScaleDownResult
  split
  · apply Program.Uses.bind (markDormant_within key)
    intro _
    apply Program.Uses.bind (perform_within (by simp))
    intro _
    apply Program.Uses.bind (clearBaseline_within key)
    intro _
    exact perform_within (by simp)
  · apply Program.Uses.bind (perform_within (by simp))
    intro now
    apply Program.Uses.bind (perform_within (by simp))
    intro _
    exact .bind (recordActivity_within key) fun _ => trivial
  · trivial

lemma afterScaleDown_within (key : JobId) (result : Result Unit) :
    (afterScaleDown cfg key result).Uses (Within [.plain, .removal, .missing]) := by
  have counter : (clearMissingJobCounter cfg key).Uses (Within [.plain, .removal, .missing]) :=
    Within.mono (clearMissingJobCounter_within key) (by simp)
  have handled (r : Result Unit) :
      (handleScaleDownResult cfg key r).Uses (Within [.plain, .removal, .missing]) :=
    Within.mono (handleScaleDownResult_within key r) (by simp)
  unfold afterScaleDown
  split
  · exact .bind counter fun _ => handled _
  · exact handleMissingJob_within key
  · exact .bind counter fun _ => handled _
  · exact handled _

/-- The areas of a sweep. -/
abbrev sweepAreas : List Area := [.sweep, .plain, .removal, .missing]

lemma scaleDownRegistered_within (key : JobId) :
    (scaleDownRegistered cfg key).Uses (Within sweepAreas) := by
  apply Program.Uses.bind (Within.mono (registryGet_within cfg.durable key) (by simp))
  intro found
  match found with
  | .error e => trivial
  | .ok none => exact .bind (perform_within (by simp)) fun _ => trivial
  | .ok (some reg) =>
    apply Program.Uses.bind (perform_within (by simp))
    intro result
    exact Within.mono (afterScaleDown_within key result) (by simp)

lemma unlessTraffic_within (key : JobId) : (unlessTraffic cfg key).Uses (Within sweepAreas) := by
  unfold unlessTraffic
  split
  · apply Program.Uses.bind (Within.mono (hasActiveTraffic_within key) (by simp))
    intro active
    match active with
    | .error e => trivial
    | .ok false => exact scaleDownRegistered_within key
    | .ok true => exact .bind (Within.mono (recordActivity_within key) (by simp)) fun _ => trivial
  · exact scaleDownRegistered_within key

lemma unlessInFlight_within (key : JobId) : (unlessInFlight cfg key).Uses (Within sweepAreas) := by
  apply Program.Uses.bind (perform_within (by simp))
  intro busy
  cases busy with
  | true => exact .bind (Within.mono (recordActivity_within key) (by simp)) fun _ => trivial
  | false => exact unlessTraffic_within key

lemma scaleDownJob_within (key : JobId) : (scaleDownJob cfg key).Uses (Within sweepAreas) := by
  apply Program.Uses.bind (perform_within (by simp))
  intro deferral
  cases deferral with
  | none => exact unlessInFlight_within key
  | some until_ =>
    apply Program.Uses.bind (perform_within (by simp))
    intro now
    split
    · trivial
    · apply Program.Uses.bind (perform_within (by simp))
      intro _
      exact unlessInFlight_within key

lemma sweep_within (keys : List JobId) : (sweep cfg keys).Uses (Within sweepAreas) := by
  induction keys with
  | nil => trivial
  | cons key keys ih =>
    apply Program.Uses.bind (perform_within (by simp))
    intro stop
    cases stop with
    | true => trivial
    | false => exact .bind (scaleDownJob_within key) fun _ => ih

lemma getIdleJobs_within (threshold : ℕ) : (getIdleJobs threshold).Uses (Within sweepAreas) :=
  .bind (perform_within (by simp)) fun _ => perform_within (by simp)

/-- The part of a tick under the lock. -/
lemma locked_within : Program.Uses (Within sweepAreas) (do
    match ← getIdleJobs cfg.idleThreshold with
    | .error _ => perform (.spawn .releaseLock)
    | .ok keys =>
      sweep cfg keys
      perform (.spawn .releaseLock)) := by
  apply Program.Uses.bind (getIdleJobs_within cfg.idleThreshold)
  intro idle
  cases idle with
  | error e => exact perform_within (by simp)
  | ok keys => exact .bind (sweep_within keys) fun _ => perform_within (by simp)

lemma tick_within : (tick cfg).Uses (Within (.lock :: sweepAreas)) := by
  apply Program.Uses.bind (perform_within (by simp))
  intro acquired
  match acquired with
  | .error e => trivial
  | .ok false => trivial
  | .ok true => exact Within.mono locked_within (by simp)

end ScaleDownController

/-! ## Code that is not part of a request or of a sweep -/

lemma handleAllocationEvent_within (a : Allocation) :
    (handleAllocationEvent cfg a).Uses (Within [.plain]) := by
  apply Program.Uses.bind (registryGet_within cfg.durable a.job)
  intro found
  match found with
  | .error e => trivial
  | .ok none => trivial
  | .ok (some reg) =>
    dsimp only
    split
    · apply Program.Uses.bind (perform_within (by simp))
      intro isNew
      cases isNew with
      | true => exact recordActivity_within a.job
      | false => trivial
    · split
      · apply Program.Uses.bind (perform_within (by simp))
        intro _
        apply Program.Uses.bind (markDormant_within a.job)
        intro _
        exact .bind (perform_within (by simp)) fun _ => trivial
      · trivial

lemma processAllocationEvent_within (a : Allocation) :
    (processAllocationEvent cfg a).Uses (Within [.plain]) :=
  .bind (handleAllocationEvent_within a) fun _ => trivial

lemma adminRegister_within (reg : JobRegistration) :
    (adminRegister cfg reg).Uses (Within [.plain]) := by
  apply Program.Uses.bind (registryRegister_within cfg.durable reg)
  intro result
  cases result with
  | error e => trivial
  | ok _ => exact .bind (recordActivity_within reg.jobId) fun _ => trivial

/-- Only the sweeps of the scale-down controller use the operations of a sweep. -/
lemma entry_within {c : Code Unit} (entry : Deployment.Entry cfg c) :
    c = ScaleDownController.tick cfg ∨ c.Uses (Within requestAreas) := by
  cases entry with
  | tick => exact .inl rfl
  | request req => exact .inr (activityService_within req)
  | allocation a => exact .inr (Within.mono (processAllocationEvent_within a) (by simp))
  | admin reg => exact .inr (Within.mono (adminRegister_within reg) (by simp))
  | task task => exact .inr (Within.mono (task_within task) (by simp))

end NScale.Service
