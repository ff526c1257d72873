import NScale.Footprint

/-!
# What a task has been told about a missing job

A job-not-found response of Nomad reaches a task as the error of `ensure_running` or of
`refresh_endpoint`, or as the answer to its own `scale_down`. The task counts it once, and
deregisters the job when the count has reached the threshold.
-/
namespace NScale.JobRegistry

/-- The deleting operations of `deregister` for a job. -/
def StoreOp.Deregisters (job : JobId) : StoreOp → Prop
  | .hdel .byJob field => field = job.val
  | .hdel .byService _ => True
  | .etcdTxn ops => .delete .jobs job.val ∈ ops
  | _ => False

/-- What `deregister` deletes, it deletes for its job. -/
abbrev DeletesOnly (job : JobId) (op : StoreOp) : Prop := op.deletes = true → op.Deregisters job

variable {job : JobId} {durable : Bool}

lemma StoreOp.Adds.deletesOnly {op : StoreOp} (adds : op.Adds) : DeletesOnly job op :=
  fun deletes => absurd (adds.keeps.symm.trans deletes) Bool.false_ne_true

lemma removeRegistration_deletes (job : JobId) :
    Program.Uses (DeletesOnly job) (EtcdClient.removeRegistration job).run := by
  apply Program.Uses.bind_run
  · apply Program.Uses.bind_run (perform_uses (by simp [StoreOp.deletes]))
    intro entries
    trivial
  · intro keys
    apply perform_uses
    intro _
    exact List.mem_append_right _ List.mem_cons_self

lemma removeServices_deletes (job : JobId) (entries : List (String × JobRegistration)) :
    Program.Uses (DeletesOnly job) (removeServices job entries).run := by
  induction entries with
  | nil => trivial
  | cons entry entries ih =>
    obtain ⟨service, reg⟩ := entry
    unfold removeServices
    split
    · exact .bind_run (perform_uses fun _ => trivial) fun _ => ih
    · exact ih

lemma removeCachedRegistration_deletes (job : JobId) :
    Program.Uses (DeletesOnly job) (removeCachedRegistration job).run := by
  apply Program.Uses.bind_run (perform_uses (by simp [StoreOp.deletes]))
  intro entries
  apply Program.Uses.bind_run (removeServices_deletes job entries)
  intro _
  exact perform_uses fun _ => rfl

lemma restore_deletes (existing : Option JobRegistration) :
    Program.Uses (DeletesOnly job) (restore existing).run := by
  cases existing with
  | none => trivial
  | some reg =>
    apply Program.Uses.tryCatch_run
    · exact (storeRegistration_adds reg).mono fun _ adds => adds.deletesOnly
    · intro _
      trivial

lemma deregister_deletes (job : JobId) :
    Program.Uses (DeletesOnly job) (deregister durable job).run := by
  apply Program.Uses.bind_run ((get_adds job).mono fun _ adds => adds.deletesOnly)
  intro existing
  cases durable with
  | false => exact removeCachedRegistration_deletes job
  | true =>
    apply Program.Uses.bind_run (removeRegistration_deletes job)
    intro _
    apply Program.Uses.tryCatch_run (removeCachedRegistration_deletes job)
    intro err
    exact .bind_run (restore_deletes existing) fun _ => trivial

end NScale.JobRegistry

namespace NScale.Service

/-- What a task does about a missing job: it waits for a call of the coordinator, it has been
told of a not-found response that it still has to count, or it deregisters the job. -/
inductive Stage
  | nothing
  | awaits (call : ℕ)
  | told (job : JobId)
  | removing (job : JobId)
  deriving DecidableEq

/-- A deregistration that has failed is over when its task goes on. -/
def Stage.ended : Stage → Stage
  | .removing _ => .nothing
  | stage => stage

/-- The key that a sweep works on, and the stage of the task. -/
structure MissingView where
  key : Option JobId
  stage : Stage

namespace MissingView

def start : MissingView := ⟨none, .nothing⟩

@[simps] def at_ (v : MissingView) (stage : Stage) : MissingView := { v with stage := stage }

end MissingView

/-- A task counts what it has been told, once, and deletes only entries of the job for which
its count has reached the threshold. -/
def missingMonitor (threshold : ℕ) : Monitor Ops MissingView where
  requires v
    | .ensured _ c | .refreshed _ c => v.stage = .awaits c
    | .incrementNotFound job => v.stage = .told job
    | .store op => op.deletes = true → ∃ job, v.stage = .removing job ∧ op.Deregisters job
    | _ => True
  assumes v
    | .scaleDown job _, .error (.jobNotFound _) => v.key = some job
    | _, _ => True
  next v
    | .call (.ensureRunning _), c | .call (.refreshEndpoint ..), c => v.at_ (.awaits c)
    | .ensured reg _, .error (.jobNotFound _) => v.at_ (.told reg.jobId)
    | .refreshed reg _, .error (.jobNotFound _) => v.at_ (.told reg.jobId)
    | .ensured .., _ | .refreshed .., _ => v.at_ .nothing
    | .deferral key, _ => ⟨some key, .nothing⟩
    | .scaleDown job _, .error (.jobNotFound _) => v.at_ (.told job)
    | .incrementNotFound job, .ok count =>
      v.at_ (if threshold ≤ count then .removing job else .nothing)
    | .incrementNotFound _, .error _ => v.at_ .nothing
    | .clearNotFound _, _ => v.at_ .nothing
    | .cancelHeartbeat, _ | .spawn _, _ | .cancelled, _ => v.at_ v.stage.ended
    | _, _ => v

variable {cfg : Config} {v : MissingView} {key job : JobId} {threshold : ℕ} {α : Type} {p : Code α}

/-- The code keeps to the monitor of the missing jobs. -/
abbrev Counts (threshold : ℕ) (p : Code α) (v : MissingView) : Prop :=
  p.Meets (missingMonitor threshold) (fun _ _ => True) v

/-- Code that neither waits for a call nor counts, deletes or sweeps only leaves the key. -/
lemma missing_quiet {areas : List Area} (uses : p.Uses (Within areas))
    (quiet : ∀ a ∈ areas, a = .plain ∨ a = .exchange) :
    p.Meets (missingMonitor threshold) (fun _ w => w.key = v.key) v := by
  apply Program.Meets.of_uses (fun w : MissingView => w.key = v.key) uses _ rfl
  intro op w within same
  have area := quiet _ within
  cases op with
  | store op =>
    have keeps : op.deletes = false := by
      by_contra deletes
      simp [eq_true_of_ne_false deletes] at area
    refine ⟨fun deletes => ?_, fun _ _ => same⟩
    exact absurd (keeps.symm.trans deletes) Bool.false_ne_true
  | call op =>
    cases op with
    | ensureRunning | refreshEndpoint => simp at area
    | _ => exact ⟨trivial, fun _ _ => same⟩
  | ensured | refreshed | incrementNotFound | clearNotFound => simp at area
  | deferral | zrangebyscore | hasInFlight | scaleDown | tryAcquireLock => simp at area
  | _ => exact ⟨trivial, fun _ _ => same⟩

lemma counts_quiet {areas : List Area} (uses : p.Uses (Within areas))
    (quiet : ∀ a ∈ areas, a = .plain ∨ a = .exchange) : Counts threshold p v :=
  (missing_quiet uses quiet).mono fun _ _ _ => trivial

/-! ## Requests -/

/-- The error of a call tells the task of the missing job. -/
lemma ensureRunning_counts (reg : JobRegistration) :
    (ensureRunning reg).Meets (missingMonitor threshold)
      (fun r w => ∀ id, r = .error (.jobNotFound id) → w.stage = .told reg.jobId) v := by
  apply Program.Meets.perform trivial
  intro c _
  refine ⟨rfl, ?_⟩
  rintro r - id rfl
  rfl

lemma refreshEndpoint_counts (reg : JobRegistration) (current : Endpoint) :
    (refreshEndpoint reg current).Meets (missingMonitor threshold)
      (fun r w => ∀ id, r = .error (.jobNotFound id) → w.stage = .told reg.jobId) v := by
  apply Program.Meets.perform trivial
  intro c _
  refine ⟨rfl, ?_⟩
  rintro r - id rfl
  rfl

lemma clearMissingJobCounter_counts (job : JobId) :
    (clearMissingJobCounter cfg job).Meets (missingMonitor threshold)
      (fun _ w => w.key = v.key) v := by
  unfold clearMissingJobCounter
  split
  · exact Program.Meets.perform trivial fun _ _ => rfl
  · rfl

/-- While a job is deregistered, the task stays at this stage. -/
lemma deregister_counts (durable : Bool) (removing : v.stage = .removing job) :
    (registry (JobRegistry.deregister durable job)).Meets (missingMonitor threshold)
      (fun _ w => w.stage = .removing job) v := by
  have uses : (registry (JobRegistry.deregister durable job)).Uses fun op =>
      ∃ o, op = Op.store o ∧ JobRegistry.DeletesOnly job o :=
    .lift ((JobRegistry.deregister_deletes job).mono fun o only => ⟨o, rfl, only⟩)
  apply Program.Meets.of_uses (fun w : MissingView => w.stage = .removing job) uses _ removing
  rintro _ w ⟨o, rfl, only⟩ at_
  exact ⟨fun deletes => ⟨job, at_, only deletes⟩, fun _ _ => at_⟩

lemma cleanupMissingJobState_counts (removing : v.stage = .removing job) :
    Counts threshold (cleanupMissingJobState cfg job) v := by
  apply Program.Meets.perform trivial
  intro c _
  apply Program.Meets.perform trivial
  intro _ _
  apply Program.Meets.perform trivial
  intro _ _
  apply Program.Meets.bind (deregister_counts cfg.durable removing)
  intro result w _
  cases result with
  | error e => trivial
  | ok _ => exact Program.Meets.perform trivial fun _ _ => trivial

lemma handleMissingJob_counts (source : String) (told : v.stage = .told job) :
    Counts cfg.autoDeregisterThreshold (handleMissingJob cfg job source) v := by
  unfold handleMissingJob
  split
  · trivial
  · apply Program.Meets.perform told
    intro counted _
    cases counted with
    | error e => trivial
    | ok count =>
      dsimp only
      split
      next reached =>
        apply Program.Meets.bind (cleanupMissingJobState_counts (if_pos reached))
        intro result w _
        cases result <;> trivial
      next => trivial

section
variable (reg : JobRegistration) (ep : Endpoint) (method : Method) (uri : String)

lemma clearAndForward_counts : Counts threshold (do
    clearMissingJobCounter cfg reg.jobId
    return toResponse (← forwardRequest reg.jobId ep method uri)) v := by
  apply Program.Meets.bind (clearMissingJobCounter_counts reg.jobId)
  intro _ w _
  apply Program.Meets.bind (counts_quiet (forwardRequest_within reg.jobId ep method uri) (by simp))
  intro result w _
  trivial

lemma cancelAndHandle_counts (source : String) (told : v.stage = .told reg.jobId) :
    Counts cfg.autoDeregisterThreshold (do
      perform .cancelHeartbeat
      handleMissingJob cfg reg.jobId source) v := by
  apply Program.Meets.perform trivial
  intro _ _
  apply handleMissingJob_counts source
  change v.stage.ended = _
  rw [told]
  rfl

lemma rewake_counts :
    Counts cfg.autoDeregisterThreshold (rewake cfg reg method uri) v := by
  apply Program.Meets.bind (ensureRunning_counts reg)
  intro woken w told
  split
  · exact clearAndForward_counts reg _ method uri
  · exact cancelAndHandle_counts reg "rewake" (told _ rfl)
  · trivial

lemma refreshAndRetry_counts (err : ForwardRequestError) :
    Counts cfg.autoDeregisterThreshold (refreshAndRetry cfg reg ep method uri err) v := by
  apply Program.Meets.bind (refreshEndpoint_counts reg ep)
  intro refreshed w told
  split
  · exact (clearMissingJobCounter_counts reg.jobId).bind fun _ _ _ => trivial
  · exact clearAndForward_counts reg _ method uri
  · exact rewake_counts reg method uri
  · exact cancelAndHandle_counts reg "refresh" (told _ rfl)
  · trivial

variable (req : Request)

lemma serveOrdinary_counts :
    Counts cfg.autoDeregisterThreshold (serveOrdinary cfg req reg ep) v := by
  apply Program.Meets.bind
    (counts_quiet (forwardRequest_within reg.jobId ep req.method req.uri) (by simp))
  intro result w _
  cases result with
  | ok resp => trivial
  | error err =>
    dsimp only
    split
    · trivial
    · cases replayableMethod req.method with
      | none => trivial
      | some method =>
        apply Program.Meets.bind
          (counts_quiet (retry_within reg.jobId ep method req.uri _ err) (by simp))
        intro retried w _
        cases retried with
        | ok resp => trivial
        | error err => exact refreshAndRetry_counts reg ep method req.uri err

lemma serve_counts : Counts cfg.autoDeregisterThreshold (serve cfg req reg ep) v := by
  apply Program.Meets.perform trivial
  intro _ _
  apply Program.Meets.perform trivial
  intro _ _
  split
  · apply Program.Meets.bind
      (counts_quiet (forwardWebsocketUpgrade_within reg.jobId ep req) (by simp))
    intro result w _
    trivial
  · apply Program.Meets.bind (serveOrdinary_counts reg ep req)
    intro resp w _
    apply Program.Meets.perform trivial
    intro _ _
    exact Program.Meets.perform trivial fun _ _ => trivial

lemma wakeAndServe_counts :
    Counts cfg.autoDeregisterThreshold (wakeAndServe cfg req reg) v := by
  apply Program.Meets.bind (ensureRunning_counts reg)
  intro woken w told
  split
  · apply Program.Meets.bind (clearMissingJobCounter_counts reg.jobId)
    intro _ w _
    exact serve_counts reg _ req
  · exact handleMissingJob_counts "wake" (told _ rfl)
  · trivial

end

lemma proxyHandler_counts (req : Request) :
    Counts cfg.autoDeregisterThreshold (proxyHandler cfg req) v := by
  unfold proxyHandler
  cases req.host with
  | none => trivial
  | some host =>
    apply Program.Meets.bind (counts_quiet (registryGet_within _ _) (by simp))
    intro found w _
    match found with
    | .error e => trivial
    | .ok none => trivial
    | .ok (some reg) => exact wakeAndServe_counts reg req

lemma activityService_counts (req : Request) :
    Counts cfg.autoDeregisterThreshold (activityService cfg req) v := by
  unfold activityService
  cases extractJobId req.host with
  | none => exact (proxyHandler_counts req).bind fun _ _ _ => trivial
  | some key =>
    apply Program.Meets.bind (counts_quiet (recordActivity_within key) (by simp))
    intro _ w _
    apply Program.Meets.bind (proxyHandler_counts req)
    intro _ w _
    exact Program.Meets.perform trivial fun _ _ => trivial

/-! ## Sweeps -/

namespace ScaleDownController

lemma clearBaseline_counts (key : JobId) :
    (clearBaseline cfg key).Meets (missingMonitor threshold) (fun _ w => w = v) v := by
  unfold clearBaseline
  split
  · exact Program.Meets.perform trivial fun _ _ => rfl
  · rfl

lemma cleanupMissingJobState_counts (removing : v.stage = .removing key) :
    Counts threshold (cleanupMissingJobState cfg key) v := by
  apply Program.Meets.perform trivial
  intro c _
  apply Program.Meets.perform trivial
  intro _ _
  apply Program.Meets.perform trivial
  intro _ _
  apply Program.Meets.perform trivial
  intro _ _
  apply Program.Meets.bind (clearBaseline_counts key)
  rintro _ w rfl
  apply Program.Meets.bind (deregister_counts cfg.durable removing)
  intro result w _
  cases result with
  | error e => trivial
  | ok _ => exact Program.Meets.perform trivial fun _ _ => trivial

lemma handleMissingJob_counts (told : v.stage = .told key) :
    Counts cfg.autoDeregisterThreshold (handleMissingJob cfg key) v := by
  unfold handleMissingJob
  split
  · trivial
  · apply Program.Meets.perform told
    intro counted _
    cases counted with
    | error e => trivial
    | ok count =>
      dsimp only
      split
      next reached =>
        exact (cleanupMissingJobState_counts (if_pos reached)).bind fun _ _ _ => trivial
      next => trivial

lemma afterScaleDown_counts (result : Result Unit)
    (told : ∀ id, result = .error (.jobNotFound id) → v.stage = .told key) :
    Counts cfg.autoDeregisterThreshold (afterScaleDown cfg key result) v := by
  have handled (r : Result Unit) (w : MissingView) :
      Counts cfg.autoDeregisterThreshold (handleScaleDownResult cfg key r) w :=
    counts_quiet (handleScaleDownResult_within key r) (by simp)
  unfold afterScaleDown
  split
  · exact (clearMissingJobCounter_counts key).bind fun _ _ _ => handled _ _
  · exact handleMissingJob_counts (told _ rfl)
  · exact (clearMissingJobCounter_counts key).bind fun _ _ _ => handled _ _
  · exact handled _ _

/-- The sweep counts under its key what it is told of the job of the registration. -/
lemma scaleDownRegistered_counts (at_ : v.key = some key) :
    Counts cfg.autoDeregisterThreshold (scaleDownRegistered cfg key) v := by
  apply Program.Meets.bind (missing_quiet (registryGet_within cfg.durable key) (by simp))
  intro found w same
  match found with
  | .error e => trivial
  | .ok none => exact Program.Meets.perform trivial fun _ _ => trivial
  | .ok (some reg) =>
    apply Program.Meets.perform trivial
    intro result named
    apply afterScaleDown_counts result
    rintro id rfl
    have job : w.key = some reg.jobId := named
    obtain rfl : reg.jobId = key := Option.some.inj (job.symm.trans (same.trans at_))
    rfl

lemma unlessTraffic_counts (at_ : v.key = some key) :
    Counts cfg.autoDeregisterThreshold (unlessTraffic cfg key) v := by
  unfold unlessTraffic
  split
  · apply Program.Meets.bind (missing_quiet (hasActiveTraffic_within key) (by simp))
    intro active w same
    match active with
    | .error e => trivial
    | .ok false => exact scaleDownRegistered_counts (same.trans at_)
    | .ok true =>
      exact counts_quiet (.bind (recordActivity_within key) fun _ => trivial) (by simp)
  · exact scaleDownRegistered_counts at_

lemma unlessInFlight_counts (at_ : v.key = some key) :
    Counts cfg.autoDeregisterThreshold (unlessInFlight cfg key) v := by
  apply Program.Meets.perform trivial
  intro busy _
  cases busy with
  | true => exact counts_quiet (.bind (recordActivity_within key) fun _ => trivial) (by simp)
  | false => exact unlessTraffic_counts at_

lemma scaleDownJob_counts (key : JobId) :
    Counts cfg.autoDeregisterThreshold (scaleDownJob cfg key) v := by
  apply Program.Meets.perform trivial
  intro deferral _
  cases deferral with
  | none => exact unlessInFlight_counts rfl
  | some until_ =>
    apply Program.Meets.perform trivial
    intro now _
    split
    · trivial
    · apply Program.Meets.perform trivial
      intro _ _
      exact unlessInFlight_counts rfl

lemma sweep_counts (keys : List JobId) :
    Counts cfg.autoDeregisterThreshold (sweep cfg keys) v := by
  induction keys generalizing v with
  | nil => trivial
  | cons key keys ih =>
    apply Program.Meets.perform trivial
    intro stop _
    cases stop with
    | true => trivial
    | false => exact (scaleDownJob_counts key).bind fun _ _ _ => ih

lemma tick_counts : Counts cfg.autoDeregisterThreshold (tick cfg) v := by
  apply Program.Meets.perform trivial
  intro acquired _
  match acquired with
  | .error e => trivial
  | .ok false => trivial
  | .ok true =>
    apply Program.Meets.perform trivial
    intro now _
    apply Program.Meets.perform trivial
    intro idle _
    cases idle with
    | error e => exact Program.Meets.perform trivial fun _ _ => trivial
    | ok keys =>
      apply Program.Meets.bind (sweep_counts keys)
      intro _ w _
      exact Program.Meets.perform trivial fun _ _ => trivial

end ScaleDownController

/-- Every task keeps to the monitor. -/
lemma entry_counts {c : Code Unit} (entry : Deployment.Entry cfg c) :
    Counts cfg.autoDeregisterThreshold c v := by
  cases entry with
  | request req => exact activityService_counts req
  | tick => exact ScaleDownController.tick_counts
  | allocation a => exact counts_quiet (processAllocationEvent_within a) (by simp)
  | admin reg => exact counts_quiet (adminRegister_within reg) (by simp)
  | task task => exact counts_quiet (task_within task) (by simp)

end NScale.Service
