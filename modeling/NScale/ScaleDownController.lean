import NScale.Service

/-!
# The background tasks of a replica

`crates/nscale-scaler`: the sweep of the scale-down controller with its traffic probe, and
the event processor; with them the admin handler that registers a job.
-/
namespace NScale.Service

/-- `DEPLOYMENT_BACKOFF`. -/
def deploymentBackoff : ℕ := 30000

/-- `TrafficProbe::has_active_traffic`. -/
def hasActiveTraffic (key : JobId) : Code (Result Bool) := do
  match ← perform (.scrape key) with
  | .error e => return .error e
  | .ok total =>
    match ← perform (.replaceCount key total) with
    | none => return .ok (0 < total)
    | some prev => return .ok (prev < total)

namespace ScaleDownController
variable (cfg : Config)

def clearBaseline (key : JobId) : Code Unit := do
  if cfg.trafficProbe then perform (.clearBaseline key) else return ()

def cleanupMissingJobState (key : JobId) : Code (Result Unit) := do
  markDormant key
  let _ ← perform (.zrem key)
  perform (.dropDeferral key)
  clearBaseline cfg key
  match ← registry (JobRegistry.deregister cfg.durable key) with
  | .error e => return .error e
  | .ok () =>
    let _ ← perform (.clearNotFound key)
    return .ok ()

def handleMissingJob (key : JobId) : Code Unit := do
  if !cfg.autoDeregisterEnabled then return ()
  else
    match ← perform (.incrementNotFound key) with
    | .error _ => return ()
    | .ok count =>
      if cfg.autoDeregisterThreshold ≤ count then
        let _ ← cleanupMissingJobState cfg key
        return ()
      else return ()

def handleScaleDownResult (key : JobId) : Result Unit → Code Unit
  | .ok () => do
    markDormant key
    let _ ← perform (.zrem key)
    clearBaseline cfg key
    perform (.dropDeferral key)
  | .error (.deploymentInProgress _ _) => do
    let now ← perform .now
    perform (.defer key (now + deploymentBackoff))
    let _ ← recordActivity key
    return ()
  | .error _ => return ()

/-- The match on the answer of Nomad. -/
def afterScaleDown (key : JobId) (result : Result Unit) : Code Unit := do
  match result with
  | .ok () =>
    clearMissingJobCounter cfg key
    handleScaleDownResult cfg key (.ok ())
  | .error (.jobNotFound _) => handleMissingJob cfg key
  | .error (.deploymentInProgress job operation) =>
    clearMissingJobCounter cfg key
    handleScaleDownResult cfg key (.error (.deploymentInProgress job operation))
  | .error e => handleScaleDownResult cfg key (.error e)

/-- The registration is looked up and its group scaled down. -/
def scaleDownRegistered (key : JobId) : Code Unit := do
  match ← registry (JobRegistry.get cfg.durable key) with
  | .ok (some reg) =>
    let result ← perform (.scaleDown reg.jobId reg.nomadGroup)
    afterScaleDown cfg key result
  | .ok none =>
    let _ ← perform (.zrem key)
    return ()
  | .error _ => return ()

/-- The traffic guard. -/
def unlessTraffic (key : JobId) : Code Unit := do
  if cfg.trafficProbe then
    match ← hasActiveTraffic key with
    | .ok true =>
      let _ ← recordActivity key
      return ()
    | .ok false => scaleDownRegistered cfg key
    | .error _ => return ()
  else scaleDownRegistered cfg key

/-- The in-flight guard. -/
def unlessInFlight (key : JobId) : Code Unit := do
  if ← perform (.hasInFlight key) then
    let _ ← recordActivity key
    return ()
  else unlessTraffic cfg key

def scaleDownJob (key : JobId) : Code Unit := do
  match ← perform (.deferral key) with
  | none => unlessInFlight cfg key
  | some until_ =>
    if (← perform .now) < until_ then return ()
    else
      perform (.dropDeferral key)
      unlessInFlight cfg key

/-- The loop over the idle jobs. -/
def sweep : List JobId → Code Unit
  | [] => return ()
  | key :: keys => do
    if ← perform .cancelled then return ()
    else
      scaleDownJob cfg key
      sweep keys

def tick : Code Unit := do
  match ← perform (.tryAcquireLock cfg.lockTtl) with
  | .error _ => return ()
  | .ok false => return ()
  | .ok true =>
    -- from here on the guard of the lock spawns its release on every path
    match ← getIdleJobs cfg.idleThreshold with
    | .error _ => perform (.spawn .releaseLock)
    | .ok keys =>
      sweep cfg keys
      perform (.spawn .releaseLock)

end ScaleDownController

/-- The fields of an allocation event that the processor reads. -/
structure Allocation where
  job : JobId
  id : String
  clientStatus : String
  desiredStatus : String
  deriving DecidableEq, Repr

def Allocation.isRunning (a : Allocation) : Bool :=
  a.clientStatus = "running" ∧ a.desiredStatus = "run"

def Allocation.isStopped (a : Allocation) : Bool :=
  a.clientStatus ∈ ["complete", "failed", "lost"] ∨ a.desiredStatus = "stop"

/-- `EventProcessor::handle_allocation_event`. -/
def handleAllocationEvent (cfg : Config) (a : Allocation) : Code (Result Unit) := do
  match ← registry (JobRegistry.get cfg.durable a.job) with
  | .error e => return .error e
  | .ok none => return .ok ()
  | .ok (some _) =>
    if a.isRunning then
      if ← perform (.seeRunning a.id) then recordActivity a.job else return .ok ()
    else if a.isStopped then
      perform (.forgetRunning a.id)
      markDormant a.job
      let _ ← perform (.zrem a.job)
      return .ok ()
    else return .ok ()

/-- The loop of `EventProcessor::run` on one event: an error is logged. -/
def processAllocationEvent (cfg : Config) (a : Allocation) : Code Unit := do
  let _ ← handleAllocationEvent cfg a
  return ()

/-- `admin_register`. -/
def adminRegister (cfg : Config) (reg : JobRegistration) : Code Unit := do
  match ← registry (JobRegistry.register cfg.durable reg) with
  | .ok () =>
    let _ ← recordActivity reg.jobId
    return ()
  | .error _ => return ()

end NScale.Service
