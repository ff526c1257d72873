import NScale.JobRegistry
import NScale.WakeCoordinator

/-!
# Operations of the service

What the code of a replica does to anything outside its own task: commands to Redis, requests
to Nomad, to the backends and to the metrics endpoint, accesses to the trackers and maps that
the tasks of a replica share, calls of its wake coordinator, and spawned tasks. Time is
counted in milliseconds.
-/
namespace NScale.Service

inductive Method
  | get
  | head
  | other (name : String)
  deriving DecidableEq, Repr

/-- An inbound request: its `Host` header, which may be absent or not visible ASCII, and
whether it asks for a WebSocket upgrade. -/
structure Request where
  host : Option (Option String)
  method : Method
  uri : String
  upgrade : Bool
  deriving DecidableEq, Repr

/-- The head of a backend's response, and whether a body follows it. -/
structure BackendResponse where
  status : ℕ
  hasBody : Bool
  deriving DecidableEq, Repr

/-- `StatusCode::SWITCHING_PROTOCOLS`. -/
def switchingProtocols : ℕ := 101

inductive ForwardRequestError
  | transport (isConnect isTimeout : Bool)
  | responseBuild
  | upgradeConnect
  | upgradeHandshake
  | upgradeRequest
  deriving DecidableEq, Repr

def ForwardRequestError.statusCode : ForwardRequestError → ℕ
  | .transport _ _ | .upgradeConnect | .upgradeHandshake | .upgradeRequest => 502
  | .responseBuild => 500

def ForwardRequestError.isRetryableTransport : ForwardRequestError → Bool
  | .transport isConnect isTimeout => isConnect || isTimeout
  | .upgradeConnect | .upgradeHandshake => true
  | .responseBuild | .upgradeRequest => false

abbrev Forwarded := Except ForwardRequestError BackendResponse

/-- What the handler returns: a response of its own, or the one of the backend. -/
inductive Response
  | reply (status : ℕ) (text : String)
  | backend (resp : BackendResponse)
  deriving DecidableEq, Repr

/-- The tasks that are spawned besides wake tasks and heartbeats. -/
inductive Task
  | recordActivity (key : JobId)
  | releaseLock
  | tunnel
  deriving DecidableEq, Repr

inductive Op
  | now
  | sleep (millis : ℕ)
  | cancelled
  | spawn (task : Task)
  -- the registry
  | store (op : JobRegistry.StoreOp)
  -- the activity store and its lock
  | zadd (key : JobId) (score : ℕ)
  | zrangebyscore (cutoff : ℤ)
  | zrem (key : JobId)
  | tryAcquireLock (ttl : ℕ)
  | releaseLock
  -- the missing-job tracker
  | incrementNotFound (job : JobId)
  | clearNotFound (job : JobId)
  -- the in-flight tracker and the guard that the task holds
  | track (job : JobId)
  | dropGuard
  | hasInFlight (key : JobId)
  | startHeartbeat (job : JobId)
  | cancelHeartbeat
  -- the wake coordinator: a call is made, and its return is awaited
  | call (op : WakeCoordinator.Operation)
  | ensured (reg : JobRegistration) (call : ℕ)
  | refreshed (reg : JobRegistration) (call : ℕ)
  | cleared (job : JobId) (call : ℕ)
  -- the scale-down controller
  | scaleDown (job : JobId) (group : String)
  | deferral (key : JobId)
  | dropDeferral (key : JobId)
  | defer (key : JobId) (until_ : ℕ)
  | scrape (key : JobId)
  | replaceCount (key : JobId) (total : ℕ)
  | clearBaseline (key : JobId)
  -- the event processor
  | seeRunning (alloc : String)
  | forgetRunning (alloc : String)
  -- the backend of a job
  | connect (ep : Endpoint)
  | send (job : JobId) (ep : Endpoint) (method : Method) (uri : String)
  | response
  | upgradeResponse
  | tunnelClosed
  deriving DecidableEq, Repr

abbrev Op.Answer : Op → Type
  | .now => ℕ
  | .cancelled | .hasInFlight _ | .seeRunning _ => Bool
  | .store op => Result op.Value
  | .zadd .. | .zrem _ | .releaseLock | .clearNotFound _ | .scaleDown .. => Result Unit
  | .zrangebyscore _ => Result (List JobId)
  | .tryAcquireLock _ => Result Bool
  | .incrementNotFound _ | .scrape _ => Result ℕ
  | .call _ => ℕ
  | .ensured .. => Result Endpoint
  | .refreshed .. => Result WakeCoordinator.EndpointRefresh
  | .deferral _ | .replaceCount .. => Option ℕ
  | .connect _ => Except ForwardRequestError Unit
  | .response | .upgradeResponse => Forwarded
  | .sleep _ | .spawn _ | .track _ | .dropGuard | .startHeartbeat _ | .cancelHeartbeat => Unit
  | .cleared .. | .dropDeferral _ | .defer .. | .clearBaseline _ | .forgetRunning _ => Unit
  | .send .. | .tunnelClosed => Unit

instance (op : Op) : DecidableEq op.Answer := by
  cases op <;> infer_instance

instance : Inhabited NscaleError := ⟨.http ""⟩

instance : Inhabited ForwardRequestError := ⟨.upgradeRequest⟩

instance (op : Op) : Inhabited op.Answer := by
  cases op <;> infer_instance

abbrev Ops : Signature := ⟨Op, Op.Answer⟩

/-- Code of the service. -/
abbrev Code (α : Type) := Program Ops α

def perform (op : Op) : Code op.Answer := Program.call (S := Ops) op

/-- The settings of a replica, the same for all replicas. -/
structure Config where
  nomadConcurrency : ℕ
  wakeTimeout : ℕ
  durable : Bool
  autoDeregisterEnabled : Bool
  autoDeregisterThreshold : ℕ
  idleThreshold : ℕ
  lockTtl : ℕ
  trafficProbe : Bool

/-- Code of the registry, each of its commands one operation of the service. -/
def registry {α : Type} (x : JobRegistry.Action α) : Code (Result α) :=
  Program.lift (T := Ops) Op.store (fun _ r => r) x.run

def recordActivity (key : JobId) : Code (Result Unit) := do
  let score ← perform .now
  perform (.zadd key score)

def getIdleJobs (threshold : ℕ) : Code (Result (List JobId)) := do
  let now ← perform .now
  perform (.zrangebyscore ((now : ℤ) - threshold))

def ensureRunning (reg : JobRegistration) : Code (Result Endpoint) := do
  let c ← perform (.call (.ensureRunning reg))
  perform (.ensured reg c)

def refreshEndpoint (reg : JobRegistration) (current : Endpoint) :
    Code (Result WakeCoordinator.EndpointRefresh) := do
  let c ← perform (.call (.refreshEndpoint reg current))
  perform (.refreshed reg c)

def markDormant (job : JobId) : Code Unit := do
  let c ← perform (.call (.markDormant job))
  perform (.cleared job c)

def clearMissingJobCounter (cfg : Config) (job : JobId) : Code Unit := do
  if cfg.autoDeregisterEnabled then
    let _ ← perform (.clearNotFound job)
    return ()
  else return ()

/-- The body of a task, which starts with what it is handed. -/
def Task.code : Task → Code Unit
  | .recordActivity key => do
    let _ ← Service.recordActivity key
    return ()
  | .releaseLock => do
    let _ ← perform .releaseLock
    return ()
  | .tunnel => do
    perform .tunnelClosed
    perform .dropGuard
    perform .cancelHeartbeat

end NScale.Service
