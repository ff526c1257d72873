import NScale.JobMutator
import NScale.ScaleDownTrace
import NScale.RegistryRemoval

/-!
# The admin API

The handlers of `main.rs`: a job is submitted to Nomad and registered, purged from Nomad and
forgotten, registrations are synchronised. A handler runs the code of the replica it belongs to
and sends its own requests to Nomad.
-/
namespace NScale.Admin
open Program Service JobRegistry JobMutator
open Json (Value)

structure JobSubmitResponse where
  evalId : String
  jobModifyIndex : UInt64
  warnings : Option String
  deriving DecidableEq, Repr

structure JobStopResponse where
  evalId : String
  evalCreateIndex : UInt64
  jobModifyIndex : UInt64
  deriving DecidableEq, Repr

inductive AdminOp
  | service (op : Service.Op)
  | count (job : JobId)
  -- requests to Nomad
  | parseJob (hcl : String) (variables_ : Option String)
  | submitJob (job : Value)
  | stopAndPurgeJob (job : JobId)

abbrev AdminOp.Answer : AdminOp → Type
  | .service op => op.Answer
  | .count _ => ℕ
  | .parseJob .. => Result Value
  | .submitJob _ => Result JobSubmitResponse
  | .stopAndPurgeJob _ => Result JobStopResponse

abbrev AdminOps : Signature := ⟨AdminOp, AdminOp.Answer⟩

/-- Code of an admin handler. -/
abbrev AdminCode (α : Type) := Program AdminOps α

def perform (op : AdminOp) : AdminCode op.Answer := Program.call (S := AdminOps) op

/-- Code of the replica, run by a handler. -/
def service {α : Type} (p : Service.Code α) : AdminCode α :=
  p.lift (T := AdminOps) AdminOp.service fun _ r => r

structure RegistrationFailure where
  serviceName : String
  error : String
  deriving DecidableEq, Repr

structure SubmitJobRequest where
  hcl : String
  variables_ : Option String
  deriving DecidableEq, Repr

structure SubmitJobResponse where
  jobId : String
  evalId : String
  jobModifyIndex : UInt64
  warnings : Option String
  managedServices : List JobRegistration
  registrationFailures : List RegistrationFailure
  deriving DecidableEq, Repr

/-- The body of a purge that went through. -/
structure PurgeReport where
  jobId : JobId
  purged : Bool
  force : Bool
  inFlight : ℕ
  evalId : Option String
  warnings : List String
  deriving DecidableEq, Repr

/-- What a handler returns. The bodies of refused and failed requests carry an error text. -/
inductive Response
  | text (status : ℕ) (body : String)
  | error (status : ℕ) (error : String)
  | conflict (jobId : JobId) (inFlight : ℕ)
  | notPurged (error : String) (jobId : JobId)
  | notCleaned (error : String) (jobId : JobId) (purged : Bool)
  | purged (report : PurgeReport)
  | submitted (status : ℕ) (body : SubmitJobResponse)
  | synced (synced failed total : ℕ)
  deriving DecidableEq, Repr

def Response.status : Response → ℕ
  | .text status _ | .error status _ | .submitted status _ => status
  | .conflict .. => 409
  | .notPurged .. => 502
  | .notCleaned .. => 500
  | .purged _ | .synced .. => 200

/-- The error text of a conflict. -/
def conflictText : String :=
  "job has in-flight proxied requests; retry with force=true to purge anyway"

def unmanagedText : String :=
  "parsed job does not contain any Traefik-enabled services for nscale"

def adminErrorStatus : NscaleError → ℕ
  | .http _ => 502
  | _ => 400

section
variable (durable : Bool)

def readyz : AdminCode Response := do
  match ← service (registry (listAll durable)) with
  | .ok _ => return .text 200 "ready"
  | .error e => return .text 503 ("not ready: " ++ e.toText)

/-- `warnings.push` where the step has failed. -/
def warning (what : String) : Result Unit → List String
  | .ok () => []
  | .error e => [what ++ e.toText]

def cleanupAdminJobState (job : JobId) : AdminCode (Result (List String)) := do
  service (markDormant job)
  let removed ← service (Service.perform (.zrem job))
  match ← service (registry (deregister durable job)) with
  | .error e => return .error e
  | .ok () =>
    let cleared ← service (Service.perform (.clearNotFound job))
    return .ok (warning "failed to remove activity: " removed ++
      warning "failed to clear missing-job counter: " cleared)

/-- The clean-up after Nomad has purged the job, or did not have it. -/
def cleanupPurged (job : JobId) (force : Bool) (inFlight : ℕ) (evalId : Option String) :
    AdminCode Response := do
  match ← cleanupAdminJobState durable job with
  | .error e => return .notCleaned e.toText job evalId.isSome
  | .ok warnings => return .purged ⟨job, evalId.isSome, force, inFlight, evalId, warnings⟩

def adminPurgeJob (job : JobId) (force : Bool) : AdminCode Response := do
  let inFlight ← perform (.count job)
  if 0 < inFlight ∧ force = false then return .conflict job inFlight
  else
    match ← perform (.stopAndPurgeJob job) with
    | .ok response => cleanupPurged durable job force inFlight (some response.evalId)
    | .error (.jobNotFound _) => cleanupPurged durable job force inFlight none
    | .error e => return .notPurged e.toText job

/-- The loop over the managed services: the jobs that were registered, and the failures. -/
def registerAll : List JobRegistration → AdminCode (List JobId × List RegistrationFailure)
  | [] => return ([], [])
  | reg :: regs => do
    let result ← service (registry (register durable reg))
    let (seeded, failures) ← registerAll regs
    match result with
    | .ok () => return (reg.jobId :: seeded, failures)
    | .error e => return (seeded, ⟨reg.serviceName.val, e.toText⟩ :: failures)

/-- The elements of a `BTreeSet<String>`. -/
def treeSet (jobs : List JobId) : List JobId :=
  jobs.dedup.insertionSort fun a b => a.val ≤ b.val

def seedAll : List JobId → AdminCode Unit
  | [] => return ()
  | job :: jobs => do
    let _ ← service (recordActivity job)
    seedAll jobs

/-- What follows the submission of a job with managed services. -/
def registerSubmitted (response : JobSubmitResponse) (managed : List JobRegistration)
    (first : JobRegistration) : AdminCode Response := do
  let (seeded, failures) ← registerAll durable managed
  seedAll (treeSet seeded)
  return .submitted (if failures.isEmpty then 201 else 207)
    ⟨first.jobId.val, response.evalId, response.jobModifyIndex,
      response.warnings.filter fun w => !w.isEmpty, managed, failures⟩

def adminSubmitJob (fileProviderService : String) (request : SubmitJobRequest) :
    AdminCode Response := do
  match ← perform (.parseJob request.hcl request.variables_) with
  | .error e => return .error (adminErrorStatus e) e.toText
  | .ok parsed =>
    match injectNscaleTags parsed fileProviderService with
    | .error e => return .error 400 e.toText
    | .ok (_, []) => return .error 400 unmanagedText
    | .ok (job, first :: managed) =>
      match ← perform (.submitJob job) with
      | .error e => return .error (adminErrorStatus e) e.toText
      | .ok response => registerSubmitted durable response (first :: managed) first

def adminRegister (reg : JobRegistration) : AdminCode Response := do
  match ← service (registry (register durable reg)) with
  | .ok () =>
    let _ ← service (recordActivity reg.jobId)
    return .text 201 "registered"
  | .error e => return .text 500 ("error: " ++ e.toText)

/-- The loop of `admin_sync`: how many were registered, and how many were not. -/
def syncAll : List JobRegistration → AdminCode (ℕ × ℕ)
  | [] => return (0, 0)
  | reg :: regs => do
    match ← service (registry (register durable reg)) with
    | .ok () =>
      let _ ← service (recordActivity reg.jobId)
      let (ok, failed) ← syncAll regs
      return (ok + 1, failed)
    | .error _ =>
      let (ok, failed) ← syncAll regs
      return (ok, failed + 1)

def adminSync (registrations : List JobRegistration) : AdminCode Response := do
  let (ok, failed) ← syncAll durable registrations
  return .synced ok failed registrations.length

end

/-! ## A handler that runs alone -/

/-- The replicas, and what Nomad was told: the jobs it has accepted and those it has purged,
newest first. -/
structure World where
  state : Deployment.State
  submitted : List Value
  purged : List JobId

/-- A command to a store that reports an error. It may have been carried out all the same. -/
def Fails : (op : Service.Op) → op.Answer → Prop
  | .store _, .error _ | .zadd .., .error _ | .zrem _, .error _ | .clearNotFound _, .error _ => True
  | _, _ => False

/-- The replica answers an operation of its code. -/
def Replies (cfg : Config) (r : ℕ) (op : Service.Op) (s : Deployment.State) (a : op.Answer)
    (t : Deployment.State) : Prop :=
  ∃ c b, ScaleDownTrace.Awaits cfg op (s.coordinator r) c ∧
    (s.setCoordinator r c).answer r .nothing op b = some t ∧ (b = a ∨ Fails op a)

/-- An operation of a handler of replica `r`. A request to Nomad that fails may have
been carried out all the same. -/
def Answers (cfg : Config) (r : ℕ) : (op : AdminOp) → World → op.Answer → World → Prop
  | .service op, w, a, u => ∃ t, Replies cfg r op w.state a t ∧ u = { w with state := t }
  | .count job, w, n, u => n = w.state.inFlight r job ∧ u = w
  | .parseJob .., w, _, u => u = w
  | .submitJob job, w, .ok _, u => u = { w with submitted := job :: w.submitted }
  | .submitJob job, w, .error _, u => u = w ∨ u = { w with submitted := job :: w.submitted }
  | .stopAndPurgeJob job, w, .ok _, u => u = { w with purged := job :: w.purged }
  | .stopAndPurgeJob job, w, .error _, u => u = w ∨ u = { w with purged := job :: w.purged }

end NScale.Admin
