import NScale.Job
import NScale.Program

/-!
# The job registry

`nscale-store/src/registry.rs` with the etcd client behind it: two Redis hashes serve as a
cache of two etcd key spaces. Every command of Redis and every request to etcd is one
operation, which may fail. Values are the registrations that their JSON text stands for; an
etcd key is the key prefix, the name of its space and the string kept here.
-/
namespace NScale.JobRegistry

/-- `REGISTRY_BY_JOB_KEY` and `REGISTRY_BY_SERVICE_KEY`. -/
inductive Hash
  | byJob
  | byService
  deriving DecidableEq, Repr

/-- The keys under `jobs_prefix` and under `services_prefix`. -/
inductive Space
  | jobs
  | services
  deriving DecidableEq, Repr

inductive TxnOp
  | put (space : Space) (key : String) (reg : JobRegistration)
  | delete (space : Space) (key : String)
  deriving DecidableEq, Repr

inductive StoreOp
  | hset (hash : Hash) (field : String) (reg : JobRegistration)
  | hget (hash : Hash) (field : String)
  | hdel (hash : Hash) (field : String)
  | hgetall (hash : Hash)
  | etcdGet (space : Space) (key : String)
  | etcdRange (space : Space)
  | etcdTxn (ops : List TxnOp)
  deriving DecidableEq, Repr

abbrev StoreOp.Value : StoreOp → Type
  | .hset .. | .hdel .. | .etcdTxn _ => Unit
  | .hget .. | .etcdGet .. => Option JobRegistration
  | .hgetall _ | .etcdRange _ => List (String × JobRegistration)

instance (op : StoreOp) : DecidableEq op.Value := by
  cases op <;> infer_instance

abbrev StoreOps : Signature := ⟨StoreOp, fun op => Result op.Value⟩

/-- Code of the registry. -/
abbrev Action (α : Type) := ExceptT NscaleError (Program StoreOps) α

def perform (op : StoreOp) : Action op.Value := ExceptT.mk (Program.call (S := StoreOps) op)

namespace EtcdClient

def storeRegistration (reg : JobRegistration) : Action Unit :=
  perform (.etcdTxn [.put .jobs reg.jobId.val reg, .put .services reg.serviceName.val reg])

def serviceKeysForJob (job : JobId) : Action (List String) := do
  let entries ← perform (.etcdRange .services)
  return (entries.filter fun kv => kv.2.jobId = job).map Prod.fst

def removeRegistration (job : JobId) : Action Unit := do
  let keys ← serviceKeysForJob job
  perform (.etcdTxn (keys.map (.delete .services) ++ [.delete .jobs job.val]))

def getByJobId (job : JobId) : Action (Option JobRegistration) := perform (.etcdGet .jobs job.val)

def getByServiceName (service : ServiceName) : Action (Option JobRegistration) :=
  perform (.etcdGet .services service.val)

def listAll : Action (List JobRegistration) := do
  let services ← perform (.etcdRange .services)
  if !services.isEmpty then
    return services.map Prod.snd
  else
    let jobs ← perform (.etcdRange .jobs)
    return jobs.map Prod.snd

end EtcdClient

def cacheRegistration (reg : JobRegistration) : Action Unit := do
  perform (.hset .byJob reg.jobId.val reg)
  perform (.hset .byService reg.serviceName.val reg)

/-- The loops of `sync_from_durable` and `list_all`. -/
def cacheAll : List JobRegistration → Action Unit
  | [] => pure ()
  | reg :: regs => do
    cacheRegistration reg
    cacheAll regs

/-- The loop over the service entries that removes those of one job. -/
def removeServices (job : JobId) : List (String × JobRegistration) → Action Unit
  | [] => pure ()
  | (service, reg) :: entries => do
    if reg.jobId = job then perform (.hdel .byService service)
    removeServices job entries

def removeCachedRegistration (job : JobId) : Action Unit := do
  let entries ← perform (.hgetall .byService)
  removeServices job entries
  perform (.hdel .byJob job.val)

/-- The cached entries by service, or else by job, that `list_all` returns. -/
def cachedEntries : Action (List (String × JobRegistration)) := do
  let entries ← perform (.hgetall .byService)
  if entries.isEmpty then perform (.hgetall .byJob) else return entries

/-- The `durable_hit` of a lookup. -/
def durableHit (lookup : JobId) : Action (Option JobRegistration) := do
  match ← EtcdClient.getByJobId lookup with
  | some reg => return some reg
  | none => EtcdClient.getByServiceName ⟨lookup.val⟩

section
-- whether the registry has a durable store
variable (durable : Bool)

def syncFromDurable : Action ℕ := do
  if durable then
    let regs ← EtcdClient.listAll
    cacheAll regs
    return regs.length
  else return 0

def register (reg : JobRegistration) : Action Unit := do
  if durable then EtcdClient.storeRegistration reg
  cacheRegistration reg

/-- The refill of the cache after a miss in Redis. -/
def readThrough (lookup : JobId) : Action (Option JobRegistration) := do
  if durable then
    match ← durableHit lookup with
    | some reg =>
      cacheRegistration reg
      return some reg
    | none => return none
  else return none

def get (lookup : JobId) : Action (Option JobRegistration) := do
  match ← perform (.hget .byJob lookup.val) with
  | some reg => return some reg
  | none =>
    match ← perform (.hget .byService lookup.val) with
    | some reg => return some reg
    | none => readThrough durable lookup

/-- The attempt to restore the durable entry when the cached ones could not be removed. -/
def restore : Option JobRegistration → Action Unit
  | some reg => tryCatch (EtcdClient.storeRegistration reg) fun _ => pure ()
  | none => pure ()

def deregister (job : JobId) : Action Unit := do
  let existing ← get durable job
  if durable then
    EtcdClient.removeRegistration job
    tryCatch (removeCachedRegistration job) fun err => do
      restore existing
      throw err
  else removeCachedRegistration job

def listAll : Action (List JobRegistration) := do
  let entries ← cachedEntries
  if entries.isEmpty then
    if durable then
      let regs ← EtcdClient.listAll
      cacheAll regs
      return regs
    else return []
  else return entries.map Prod.snd

end

/-! ## The stores -/

/-- A hash of Redis or a key space of etcd. -/
abbrev Table := AList fun _ : String => JobRegistration

namespace Table
variable (t : Table)

def toList : List (String × JobRegistration) := t.entries.map fun e => (e.1, e.2)

/-- The entries in key order, as a range request to etcd returns them. -/
def range : List (String × JobRegistration) :=
  t.toList.insertionSort fun a b => a.1 ≤ b.1

end Table

structure Store where
  byJob : Table
  byService : Table
  jobs : Table
  services : Table

namespace Store

def empty : Store := ⟨∅, ∅, ∅, ∅⟩

def hash (s : Store) : Hash → Table
  | .byJob => s.byJob
  | .byService => s.byService

def setHash (s : Store) (hash : Hash) (t : Table) : Store :=
  match hash with
  | .byJob => { s with byJob := t }
  | .byService => { s with byService := t }

def space (s : Store) : Space → Table
  | .jobs => s.jobs
  | .services => s.services

def setSpace (s : Store) (space : Space) (t : Table) : Store :=
  match space with
  | .jobs => { s with jobs := t }
  | .services => { s with services := t }

def txn (s : Store) : TxnOp → Store
  | .put space key reg => s.setSpace space ((s.space space).insert key reg)
  | .delete space key => s.setSpace space ((s.space space).erase key)

/-- What an operation answers and does when it does not fail. -/
def answer (s : Store) : (op : StoreOp) → op.Value × Store
  | .hset hash field reg => ((), s.setHash hash ((s.hash hash).insert field reg))
  | .hget hash field => ((s.hash hash).lookup field, s)
  | .hdel hash field => ((), s.setHash hash ((s.hash hash).erase field))
  | .hgetall hash => ((s.hash hash).toList, s)
  | .etcdGet space key => ((s.space space).lookup key, s)
  | .etcdRange space => ((s.space space).range, s)
  | .etcdTxn ops => ((), ops.foldl txn s)

/-- Run code of the registry alone, without a failing operation. -/
def handle (op : StoreOp) (s : Store) : Result op.Value × Store := (.ok (s.answer op).1, (s.answer op).2)

end Store

end NScale.JobRegistry
