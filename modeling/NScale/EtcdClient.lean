import NScale.EtcdKeys
import NScale.KeyValue
import NScale.RegistrationText
import NScale.RegistryFailures
import NScale.Simulation

/-!
# The client of etcd

`nscale-etcd/src/client.rs` on an etcd that holds texts under keys and nothing else. The two key
spaces of the registry lie in it under the prefix of their deployment, and a client that reads
and writes texts does to them what the registry relies on.
-/
namespace NScale.Etcd
open JobRegistry RegistrationText

/-! ## The store -/

abbrev Kv := KeyValue String String

inductive KvTxnOp
  | put (key text : String)
  | delete (key : String)
  deriving DecidableEq, Repr

inductive KvOp
  | get (key : String)
  | getPrefix (dir : String)
  | txn (ops : List KvTxnOp)
  deriving DecidableEq, Repr

abbrev KvOp.Value : KvOp → Type
  | .get _ | .getPrefix _ => List (String × String)
  | .txn _ => Unit

/-- An error of the client library is its text. -/
abbrev KvOps : Signature := ⟨KvOp, fun op => Except String op.Value⟩

def KvTxnOp.apply (t : Kv) : KvTxnOp → Kv
  | .put key text => t.insert key text
  | .delete key => t.erase key

/-- What a request answers and does when it does not fail. -/
def KvOp.answer (t : Kv) : (op : KvOp) → op.Value × Kv
  | .get key => ((t.lookup key).toList.map fun text => (key, text), t)
  | .getPrefix dir => (t.range (within dir), t)
  | .txn ops => ((), ops.foldl KvTxnOp.apply t)

def KvTxnOp.put? : KvTxnOp → Option String
  | .put key _ => some key
  | .delete _ => none

def KvTxnOp.delete? : KvTxnOp → Option String
  | .put .. => none
  | .delete key => some key

/-- Etcd refuses a transaction that puts a key twice, or puts and deletes it. -/
def KvOp.Legal : KvOp → Prop
  | .txn ops => (ops.filterMap KvTxnOp.put?).Nodup ∧
      ∀ key ∈ ops.filterMap KvTxnOp.delete?, key ∉ ops.filterMap KvTxnOp.put?
  | _ => True

/-- A request that fails may still have taken effect, unless it is refused. -/
def Serves (op : KvOp) (t : Kv) (result : Except String op.Value) (t' : Kv) : Prop :=
  match result with
  | .ok v => op.Legal ∧ v = (op.answer t).1 ∧ t' = (op.answer t).2
  | .error _ => t' = t ∨ op.Legal ∧ t' = (op.answer t).2

/-! ## The client -/

/-- Code of the client. -/
abbrev KvAction (α : Type) := ExceptT NscaleError (Program KvOps) α

/-- The result of a request, with its error as one of the store. -/
def request (op : KvOp) : KvAction op.Value :=
  ExceptT.mk (Program.call (S := KvOps) op >>= fun result => pure (result.mapError .store))

def fromResult {α : Type} (result : Result α) : KvAction α := ExceptT.mk (pure result)

/-- `serde_json::from_slice` reads what nscale writes, and may read more. -/
structure Decoder where
  decode : String → Result JobRegistration
  reads : ∀ reg, decode (encodeRegistration reg) = .ok reg

section Client
variable (codec : Decoder) (p : KeyPrefix)

def applyTxn (ops : List KvTxnOp) : KvAction Unit := request (.txn ops)

def getByKey (key : String) : KvAction (Option JobRegistration) := do
  let kvs ← request (.get key)
  match kvs.head? with
  | some kv => some <$> fromResult (codec.decode kv.2)
  | none => return none

def decodeAll : List (String × String) → KvAction (List JobRegistration)
  | [] => return []
  | kv :: kvs => do
    let reg ← fromResult (codec.decode kv.2)
    let regs ← decodeAll kvs
    return reg :: regs

def listByPrefix (dir : String) : KvAction (List JobRegistration) := do
  let kvs ← request (.getPrefix dir)
  decodeAll codec kvs

/-- The loop of `service_keys_for_job`. -/
def keysForJob (job : JobId) : List (String × String) → KvAction (List String)
  | [] => return []
  | kv :: kvs => do
    let reg ← fromResult (codec.decode kv.2)
    let keys ← keysForJob job kvs
    return if reg.jobId = job then kv.1 :: keys else keys

def serviceKeysForJob (job : JobId) : KvAction (List String) := do
  let kvs ← request (.getPrefix (p.dir .services))
  keysForJob codec job kvs

def storeRegistration (reg : JobRegistration) : KvAction Unit :=
  let encoded := encodeRegistration reg
  applyTxn [.put (p.key .jobs reg.jobId.val) encoded, .put (p.key .services reg.serviceName.val) encoded]

def removeRegistration (job : JobId) : KvAction Unit := do
  let keys ← serviceKeysForJob codec p job
  applyTxn (keys.map .delete ++ [.delete (p.key .jobs job.val)])

def getByJobId (job : JobId) : KvAction (Option JobRegistration) :=
  getByKey codec (p.key .jobs job.val)

def getByServiceName (service : ServiceName) : KvAction (Option JobRegistration) :=
  getByKey codec (p.key .services service.val)

def listAll : KvAction (List JobRegistration) := do
  let regs ← listByPrefix codec (p.dir .services)
  if !regs.isEmpty then return regs
  else listByPrefix codec (p.dir .jobs)

end Client

/-- The methods of `DurableRegistry` that nscale calls. -/
inductive Call
  | storeRegistration (reg : JobRegistration)
  | removeRegistration (job : JobId)
  | getByJobId (job : JobId)
  | getByServiceName (service : ServiceName)
  | listAll

abbrev Call.Value : Call → Type
  | .storeRegistration _ | .removeRegistration _ => Unit
  | .getByJobId _ | .getByServiceName _ => Option JobRegistration
  | .listAll => List JobRegistration

/-- The method on texts. -/
def Call.onKeys (codec : Decoder) (p : KeyPrefix) : (c : Call) → KvAction c.Value
  | .storeRegistration reg => Etcd.storeRegistration p reg
  | .removeRegistration job => Etcd.removeRegistration codec p job
  | .getByJobId job => Etcd.getByJobId codec p job
  | .getByServiceName service => Etcd.getByServiceName codec p service
  | .listAll => Etcd.listAll codec p

/-- The method on the two tables of the deployment. -/
def Call.onTables : (c : Call) → Action c.Value
  | .storeRegistration reg => JobRegistry.EtcdClient.storeRegistration reg
  | .removeRegistration job => JobRegistry.EtcdClient.removeRegistration job
  | .getByJobId job => JobRegistry.EtcdClient.getByJobId job
  | .getByServiceName service => JobRegistry.EtcdClient.getByServiceName service
  | .listAll => JobRegistry.EtcdClient.listAll

end NScale.Etcd
