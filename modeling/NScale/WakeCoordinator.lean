import NScale.Job

/-!
# The wake coordinator as a transition system

`crates/nscale-waker`: one step is one operation on a `DashMap`, on the atomic status of a
`WakeState`, on its broadcast channel or on the semaphore, or one answer of Nomad or Consul.
A call is the position of one caller inside `ensure_running`, `mark_dormant`, `invalidate`
or `refresh_endpoint`; a task is the position of one spawned wake task. The `Ref` of
`jobs.get(..)` keeps its shard locked while the status is stored, so that lookup and store
are one step.
-/
namespace NScale.WakeCoordinator

/-- The values `STATE_DORMANT`, `STATE_WAKING` and `STATE_READY` of the atomic status; no
other value is ever stored. -/
inductive Status
  | dormant
  | waking
  | ready
  deriving DecidableEq, Repr

/-- Result broadcast to all waiters once a wake-up completes. -/
inductive WakeResult
  | ready (ep : Endpoint)
  | jobNotFound (jobId : String)
  | failed (msg : String)
  | cancelled
  deriving DecidableEq, Repr

/-- One `Arc<WakeState>`: the key it was inserted under, its status, and the number of live
receivers of its broadcast channel. -/
structure WakeState where
  key : JobId
  status : Status
  receivers : ℕ
  deriving DecidableEq, Repr

inductive EndpointRefresh
  | confirmed (ep : Endpoint)
  | updated (ep : Endpoint)
  | missing
  deriving DecidableEq, Repr

/-- Who runs the three statements that evict an endpoint, reset a status and drop an entry. -/
inductive Reset
  | markDormant
  | invalidate
  | refresh (reg : JobRegistration)
  deriving DecidableEq, Repr

/-- Position of a caller. A subscribed caller carries the first message sent to its channel
since it subscribed. -/
inductive Call
  | fastPath (reg : JobRegistration)
  | entry (reg : JobRegistration)
  | load (reg : JobRegistration) (w : ℕ)
  | cached (reg : JobRegistration)
  | fetch (reg : JobRegistration)
  | store (reg : JobRegistration) (ep : Endpoint)
  | subscribe (reg : JobRegistration) (w : ℕ)
  | tryStart (reg : JobRegistration) (w : ℕ)
  | ownSubscribe (reg : JobRegistration) (w : ℕ)
  | spawn (reg : JobRegistration) (w : ℕ) (inbox : Option WakeResult)
  | recv (reg : JobRegistration) (w : ℕ) (inbox : Option WakeResult)
  | ensured (reg : JobRegistration) (result : Result Endpoint)
  | evict (job : JobId) (by_ : Reset)
  | reset (job : JobId) (by_ : Reset)
  | remove (job : JobId) (by_ : Reset)
  | cleared (job : JobId)
  | query (reg : JobRegistration) (current : Endpoint)
  | refreshStore (reg : JobRegistration) (current ep : Endpoint)
  | refreshReady (reg : JobRegistration) (current ep : Endpoint)
  | refreshed (reg : JobRegistration) (result : Result EndpointRefresh)
  | dropped
  deriving DecidableEq, Repr

/-- Position of a wake task: `run_wake_task` up to `health`, then the handling of its result. -/
inductive Task
  | acquire (reg : JobRegistration) (w : ℕ)
  | scaleUp (reg : JobRegistration) (w : ℕ)
  | health (reg : JobRegistration) (w : ℕ) (sawNone : Bool)
  | publish (reg : JobRegistration) (w : ℕ) (ep : Endpoint)
  | storeReady (reg : JobRegistration) (w : ℕ) (ep : Endpoint)
  | sendReady (reg : JobRegistration) (w : ℕ) (ep : Endpoint)
  | storeDormant (reg : JobRegistration) (w : ℕ) (why : WakeResult)
  | sendFailure (reg : JobRegistration) (w : ℕ) (why : WakeResult)
  | removeEntry (reg : JobRegistration) (w : ℕ)
  | finished
  deriving DecidableEq, Repr

structure State where
  jobs : JobId → Option ℕ
  endpoints : JobId → Option Endpoint
  cells : ℕ → WakeState
  nextCell : ℕ
  calls : ℕ → Option Call
  nextCall : ℕ
  tasks : ℕ → Option Task
  nextTask : ℕ
  permits : ℕ
  wakeTimeout : ℕ

/-- `WakeCoordinator::new`. -/
def initial (nomadConcurrency wakeTimeout : ℕ) : State where
  jobs _ := none
  endpoints _ := none
  cells _ := ⟨⟨""⟩, .dormant, 0⟩
  nextCell := 0
  calls _ := none
  nextCall := 0
  tasks _ := none
  nextTask := 0
  permits := nomadConcurrency
  wakeTimeout := wakeTimeout

/-- The calls that the program makes. -/
inductive Operation
  | ensureRunning (reg : JobRegistration)
  | markDormant (job : JobId)
  | invalidate (job : JobId)
  | refreshEndpoint (reg : JobRegistration) (current : Endpoint)
  deriving DecidableEq, Repr

def Operation.call : Operation → Call
  | .ensureRunning reg => .fastPath reg
  | .markDormant job => .evict job .markDormant
  | .invalidate job => .evict job .invalidate
  | .refreshEndpoint reg current => .query reg current

/-- What a caller returns for the message it received. -/
def reply (reg : JobRegistration) : WakeResult → Result Endpoint
  | .ready ep => .ok ep
  | .cancelled => .error (.wakeAbandoned reg.jobId.val)
  | .jobNotFound jobId => .error (.jobNotFound jobId)
  | .failed msg => .error (.nomad ("wake failed: " ++ msg))

/-- What a wake task broadcasts for an error of `run_wake_task`. -/
def failure : NscaleError → WakeResult
  | .wakeAbandoned _ => .cancelled
  | .jobNotFound jobId => .jobNotFound jobId
  | e => .failed e.toText

def noHealthyEndpoint (reg : JobRegistration) : NscaleError :=
  .jobNotReady ("job " ++ reg.jobId.val ++ " marked ready but no healthy endpoint")

/-- What `refresh_endpoint` reports for a healthy endpoint. -/
def refreshReply (current ep : Endpoint) : EndpointRefresh :=
  if ep = current then .confirmed ep else .updated ep

/-- The return of the eviction statements to their caller. -/
def Reset.finish (job : JobId) : Reset → Call
  | .markDormant => .cleared job
  | .invalidate => .cleared job
  | .refresh reg => .refreshed reg (.ok .missing)

inductive Event
  | begin (op : Operation)
  | fastPath (i : ℕ) (reg : JobRegistration)
  | entry (i : ℕ) (reg : JobRegistration)
  | load (i : ℕ) (reg : JobRegistration) (w : ℕ)
  | cached (i : ℕ) (reg : JobRegistration)
  | fetched (i : ℕ) (reg : JobRegistration) (answer : Result (Option Endpoint))
  | store (i : ℕ) (reg : JobRegistration) (ep : Endpoint)
  | subscribe (i : ℕ) (reg : JobRegistration) (w : ℕ)
  | tryStart (i : ℕ) (reg : JobRegistration) (w : ℕ)
  | ownSubscribe (i : ℕ) (reg : JobRegistration) (w : ℕ)
  | spawn (i : ℕ) (reg : JobRegistration) (w : ℕ) (inbox : Option WakeResult)
  | recv (i : ℕ) (reg : JobRegistration) (w : ℕ) (msg : WakeResult)
  | timeout (i : ℕ) (reg : JobRegistration) (w : ℕ)
  | dropFetch (i : ℕ) (reg : JobRegistration)
  | dropRecv (i : ℕ) (reg : JobRegistration) (w : ℕ) (inbox : Option WakeResult)
  | dropQuery (i : ℕ) (reg : JobRegistration) (current : Endpoint)
  | evict (i : ℕ) (job : JobId) (by_ : Reset)
  | reset (i : ℕ) (job : JobId) (by_ : Reset)
  | remove (i : ℕ) (job : JobId) (by_ : Reset)
  | queried (i : ℕ) (reg : JobRegistration) (current : Endpoint)
      (answer : Result (Option Endpoint))
  | refreshStore (i : ℕ) (reg : JobRegistration) (current ep : Endpoint)
  | refreshReady (i : ℕ) (reg : JobRegistration) (current ep : Endpoint)
  | acquire (t : ℕ) (reg : JobRegistration) (w : ℕ)
  | scaled (t : ℕ) (reg : JobRegistration) (w : ℕ) (answer : Result Unit)
  | healthy (t : ℕ) (reg : JobRegistration) (w : ℕ) (sawNone : Bool) (answer : Result Endpoint)
  | pollReceivers (t : ℕ) (reg : JobRegistration) (w : ℕ) (sawNone : Bool)
  | publish (t : ℕ) (reg : JobRegistration) (w : ℕ) (ep : Endpoint)
  | storeReady (t : ℕ) (reg : JobRegistration) (w : ℕ) (ep : Endpoint)
  | sendReady (t : ℕ) (reg : JobRegistration) (w : ℕ) (ep : Endpoint)
  | storeDormant (t : ℕ) (reg : JobRegistration) (w : ℕ) (why : WakeResult)
  | sendFailure (t : ℕ) (reg : JobRegistration) (w : ℕ) (why : WakeResult)
  | removeEntry (t : ℕ) (reg : JobRegistration) (w : ℕ)
  deriving DecidableEq, Repr

namespace State
variable (s : State)

@[simps] def setCall (i : ℕ) (c : Call) : State :=
  { s with calls := Function.update s.calls i (some c) }

@[simps] def setTask (t : ℕ) (k : Task) : State :=
  { s with tasks := Function.update s.tasks t (some k) }

@[simps] def setEndpoint (job : JobId) (ep : Option Endpoint) : State :=
  { s with endpoints := Function.update s.endpoints job ep }

@[simps] def setJob (job : JobId) (w : Option ℕ) : State :=
  { s with jobs := Function.update s.jobs job w }

@[simps] def setStatus (w : ℕ) (status : Status) : State :=
  { s with cells := Function.update s.cells w { s.cells w with status := status } }

@[simps] def setReceivers (w : ℕ) (n : ℕ) : State :=
  { s with cells := Function.update s.cells w { s.cells w with receivers := n } }

@[simps] def setPermits (n : ℕ) : State := { s with permits := n }

/-- `notify.subscribe()`. -/
def joined (w : ℕ) : State := s.setReceivers w ((s.cells w).receivers + 1)

/-- The receiver is dropped when its call returns or is dropped. -/
def left (w : ℕ) : State := s.setReceivers w ((s.cells w).receivers - 1)

end State

/-- A message reaches every receiver of its channel; a caller only looks at its first one. -/
def Call.deliver (w : ℕ) (msg : WakeResult) : Call → Call
  | .spawn reg v none => .spawn reg v (if v = w then some msg else none)
  | .recv reg v none => .recv reg v (if v = w then some msg else none)
  | c => c

/-- `notify.send(..)`. -/
@[simps] def State.broadcast (s : State) (w : ℕ) (msg : WakeResult) : State :=
  { s with calls := fun i => (s.calls i).map (Call.deliver w msg) }

/-- `jobs.entry(job).or_insert_with(..)`, the new state being dormant and without receivers. -/
def State.orInsert (s : State) (job : JobId) : State × ℕ :=
  match s.jobs job with
  | some w => (s, w)
  | none =>
      ({ s with
          jobs := Function.update s.jobs job (some s.nextCell)
          cells := Function.update s.cells s.nextCell ⟨job, .dormant, 0⟩
          nextCell := s.nextCell + 1 }, s.nextCell)

/-- `if let Some(state) = jobs.get(job) { state.status.store(..) }`. -/
def State.storeStatus (s : State) (job : JobId) (status : Status) : State :=
  match s.jobs job with
  | some w => s.setStatus w status
  | none => s

def Event.enabled (s : State) : Event → Bool
  | .begin _ => true
  | .fastPath i reg => s.calls i = some (.fastPath reg)
  | .entry i reg => s.calls i = some (.entry reg)
  | .load i reg w => s.calls i = some (.load reg w)
  | .cached i reg => s.calls i = some (.cached reg)
  | .fetched i reg _ => s.calls i = some (.fetch reg)
  | .store i reg ep => s.calls i = some (.store reg ep)
  | .subscribe i reg w => s.calls i = some (.subscribe reg w)
  | .tryStart i reg w => s.calls i = some (.tryStart reg w)
  | .ownSubscribe i reg w => s.calls i = some (.ownSubscribe reg w)
  | .spawn i reg w inbox => s.calls i = some (.spawn reg w inbox)
  | .recv i reg w msg => s.calls i = some (.recv reg w (some msg))
  | .timeout i reg w => s.calls i = some (.recv reg w none)
  | .dropFetch i reg => s.calls i = some (.fetch reg)
  | .dropRecv i reg w inbox => s.calls i = some (.recv reg w inbox)
  | .dropQuery i reg current => s.calls i = some (.query reg current)
  | .evict i job by_ => s.calls i = some (.evict job by_)
  | .reset i job by_ => s.calls i = some (.reset job by_)
  | .remove i job by_ => s.calls i = some (.remove job by_)
  | .queried i reg current _ => s.calls i = some (.query reg current)
  | .refreshStore i reg current ep => s.calls i = some (.refreshStore reg current ep)
  | .refreshReady i reg current ep => s.calls i = some (.refreshReady reg current ep)
  | .acquire t reg w => s.tasks t = some (.acquire reg w) ∧ 0 < s.permits
  | .scaled t reg w _ => s.tasks t = some (.scaleUp reg w)
  | .healthy t reg w sawNone _ => s.tasks t = some (.health reg w sawNone)
  | .pollReceivers t reg w sawNone => s.tasks t = some (.health reg w sawNone)
  | .publish t reg w ep => s.tasks t = some (.publish reg w ep)
  | .storeReady t reg w ep => s.tasks t = some (.storeReady reg w ep)
  | .sendReady t reg w ep => s.tasks t = some (.sendReady reg w ep)
  | .storeDormant t reg w why => s.tasks t = some (.storeDormant reg w why)
  | .sendFailure t reg w why => s.tasks t = some (.sendFailure reg w why)
  | .removeEntry t reg w => s.tasks t = some (.removeEntry reg w)

def Event.next (s : State) : Event → State
  | .begin op => { s.setCall s.nextCall op.call with nextCall := s.nextCall + 1 }
  | .fastPath i reg =>
    match s.endpoints reg.jobId with
    | some ep => s.setCall i (.ensured reg (.ok ep))
    | none => s.setCall i (.entry reg)
  | .entry i reg => (s.orInsert reg.jobId).1.setCall i (.load reg (s.orInsert reg.jobId).2)
  | .load i reg w =>
    match (s.cells w).status with
    | .ready => s.setCall i (.cached reg)
    | .waking => s.setCall i (.subscribe reg w)
    | .dormant => s.setCall i (.tryStart reg w)
  | .cached i reg =>
    match s.endpoints reg.jobId with
    | some ep => s.setCall i (.ensured reg (.ok ep))
    | none => s.setCall i (.fetch reg)
  | .fetched i reg answer =>
    match answer with
    | .error e => s.setCall i (.ensured reg (.error e))
    | .ok none => s.setCall i (.ensured reg (.error (noHealthyEndpoint reg)))
    | .ok (some ep) => s.setCall i (.store reg ep)
  | .store i reg ep => (s.setEndpoint reg.jobId (some ep)).setCall i (.ensured reg (.ok ep))
  | .subscribe i reg w => (s.joined w).setCall i (.recv reg w none)
  | .tryStart i reg w =>
    if (s.cells w).status = .dormant then (s.setStatus w .waking).setCall i (.ownSubscribe reg w)
    else s.setCall i (.entry reg)
  | .ownSubscribe i reg w => (s.joined w).setCall i (.spawn reg w none)
  | .spawn i reg w inbox =>
    { (s.setTask s.nextTask (.acquire reg w)).setCall i (.recv reg w inbox) with
        nextTask := s.nextTask + 1 }
  | .recv i reg w msg => (s.left w).setCall i (.ensured reg (reply reg msg))
  | .timeout i reg w =>
    (s.left w).setCall i (.ensured reg (.error (.wakeTimeout reg.jobId.val s.wakeTimeout)))
  | .dropFetch i _ => s.setCall i .dropped
  | .dropRecv i _ w _ => (s.left w).setCall i .dropped
  | .dropQuery i _ _ => s.setCall i .dropped
  | .evict i job by_ => (s.setEndpoint job none).setCall i (.reset job by_)
  | .reset i job by_ => (s.storeStatus job .dormant).setCall i (.remove job by_)
  | .remove i job by_ => (s.setJob job none).setCall i (by_.finish job)
  | .queried i reg current answer =>
    match answer with
    | .error e => s.setCall i (.refreshed reg (.error e))
    | .ok none => s.setCall i (.evict reg.jobId (.refresh reg))
    | .ok (some ep) => s.setCall i (.refreshStore reg current ep)
  | .refreshStore i reg current ep =>
    (s.setEndpoint reg.jobId (some ep)).setCall i (.refreshReady reg current ep)
  | .refreshReady i reg current ep =>
    (s.storeStatus reg.jobId .ready).setCall i
      (.refreshed reg (.ok (refreshReply current ep)))
  | .acquire t reg w => (s.setPermits (s.permits - 1)).setTask t (.scaleUp reg w)
  | .scaled t reg w answer =>
    -- the permit is dropped right after the answer, or by the early return on an error
    match answer with
    | .ok () => (s.setPermits (s.permits + 1)).setTask t (.health reg w false)
    | .error e => (s.setPermits (s.permits + 1)).setTask t (.storeDormant reg w (failure e))
  | .healthy t reg w _ answer =>
    match answer with
    | .ok ep => s.setTask t (.publish reg w ep)
    | .error e => s.setTask t (.storeDormant reg w (failure e))
  | .pollReceivers t reg w sawNone =>
    if (s.cells w).receivers = 0 then
      if sawNone then
        s.setTask t (.storeDormant reg w (failure (.wakeAbandoned reg.jobId.val)))
      else s.setTask t (.health reg w true)
    else s.setTask t (.health reg w false)
  | .publish t reg w ep => (s.setEndpoint reg.jobId (some ep)).setTask t (.storeReady reg w ep)
  | .storeReady t reg w ep => (s.setStatus w .ready).setTask t (.sendReady reg w ep)
  | .sendReady t _ w ep => (s.broadcast w (.ready ep)).setTask t .finished
  | .storeDormant t reg w why => (s.setStatus w .dormant).setTask t (.sendFailure reg w why)
  | .sendFailure t reg w why => (s.broadcast w why).setTask t (.removeEntry reg w)
  | .removeEntry t reg _ => (s.setJob reg.jobId none).setTask t .finished

/-- The coordinator of one replica. -/
def system (nomadConcurrency wakeTimeout : ℕ) : Transition.System State Event :=
  .guarded (initial nomadConcurrency wakeTimeout) Event.enabled Event.next

end NScale.WakeCoordinator
