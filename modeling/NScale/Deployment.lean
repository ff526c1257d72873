import NScale.ProxyHandler
import NScale.ScaleDownController
import NScale.WakeInvariant

/-!
# Replicas that share one Redis and one etcd

Every replica runs a wake coordinator, a tracker of in-flight requests, the maps of its
scale-down controller and its event processor. A thread is one asynchronous task of a replica
with the guards it owns; a step answers the next operation of one thread, or is a step of a
coordinator, or comes from outside. The timing of sleeps, heartbeats and ticks is left open.
-/
namespace NScale.Deployment
open Service

/-- What a task owns: its in-flight guard, its running heartbeat, and the exchange with a
backend that it has begun and that is not over, each with the job it is for. -/
structure Own where
  guard : Option JobId
  heartbeat : Option JobId
  exchange : Option JobId
  deriving DecidableEq, Repr

def Own.nothing : Own := ⟨none, none, none⟩

/-- An exchange ends with an error, or at once when no body follows the response. -/
def Own.onResponse (own : Own) : Forwarded → Own
  | .ok resp => if resp.hasBody then own else { own with exchange := none }
  | .error _ => { own with exchange := none }

/-- An upgraded exchange lasts until its tunnel closes. -/
def Own.onUpgradeResponse (own : Own) : Forwarded → Own
  | .ok resp => if resp.status = switchingProtocols then own else own.onResponse (.ok resp)
  | .error e => own.onResponse (.error e)

def Own.after (own : Own) : (op : Op) → op.Answer → Own
  | .track job, _ => { own with guard := some job }
  | .dropGuard, _ => { own with guard := none }
  | .startHeartbeat job, _ => { own with heartbeat := some job }
  | .cancelHeartbeat, _ => { own with heartbeat := none }
  | .send job _ _ _, _ => { own with exchange := some job }
  | .response, result => own.onResponse result
  | .upgradeResponse, result => own.onUpgradeResponse result
  | .tunnelClosed, _ => { own with exchange := none }
  | .spawn .tunnel, _ => .nothing
  | _, _ => own

/-- A task, with the replica it belongs to and whether it serves a client, who may go away. -/
structure Thread where
  replica : ℕ
  code : Code Unit
  own : Own
  client : Bool

structure Replica where
  coordinator : WakeCoordinator.State
  inFlight : JobId → ℕ
  deferred : JobId → Option ℕ
  lastCounts : JobId → Option ℕ
  seenRunning : String → Bool
  cancelled : Bool
  sweeper : Option ℕ
  processor : Option ℕ

structure State where
  time : ℕ
  activity : AList fun _ : JobId => ℕ
  lock : Option (ℕ × ℕ)
  missing : JobId → ℕ
  store : JobRegistry.Store
  replicas : ℕ → Replica
  threads : ℕ → Option Thread
  nextThread : ℕ

def initial (cfg : Config) : State where
  time := 0
  activity := ∅
  lock := none
  missing _ := 0
  store := .empty
  replicas _ := {
    coordinator := WakeCoordinator.initial cfg.nomadConcurrency cfg.wakeTimeout
    inFlight := fun _ => 0
    deferred := fun _ => none
    lastCounts := fun _ => none
    seenRunning := fun _ => false
    cancelled := false
    sweeper := none
    processor := none }
  threads _ := none
  nextThread := 0

inductive Event
  | arrive (r : ℕ) (req : Request)
  | tick (r : ℕ)
  | allocation (r : ℕ) (a : Allocation)
  | admin (r : ℕ) (reg : JobRegistration)
  | op (i : ℕ) (op : Op) (answer : op.Answer)
  | coord (r : ℕ) (e : WakeCoordinator.Event)
  | beat (i : ℕ)
  | relayed (i : ℕ)
  | disconnect (i : ℕ)
  | advance (millis : ℕ)
  | cancel (r : ℕ)

namespace State
variable (s : State)

@[simps] def setReplica (r : ℕ) (replica : Replica) : State :=
  { s with replicas := Function.update s.replicas r replica }

@[simps] def setThread (i : ℕ) (th : Thread) : State :=
  { s with threads := Function.update s.threads i (some th) }

@[simps] def started (th : Thread) : State :=
  { s with threads := Function.update s.threads s.nextThread (some th)
           nextThread := s.nextThread + 1 }

def coordinator (r : ℕ) : WakeCoordinator.State := (s.replicas r).coordinator

def inFlight (r : ℕ) (job : JobId) : ℕ := (s.replicas r).inFlight job

def setCoordinator (r : ℕ) (c : WakeCoordinator.State) : State :=
  s.setReplica r { s.replicas r with coordinator := c }

def setInFlight (r : ℕ) (job : JobId) (n : ℕ) : State :=
  s.setReplica r { s.replicas r with inFlight := Function.update (s.replicas r).inFlight job n }

/-- `Drop` of the guard that a task owns, if it owns one. -/
def guardDropped (r : ℕ) : Option JobId → State
  | some job => s.setInFlight r job (s.inFlight r job - 1)
  | none => s

/-- The members with a score up to the cutoff, by score and then by name. -/
def idle (cutoff : ℤ) : List JobId :=
  ((s.activity.entries.filter fun e => (e.2 : ℤ) ≤ cutoff).insertionSort fun a b =>
    a.2 < b.2 ∨ (a.2 = b.2 ∧ a.1.val ≤ b.1.val)).map fun e => e.1

/-- The lock is free, or its time to live is over. -/
def lockFree : Bool :=
  match s.lock with
  | none => true
  | some (_, expiry) => expiry ≤ s.time

end State

/-- The next state, if the operation of a task of replica `r` can be answered like this. -/
def State.answer (s : State) (r : ℕ) (own : Own) : (op : Op) → op.Answer → Option State
  | .now, time => if time = s.time then some s else none
  | .cancelled, result => if result = (s.replicas r).cancelled then some s else none
  | .store op, .ok v =>
    if v = (s.store.answer op).1 then some { s with store := (s.store.answer op).2 } else none
  | .zadd key score, .ok _ => some { s with activity := s.activity.insert key score }
  | .zrangebyscore cutoff, .ok keys => if keys = s.idle cutoff then some s else none
  | .zrem key, .ok _ => some { s with activity := s.activity.erase key }
  | .tryAcquireLock ttl, .ok acquired =>
    if acquired = s.lockFree then
      some (if acquired then { s with lock := some (r, s.time + ttl) } else s)
    else none
  | .releaseLock, .ok _ =>
    match s.lock with
    | some (holder, _) => some (if holder = r ∧ !s.lockFree then { s with lock := none } else s)
    | none => some s
  | .incrementNotFound job, .ok count =>
    if count = s.missing job + 1 ∧ count < 2 ^ 32 then
      some { s with missing := Function.update s.missing job count }
    else none
  | .incrementNotFound job, .error _ =>
    -- a count that leaves the range of `u32` is stored and reported as an error
    if s.missing job + 1 < 2 ^ 32 then some s
    else some { s with missing := Function.update s.missing job (s.missing job + 1) }
  | .clearNotFound job, .ok _ => some { s with missing := Function.update s.missing job 0 }
  | .track job, _ => some (s.setInFlight r job (s.inFlight r job + 1))
  | .dropGuard, _ => some (s.guardDropped r own.guard)
  | .hasInFlight key, result => if result = decide (0 < s.inFlight r key) then some s else none
  | .call op, c =>
    if c = (s.coordinator r).nextCall then
      some (s.setCoordinator r (WakeCoordinator.Event.next (s.coordinator r) (.begin op)))
    else none
  | .ensured reg c, result =>
    if (s.coordinator r).calls c = some (.ensured reg result) then some s else none
  | .refreshed reg c, result =>
    if (s.coordinator r).calls c = some (.refreshed reg result) then some s else none
  | .cleared job c, _ => if (s.coordinator r).calls c = some (.cleared job) then some s else none
  | .deferral key, result => if result = (s.replicas r).deferred key then some s else none
  | .dropDeferral key, _ =>
    some (s.setReplica r { s.replicas r with
      deferred := Function.update (s.replicas r).deferred key none })
  | .defer key until_, _ =>
    some (s.setReplica r { s.replicas r with
      deferred := Function.update (s.replicas r).deferred key (some until_) })
  | .replaceCount key total, prev =>
    if prev = (s.replicas r).lastCounts key then
      some (s.setReplica r { s.replicas r with
        lastCounts := Function.update (s.replicas r).lastCounts key (some total) })
    else none
  | .clearBaseline key, _ =>
    some (s.setReplica r { s.replicas r with
      lastCounts := Function.update (s.replicas r).lastCounts key none })
  | .seeRunning alloc, isNew =>
    if isNew = !(s.replicas r).seenRunning alloc then
      some (s.setReplica r { s.replicas r with
        seenRunning := Function.update (s.replicas r).seenRunning alloc true })
    else none
  | .forgetRunning alloc, _ =>
    some (s.setReplica r { s.replicas r with
      seenRunning := Function.update (s.replicas r).seenRunning alloc false })
  | .connect _, .error e => if e = .upgradeConnect ∨ e = .upgradeHandshake then some s else none
  | .response, .error e =>
    match e with
    | .transport _ _ | .responseBuild => some s
    | _ => none
  | .upgradeResponse, .error e => if e = .upgradeRequest then some s else none
  -- the outside world answers, or a command fails
  | _, _ => some s

/-- The operations at which the future of a handler can be dropped. -/
def awaits : Op → Bool
  | .sleep _ | .store _ | .zadd .. | .zrem _ | .incrementNotFound _ | .clearNotFound _ => true
  | .ensured .. | .refreshed .. | .connect _ | .response | .upgradeResponse => true
  | _ => false

/-- A coordinator after one of its callers has been dropped, where that can happen. -/
def dropCall (s : WakeCoordinator.State) (c : ℕ) : Option WakeCoordinator.State :=
  match s.calls c with
  | some (.fetch reg) => some (WakeCoordinator.Event.next s (.dropFetch c reg))
  | some (.recv reg w inbox) => some (WakeCoordinator.Event.next s (.dropRecv c reg w inbox))
  | some (.query reg current) => some (WakeCoordinator.Event.next s (.dropQuery c reg current))
  | some (.ensured _ _) => some s
  | some (.refreshed _ _) => some s
  | _ => none

/-- The state after a thread of replica `r` has been dropped at an operation. -/
def State.dropped (s : State) (r : ℕ) : Op → Option State
  | .ensured _ c => (dropCall (s.coordinator r) c).map (s.setCoordinator r)
  | .refreshed _ c => (dropCall (s.coordinator r) c).map (s.setCoordinator r)
  | op => if awaits op then some s else none

/-- Steps a coordinator takes by itself. Calls begin and are dropped with their threads, and
the Consul client fails with errors of its own only. -/
def isInternal : WakeCoordinator.Event → Bool
  | .begin _ | .dropFetch .. | .dropRecv .. | .dropQuery .. => false
  | .healthy _ _ _ _ (.error (.jobNotFound _)) => false
  | .healthy _ _ _ _ (.error (.wakeAbandoned _)) => false
  | _ => true

/-- The thread has ended, or there never was one. -/
def State.isDone (s : State) : Option ℕ → Bool
  | none => true
  | some i =>
    match s.threads i with
    | some ⟨_, .perform _ _, _, _⟩ => false
    | _ => true

/-- The task that an operation spawns. A tunnel takes over what its parent owns. -/
def spawned (th : Thread) : Op → Option Thread
  | .spawn .tunnel => some ⟨th.replica, Task.code .tunnel, th.own, false⟩
  | .spawn task => some ⟨th.replica, task.code, .nothing, false⟩
  | _ => none

def State.startedAll (s : State) : Option Thread → State
  | some th => s.started th
  | none => s

def step (cfg : Config) (s : State) : Event → Option State
  | .arrive r req => some (s.started ⟨r, activityService cfg req, .nothing, true⟩)
  | .tick r =>
    if s.isDone (s.replicas r).sweeper then
      some ((s.setReplica r { s.replicas r with sweeper := some s.nextThread }).started
        ⟨r, ScaleDownController.tick cfg, .nothing, false⟩)
    else none
  | .allocation r a =>
    if s.isDone (s.replicas r).processor then
      some ((s.setReplica r { s.replicas r with processor := some s.nextThread }).started
        ⟨r, processAllocationEvent cfg a, .nothing, false⟩)
    else none
  | .admin r reg => some (s.started ⟨r, adminRegister cfg reg, .nothing, false⟩)
  | .op i op answer => do
    let th ← s.threads i
    let code ← th.code.answered? op answer
    let t ← s.answer th.replica th.own op answer
    let next : Thread := { th with code := code, own := th.own.after op answer }
    return (t.setThread i next).startedAll (spawned th op)
  | .coord r e =>
    if isInternal e ∧ e.enabled (s.coordinator r) then
      some (s.setCoordinator r (e.next (s.coordinator r)))
    else none
  | .beat i => do
    let th ← s.threads i
    let job ← th.own.heartbeat
    return s.started ⟨th.replica, Task.code (.recordActivity job), .nothing, false⟩
  | .relayed i =>
    match s.threads i with
    | some ⟨r, .pure (), own, client⟩ =>
      if own.exchange.isSome then
        some (s.setThread i ⟨r, .pure (), { own with exchange := none }, client⟩)
      else none
    | _ => none
  | .disconnect i =>
    match s.threads i with
    | some ⟨r, .perform op _, own, true⟩ => do
      let t ← s.dropped r op
      return (t.guardDropped r own.guard).setThread i ⟨r, .pure (), .nothing, true⟩
    | _ => none
  | .advance millis => some { s with time := s.time + millis }
  | .cancel r => some (s.setReplica r { s.replicas r with cancelled := true })

/-- The replicas together. -/
def system (cfg : Config) : Transition.System State Event := ⟨initial cfg, step cfg⟩

end NScale.Deployment
