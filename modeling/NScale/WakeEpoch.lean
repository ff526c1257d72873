import NScale.WakeJoin

/-!
# Endpoints across `mark_dormant`

`mark_dormant` and `invalidate` clear the maps, but fence nobody who is waiting for an
answer. The log counts, for each job, how often one of them has returned, and dates every
endpoint by the count at which its query was issued. A `WakeState` is as old as its entry,
so that a broadcast is never too old for those who receive it; the endpoint cache is.
-/
namespace NScale.WakeCoordinator
open Transition

structure EpochLog where
  /-- how often `mark_dormant` or `invalidate` of the job has returned -/
  clock : JobId → ℕ
  /-- the epoch of its job in which the call began -/
  began : ℕ → ℕ
  /-- the epoch of its job in which the `WakeState` was inserted -/
  born : ℕ → ℕ
  /-- when the query behind the answer, message or endpoint of the call was issued -/
  stamp : ℕ → ℕ
  /-- when the task called `scale_up` -/
  woke : ℕ → ℕ
  /-- when the query behind the cached endpoint was issued -/
  cache : JobId → ℕ

def EpochLog.empty : EpochLog :=
  ⟨fun _ => 0, fun _ => 0, fun _ => 0, fun _ => 0, fun _ => 0, fun _ => 0⟩

def Operation.job : Operation → JobId
  | .ensureRunning reg | .refreshEndpoint reg _ => reg.jobId
  | .markDormant job | .invalidate job => job

namespace EpochLog
variable (g : EpochLog)

@[simps] def stampCall (i n : ℕ) : EpochLog := { g with stamp := Function.update g.stamp i n }

@[simps] def stampCache (job : JobId) (n : ℕ) : EpochLog :=
  { g with cache := Function.update g.cache job n }

@[simps] def stampTask (t n : ℕ) : EpochLog := { g with woke := Function.update g.woke t n }

@[simps] def begin (i n : ℕ) : EpochLog :=
  { g with began := Function.update g.began i n, stamp := Function.update g.stamp i n }

@[simps] def insert (w n : ℕ) : EpochLog := { g with born := Function.update g.born w n }

/-- `mark_dormant` or `invalidate` returns. -/
@[simps] def turn (job : JobId) : EpochLog :=
  { g with clock := Function.update g.clock job (g.clock job + 1) }

/-- Every caller that waits on the channel takes over the date of the message. -/
@[simps] def send (s : State) (w n : ℕ) : EpochLog :=
  { g with stamp := fun i => if (s.calls i).bind Call.waits? = some w then n else g.stamp i }

end EpochLog

/-- The reset returns to a caller outside of the coordinator. -/
def Reset.returns : Reset → Bool
  | .markDormant | .invalidate => true
  | .refresh _ => false

def EpochLog.note (g : EpochLog) (s : State) : Event → EpochLog
  | .begin op => g.begin s.nextCall (g.clock op.job)
  | .fastPath i reg => if (s.endpoints reg.jobId).isSome then g.stampCall i (g.cache reg.jobId) else g
  | .entry _ reg => if (s.jobs reg.jobId).isSome then g else g.insert s.nextCell (g.clock reg.jobId)
  | .cached i reg =>
    -- on a cache miss `get_healthy_endpoint` is called now
    if (s.endpoints reg.jobId).isSome then g.stampCall i (g.cache reg.jobId)
    else g.stampCall i (g.clock reg.jobId)
  | .store i reg _ => g.stampCache reg.jobId (g.stamp i)
  | .remove _ job by_ => if by_.returns then g.turn job else g
  | .refreshStore i reg _ _ => g.stampCache reg.jobId (g.stamp i)
  | .acquire t reg _ => g.stampTask t (g.clock reg.jobId)
  | .publish t reg _ _ => g.stampCache reg.jobId (g.woke t)
  | .sendReady t _ w _ | .sendFailure t _ w _ => g.send s w (g.woke t)
  | _ => g

/-- The coordinator with the dates of its endpoints. -/
def dated (nomadConcurrency wakeTimeout : ℕ) : System (State × EpochLog) Event :=
  (system nomadConcurrency wakeTimeout).logged EpochLog.note .empty

/-- Every endpoint returned by `ensure_running` comes from a query issued after the last
`mark_dormant` or `invalidate` that had returned when the call began. -/
def Rewoken (s : State) (g : EpochLog) : Prop :=
  ∀ i reg ep, s.calls i = some (.ensured reg (.ok ep)) → g.began i ≤ g.stamp i

/-- An endpoint enters the cache only if no `mark_dormant` or `invalidate` has returned since
its query was issued, and the cache is still empty when one of them returns. -/
def InsertsInEpoch : Condition (State × EpochLog) Event := fun _ p e =>
  match e with
  | .store i reg _ => p.2.stamp i = p.2.clock reg.jobId
  | .refreshStore i reg _ _ => p.2.stamp i = p.2.clock reg.jobId
  | .publish t reg _ _ => p.2.woke t = p.2.clock reg.jobId
  | .remove _ job by_ => by_.returns = true → p.1.endpoints job = none
  | _ => True

/-- The caller has an endpoint, or waits for the answer to its own query. -/
def Call.dated : Call → Bool
  | .fetch _ | .store _ _ | .ensured _ (.ok _) => true
  | .spawn _ _ inbox | .recv _ _ inbox => inbox.isSome
  | _ => false

/-- The task has called `scale_up`. -/
def Task.awake : Task → Bool
  | .acquire _ _ | .finished => false
  | _ => true

structure Epochs (s : State) (g : EpochLog) : Prop where
  cache : ∀ {job}, s.endpoints job ≠ none → g.cache job = g.clock job
  mapped : ∀ {job w}, s.jobs job = some w → g.clock job ≤ g.born w
  born : ∀ {job w}, s.Holds job w → g.born w ≤ g.clock job
  held : ∀ {i c p}, s.calls i = some c → c.cell? = some p → g.began i ≤ g.born p.2
  began : ∀ {i c reg}, s.calls i = some c → c.reg? = some reg → g.began i ≤ g.clock reg.jobId
  stamp : ∀ {i c}, s.calls i = some c → c.dated = true → g.began i ≤ g.stamp i
  woke : ∀ {t k p}, s.tasks t = some k → k.awake = true → k.cell? = some p →
    g.born p.2 ≤ g.woke t

lemma epochs_initial (n timeout : ℕ) : Epochs (initial n timeout) .empty := by
  constructor <;> intros <;> simp_all [initial, EpochLog.empty]

namespace Epochs
variable {s s' : State} {g : EpochLog} {i t w n : ℕ} {c c' : Call} {k k' : Task} {job : JobId}

/-- Entries and endpoints may go. -/
lemma mono (ok : Epochs s g) (endpoints : ∀ {job}, s'.endpoints job ≠ none → s.endpoints job ≠ none)
    (jobs : ∀ {job w}, s'.jobs job = some w → s.jobs job = some w)
    (holds : ∀ {job w}, s'.Holds job w → s.Holds job w) (calls : s'.calls = s.calls)
    (tasks : s'.tasks = s.tasks) : Epochs s' g where
  cache he := ok.cache (endpoints he)
  mapped hj := ok.mapped (jobs hj)
  born hw := ok.born (holds hw)
  held hc := ok.held (calls ▸ hc)
  began hc := ok.began (calls ▸ hc)
  stamp hc := ok.stamp (calls ▸ hc)
  woke hk := ok.woke (tasks ▸ hk)

lemma setCell (ok : Epochs s g) {cell : WakeState} (key : cell.key = (s.cells w).key) :
    Epochs { s with cells := Function.update s.cells w cell } g := by
  refine ok.mono id id (fun {j v} hv => ⟨hv.1, ?_⟩) rfl rfl
  by_cases hw : v = w
  · subst hw; simpa [key] using hv.2
  · simpa [hw] using hv.2

lemma setStatus (ok : Epochs s g) {status : Status} : Epochs (s.setStatus w status) g :=
  ok.setCell rfl

lemma setReceivers (ok : Epochs s g) : Epochs (s.setReceivers w n) g := ok.setCell rfl

lemma setPermits (ok : Epochs s g) : Epochs (s.setPermits n) g := ok.mono id id id rfl rfl

lemma storeStatus (ok : Epochs s g) {status : Status} : Epochs (s.storeStatus job status) g := by
  unfold State.storeStatus
  split
  · exact ok.setStatus
  · exact ok

lemma evict (ok : Epochs s g) : Epochs (s.setEndpoint job none) g := by
  refine ok.mono (fun {j} he => ?_) id id rfl rfl
  by_cases hj : j = job
  · simp [hj] at he
  · simpa [hj] using he

lemma removeJob (ok : Epochs s g) : Epochs (s.setJob job none) g := by
  refine ok.mono id (fun {j v} hv => ?_) id rfl rfl
  by_cases hj : j = job
  · simp [hj] at hv
  · simpa [hj] using hv

/-- An endpoint of the current epoch enters the cache. -/
lemma put (ok : Epochs s g) {ep : Endpoint} (fresh : n = g.clock job) :
    Epochs (s.setEndpoint job (some ep)) (g.stampCache job n) where
  cache {j} he := by
    by_cases hj : j = job
    · simp [hj, fresh]
    · simpa [hj] using ok.cache (by simpa [hj] using he)
  mapped := ok.mapped
  born := ok.born
  held := ok.held
  began := ok.began
  stamp := ok.stamp
  woke := ok.woke

/-- A caller goes on for the same registration, with an endpoint that is not too old for it. -/
lemma setCall (ok : Epochs s g) (at_ : s.calls i = some c)
    (held : ∀ p, c'.cell? = some p → g.began i ≤ g.born p.2)
    (same : ∀ reg, c'.reg? = some reg → c.reg? = some reg)
    (stamp : c'.dated = true → g.began i ≤ n) : Epochs (s.setCall i c') (g.stampCall i n) where
  cache := ok.cache
  mapped := ok.mapped
  born := ok.born
  held {j d p} hd hp := by
    by_cases hj : j = i
    · subst hj
      obtain rfl : c' = d := by simpa using hd
      exact held p hp
    · exact ok.held (by simpa [hj] using hd) hp
  began {j d reg} hd hr := by
    by_cases hj : j = i
    · subst hj
      obtain rfl : c' = d := by simpa using hd
      exact ok.began at_ (same reg hr)
    · exact ok.began (by simpa [hj] using hd) hr
  stamp {j d} hd ha := by
    by_cases hj : j = i
    · subst hj
      obtain rfl : c' = d := by simpa using hd
      simpa using stamp ha
    · simpa [hj] using ok.stamp (by simpa [hj] using hd) ha
  woke := ok.woke

/-- The same for a caller that gets no other endpoint and no other `WakeState`. -/
lemma move (ok : Epochs s g) (at_ : s.calls i = some c)
    (held : ∀ p, c'.cell? = some p → c.cell? = some p)
    (same : ∀ reg, c'.reg? = some reg → c.reg? = some reg)
    (stamp : c'.dated = true → c.dated = true) : Epochs (s.setCall i c') g := by
  have moved : Epochs (s.setCall i c') (g.stampCall i (g.stamp i)) :=
    ok.setCall at_ (fun p hp => ok.held at_ (held p hp)) same fun ha => ok.stamp at_ (stamp ha)
  simpa [EpochLog.stampCall] using moved

lemma setTask (ok : Epochs s g) (at_ : s.tasks t = some k)
    (same : ∀ p, k'.cell? = some p → k.cell? = some p)
    (awake : k'.awake = true → k.awake = true) : Epochs (s.setTask t k') g where
  cache := ok.cache
  mapped := ok.mapped
  born := ok.born
  held := ok.held
  began := ok.began
  stamp := ok.stamp
  woke {u l p} hl ha hp := by
    by_cases hu : u = t
    · subst hu
      obtain rfl : k' = l := by simpa using hl
      exact ok.woke at_ (awake ha) (same p hp)
    · exact ok.woke (by simpa [hu] using hl) ha hp

/-- The task calls `scale_up`, after its `WakeState` was inserted. -/
lemma acquire (ok : Epochs s g) (wf : WellFormed s) {reg : JobRegistration}
    (at_ : s.tasks t = some (.acquire reg w)) :
    Epochs (s.setTask t (.scaleUp reg w)) (g.stampTask t (g.clock reg.jobId)) where
  cache := ok.cache
  mapped := ok.mapped
  born := ok.born
  held := ok.held
  began := ok.began
  stamp := ok.stamp
  woke {u l p} hl ha hp := by
    by_cases hu : u = t
    · subst hu
      obtain rfl : Task.scaleUp reg w = l := by simpa using hl
      obtain rfl : (reg.jobId, w) = p := Option.some.inj hp
      simpa using ok.born (wf.taskCell at_ rfl)
    · simpa [hu] using ok.woke (by simpa [hu] using hl) ha hp

/-- A new entry is born in the current epoch of its job. -/
lemma orInsert (ok : Epochs s g) (wf : WellFormed s) (job : JobId) :
    Epochs (s.orInsert job).1 (if (s.jobs job).isSome then g else g.insert s.nextCell (g.clock job)) ∧
      g.clock job ≤ (if (s.jobs job).isSome then g else g.insert s.nextCell (g.clock job)).born
        (s.orInsert job).2 := by
  unfold State.orInsert
  split
  next w hw => simpa [hw] using ⟨ok, ok.mapped hw⟩
  next empty =>
    simp only [empty, Option.isSome_none, Bool.false_eq_true, if_false]
    refine ⟨⟨ok.cache, ?_, ?_, ?_, ok.began, ok.stamp, ?_⟩, by simp⟩
    · intro j v hv
      by_cases hj : j = job
      · subst hj
        obtain rfl : s.nextCell = v := by simpa using hv
        simp
      · have held : s.jobs j = some v := by simpa [hj] using hv
        have old : v ≠ s.nextCell := (wf.jobs held).1.ne
        simpa [old] using ok.mapped held
    · intro j v hv
      by_cases old : v = s.nextCell
      · subst old
        obtain rfl : job = j := by simpa using hv.2
        simp
      · have held : s.Holds j v :=
          ⟨lt_of_le_of_ne (Nat.lt_succ_iff.mp hv.1) old, by simpa [old] using hv.2⟩
        simpa [old] using ok.born held
    · intro i c p hc hp
      have old : p.2 ≠ s.nextCell := (wf.callCell hc hp).1.ne
      simpa [old] using ok.held hc hp
    · intro t k p hk ha hp
      have old : p.2 ≠ s.nextCell := (wf.taskCell hk hp).1.ne
      simpa [old] using ok.woke hk ha hp

/-- `mark_dormant` returns: no entry of its job is left, and no endpoint in the cache. -/
lemma turn (ok : Epochs s g) (cold : s.endpoints job = none) :
    Epochs (s.setJob job none) (g.turn job) where
  cache {j} he := by
    have hj : j ≠ job := by
      rintro rfl
      exact he cold
    simpa [hj] using ok.cache he
  mapped {j v} hv := by
    have hj : j ≠ job := by
      rintro rfl
      simp at hv
    simpa [hj] using ok.mapped (by simpa [hj] using hv)
  born {j v} hv := by
    have before : g.born v ≤ g.clock j := ok.born hv
    by_cases hj : j = job
    · subst hj
      simpa using before.trans (Nat.le_succ _)
    · simpa [hj] using before
  held := ok.held
  began {i c reg} hc hr := by
    have before := ok.began hc hr
    by_cases hj : reg.jobId = job
    · subst hj
      simpa using before.trans (Nat.le_succ _)
    · simpa [hj] using before
  stamp := ok.stamp
  woke := ok.woke

/-- A message is as old as the `scale_up` of its task, and that is not older than the
`WakeState` on which it is sent. -/
lemma send (ok : Epochs s g) {msg : WakeResult} (recent : g.born w ≤ n) :
    Epochs (s.broadcast w msg) (g.send s w n) where
  cache := ok.cache
  mapped := ok.mapped
  born := ok.born
  held {i c p} hc hp := by
    obtain ⟨d, hd, rfl⟩ := Option.map_eq_some_iff.mp hc
    exact ok.held hd (by simpa using hp)
  began {i c reg} hc hr := by
    obtain ⟨d, hd, rfl⟩ := Option.map_eq_some_iff.mp hc
    exact ok.began hd (by simpa using hr)
  stamp {i c} hc ha := by
    obtain ⟨d, hd, rfl⟩ := Option.map_eq_some_iff.mp hc
    by_cases waits : d.waits? = some w
    · have held : ∃ job, d.cell? = some (job, w) := by
        cases d with
        | spawn reg v inbox | recv reg v inbox =>
          cases inbox <;> simp_all [Call.waits?, Call.cell?]
        | _ => simp [Call.waits?] at waits
      obtain ⟨job, hp⟩ := held
      simpa [hd, waits] using (ok.held hd hp).trans recent
    · have same : d.deliver w msg = d := (d.deliver_cases w msg).resolve_right fun h => waits h.1
      simpa [hd, waits] using ok.stamp hd (same ▸ ha)
  woke := ok.woke

/-- A caller takes the `WakeState` of the entry it has just looked up. -/
lemma take (ok : Epochs s g) (at_ : s.calls i = some c)
    (held : ∀ p, c'.cell? = some p → g.began i ≤ g.born p.2)
    (same : ∀ reg, c'.reg? = some reg → c.reg? = some reg) (undated : c'.dated = false) :
    Epochs (s.setCall i c') g := by
  have moved : Epochs (s.setCall i c') (g.stampCall i (g.stamp i)) :=
    ok.setCall at_ held same (by simp [undated])
  simpa [EpochLog.stampCall] using moved

/-- A new call begins in the current epoch of its job. -/
lemma begin (ok : Epochs s g) (op : Operation) :
    Epochs (Event.next s (.begin op)) (g.begin s.nextCall (g.clock op.job)) := by
  have was : ∀ {j d}, (Event.next s (.begin op)).calls j = some d →
      (j = s.nextCall ∧ d = op.call) ∨ (j ≠ s.nextCall ∧ s.calls j = some d) := by
    intro j d hd
    by_cases hj : j = s.nextCall
    · subst hj
      exact .inl ⟨rfl, by simpa [Event.next] using hd.symm⟩
    · exact .inr ⟨hj, by simpa [Event.next, hj] using hd⟩
  refine ⟨ok.cache, ok.mapped, ok.born, fun {j d p} hd hp => ?_, fun {j d reg} hd hr => ?_,
    fun {j d} hd ha => ?_, ok.woke⟩
  all_goals obtain ⟨rfl, rfl⟩ | ⟨hj, old⟩ := was hd
  · cases op <;> simp [Operation.call, Call.cell?] at hp
  · simpa [hj] using ok.held old hp
  · cases op <;> simp_all [Operation.call, Call.reg?, Operation.job]
  · simpa [hj] using ok.began old hr
  · cases op <;> simp [Operation.call, Call.dated] at ha
  · simpa [hj] using ok.stamp old ha

lemma spawn (ok : Epochs s g) {reg : JobRegistration} {inbox : Option WakeResult}
    (at_ : s.calls i = some (.spawn reg w inbox)) :
    Epochs (Event.next s (.spawn i reg w inbox)) g := by
  have moved : Epochs (s.setCall i (.recv reg w inbox)) g := ok.move at_ (fun _ hp => hp)
    (fun _ hr => hr) id
  refine ⟨moved.cache, moved.mapped, moved.born, moved.held, moved.began, moved.stamp, ?_⟩
  intro u l p hl ha hp
  by_cases hu : u = s.nextTask
  · subst hu
    obtain rfl : Task.acquire reg w = l := by simpa [Event.next] using hl
    simp [Task.awake] at ha
  · exact ok.woke (by simpa [Event.next, hu] using hl) ha hp

end Epochs

/-- A step under the condition keeps every cached endpoint in its epoch, and every caller
with endpoints that are not too old for it. -/
theorem Epochs.next {h : List Event} {s : State} {g : EpochLog} {e : Event} (ok : Epochs s g)
    (wf : WellFormed s) (en : e.enabled s = true) (cond : InsertsInEpoch h (s, g) e) :
    Epochs (e.next s) (g.note s e) := by
  cases e with
  | begin op => exact ok.begin op
  | fastPath i reg =>
    have at_ := of_decide_eq_true en
    simp only [Event.next, EpochLog.note]
    split
    next ep hep =>
      have cached : g.cache reg.jobId = g.clock reg.jobId := ok.cache (by simp [hep])
      simp only [hep, Option.isSome_some, if_true]
      exact ok.setCall at_ (by simp [Call.cell?]) (by simp [Call.reg?]) fun _ =>
        cached ▸ ok.began at_ rfl
    next hep =>
      simp only [hep, Option.isSome_none, Bool.false_eq_true, if_false]
      exact ok.move at_ (by simp [Call.cell?]) (by simp [Call.reg?]) (by simp [Call.dated])
  | entry i reg =>
    have at_ := of_decide_eq_true en
    obtain ⟨inserted, recent⟩ := ok.orInsert wf reg.jobId
    have began := ok.began at_ rfl
    have same : (s.orInsert reg.jobId).1.calls i = some (.entry reg) := by simpa using at_
    simp only [Event.next, EpochLog.note]
    refine inserted.take same (fun p hp => ?_) (by simp [Call.reg?]) (by simp [Call.dated])
    obtain rfl : (reg.jobId, (s.orInsert reg.jobId).2) = p := Option.some.inj hp
    refine le_trans ?_ recent
    split <;> exact began
  | load i reg w =>
    simp only [Event.next]
    split <;>
      exact ok.move (of_decide_eq_true en) (by simp [Call.cell?]) (by simp [Call.reg?])
        (by simp [Call.dated])
  | cached i reg =>
    have at_ := of_decide_eq_true en
    have began := ok.began at_ rfl
    simp only [Event.next, EpochLog.note]
    split
    next ep hep =>
      have cached : g.cache reg.jobId = g.clock reg.jobId := ok.cache (by simp [hep])
      simp only [hep, Option.isSome_some, if_true]
      exact ok.setCall at_ (by simp [Call.cell?]) (by simp [Call.reg?]) fun _ => cached ▸ began
    next hep =>
      simp only [hep, Option.isSome_none, Bool.false_eq_true, if_false]
      exact ok.setCall at_ (by simp [Call.cell?]) (by simp [Call.reg?]) fun _ => began
  | fetched i reg answer =>
    simp only [Event.next]
    split <;>
      exact ok.move (of_decide_eq_true en) (by simp [Call.cell?]) (by simp [Call.reg?])
        (by simp [Call.dated])
  | store i reg ep =>
    exact (ok.put cond).move (of_decide_eq_true en) (by simp [Call.cell?]) (by simp [Call.reg?])
      (by simp [Call.dated])
  | subscribe i reg w | ownSubscribe i reg w =>
    exact ok.setReceivers.move (of_decide_eq_true en) (by simp [Call.cell?]) (by simp [Call.reg?])
      (by simp [Call.dated])
  | tryStart i reg w =>
    simp only [Event.next]
    split
    · exact ok.setStatus.move (of_decide_eq_true en) (by simp [Call.cell?]) (by simp [Call.reg?])
        (by simp [Call.dated])
    · exact ok.move (of_decide_eq_true en) (by simp [Call.cell?]) (by simp [Call.reg?])
        (by simp [Call.dated])
  | spawn i reg w inbox => exact ok.spawn (of_decide_eq_true en)
  | recv i reg w msg | timeout i reg w | dropRecv i reg w inbox =>
    exact ok.setReceivers.move (of_decide_eq_true en) (by simp [Call.cell?]) (by simp [Call.reg?])
      (by simp [Call.dated])
  | dropFetch | dropQuery =>
    exact ok.move (of_decide_eq_true en) (by simp [Call.cell?]) (by simp [Call.reg?])
      (by simp [Call.dated])
  | evict i job by_ =>
    exact ok.evict.move (of_decide_eq_true en) (by simp [Call.cell?]) (by simp [Call.reg?])
      (by simp [Call.dated])
  | reset i job by_ =>
    have at_ : (s.storeStatus job .dormant).calls i = some (.reset job by_) := by
      simpa using of_decide_eq_true en
    exact ok.storeStatus.move at_ (by simp [Call.cell?]) (by simp [Call.reg?]) (by simp [Call.dated])
  | remove i job by_ =>
    have at_ := of_decide_eq_true en
    have idle : (by_.finish job).dated = false := by cases by_ <;> rfl
    simp only [Event.next, EpochLog.note]
    split
    next returns =>
      exact (ok.turn (cond returns)).move at_ (by simp [Reset.cell?_finish]) (by simp) (by simp [idle])
    next => exact ok.removeJob.move at_ (by simp [Reset.cell?_finish]) (by simp) (by simp [idle])
  | queried i reg current answer =>
    simp only [Event.next]
    split <;>
      exact ok.move (of_decide_eq_true en) (by simp [Call.cell?]) (by simp [Call.reg?])
        (by simp [Call.dated])
  | refreshStore i reg current ep =>
    exact (ok.put cond).move (of_decide_eq_true en) (by simp [Call.cell?]) (by simp [Call.reg?])
      (by simp [Call.dated])
  | refreshReady i reg current ep =>
    have at_ : (s.storeStatus reg.jobId .ready).calls i = some (.refreshReady reg current ep) := by
      simpa using of_decide_eq_true en
    exact ok.storeStatus.move at_ (by simp [Call.cell?]) (by simp [Call.reg?]) (by simp [Call.dated])
  | acquire t reg w => exact (ok.acquire wf (of_decide_eq_true en).1).setPermits
  | scaled =>
    simp only [Event.next]
    split <;> exact ok.setPermits.setTask (of_decide_eq_true en) (by simp [Task.cell?])
      fun _ => rfl
  | healthy =>
    simp only [Event.next]
    split <;> exact ok.setTask (of_decide_eq_true en) (by simp [Task.cell?]) fun _ => rfl
  | pollReceivers =>
    simp only [Event.next]
    split_ifs <;> exact ok.setTask (of_decide_eq_true en) (by simp [Task.cell?]) fun _ => rfl
  | publish t reg w ep =>
    exact (ok.put cond).setTask (of_decide_eq_true en) (by simp [Task.cell?]) fun _ => rfl
  | storeReady | storeDormant =>
    exact ok.setStatus.setTask (of_decide_eq_true en) (by simp [Task.cell?]) fun _ => rfl
  | sendReady t reg w ep | sendFailure t reg w why =>
    have at_ := of_decide_eq_true en
    exact (ok.send (ok.woke at_ rfl rfl)).setTask at_ (by simp [Task.cell?]) fun _ => rfl
  | removeEntry =>
    exact ok.removeJob.setTask (of_decide_eq_true en) (by simp [Task.cell?]) fun _ => rfl

variable {n timeout : ℕ} {h : List Event} {s : State} {g : EpochLog}

/-- While endpoints enter the cache in the epoch of their query, a job that was marked dormant
is woken or looked up again for the next caller. -/
theorem rewoken_of_run (n timeout : ℕ) (h : List Event) (s : State) (g : EpochLog)
    (run : RunWhere (dated n timeout) InsertsInEpoch h (s, g)) : Rewoken s g := by
  have both : WellFormed (s, g).1 ∧ Epochs (s, g).1 (s, g).2 := by
    apply run.state_invariant fun p => WellFormed p.1 ∧ Epochs p.1 p.2
    · exact ⟨wellFormed_initial n timeout, epochs_initial n timeout⟩
    · rintro h ⟨s, g⟩ ⟨t, g'⟩ e ⟨wf, ok⟩ taken cond
      obtain ⟨step, rfl⟩ := System.logged_step.mp taken
      obtain ⟨en, rfl⟩ := step_iff.mp step
      exact ⟨wf.next en, ok.next wf en cond⟩
  exact fun i reg ep hi => both.2.stamp hi rfl

instance (h : List Event) (p : State × EpochLog) (e : Event) : Decidable (InsertsInEpoch h p e) := by
  unfold InsertsInEpoch
  induction e using Event.casesOn <;> infer_instance

/-- The job is marked dormant after its wake, and the next caller wakes it again. -/
def wokenAgain : List Event :=
  let job := echoReg.jobId
  sharedDone ++
    [.begin (.markDormant job), .evict 2 job .markDormant, .reset 2 job .markDormant,
      .remove 2 job .markDormant, .begin (.ensureRunning echoReg), .fastPath 3 echoReg,
      .entry 3 echoReg, .load 3 echoReg 1, .tryStart 3 echoReg 1, .ownSubscribe 3 echoReg 1,
      .spawn 3 echoReg 1 none, .acquire 1 echoReg 1, .scaled 1 echoReg 1 (.ok ()),
      .healthy 1 echoReg 1 false (.ok echoReady), .publish 1 echoReg 1 echoReady,
      .storeReady 1 echoReg 1 echoReady, .sendReady 1 echoReg 1 echoReady,
      .recv 3 echoReg 1 (.ready echoReady)]

theorem wokenAgain_rewoken : ∃ h s g, RunWhere (dated 50 60) InsertsInEpoch h (s, g) ∧
    s.calls 3 = some (.ensured echoReg (.ok echoReady)) ∧ g.began 3 = 1 ∧ Rewoken s g := by
  obtain ⟨h, ⟨s, g⟩, run, ensured, began⟩ := exists_run (T := dated 50 60) (C := InsertsInEpoch)
    (fun _ p => p.1.calls 3 = some (.ensured echoReg (.ok echoReady)) ∧ p.2.began 3 = 1)
    wokenAgain (by decide)
  exact ⟨h, s, g, run, ensured, began, rewoken_of_run 50 60 h s g run⟩

/-- The job is marked dormant while its wake waits for Consul; the wake task publishes its
endpoint afterwards, and the next caller finds it in the cache. -/
def publishedAfterwards : List Event :=
  let job := echoReg.jobId
  sharedWake ++
    [.scaled 0 echoReg 0 (.ok ()), .begin (.markDormant job), .evict 2 job .markDormant,
      .reset 2 job .markDormant, .remove 2 job .markDormant,
      .healthy 0 echoReg 0 false (.ok echoReady), .publish 0 echoReg 0 echoReady,
      .begin (.ensureRunning echoReg), .fastPath 3 echoReg]

theorem stale_after_markDormant : ¬ ∀ h s g, Run (dated 50 60) h (s, g) → Rewoken s g := by
  intro all
  obtain ⟨h, ⟨s, g⟩, run, ensured, began, stamp⟩ := exists_run (T := dated 50 60)
    (C := fun _ _ _ => True)
    (fun _ p => p.1.calls 3 = some (.ensured echoReg (.ok echoReady)) ∧ p.2.began 3 = 1 ∧
      p.2.stamp 3 = 0) publishedAfterwards (by decide)
  have late := all h s g run 3 echoReg echoReady ensured
  dsimp only at began stamp
  omega

end NScale.WakeCoordinator
