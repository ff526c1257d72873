import NScale.WakeCoordinator

/-!
# Representation invariant of the coordinator

Every `WakeState` that a map entry, a caller or a task refers to is allocated and was
inserted under the job of that entry, caller or task; call and task numbers are fresh.
Each update of the state keeps this on its own, so that a step is their composition.
-/
namespace NScale.WakeCoordinator

/-- The `Arc<WakeState>` numbered `w` exists and was inserted under `job`. -/
def State.Holds (s : State) (job : JobId) (w : ℕ) : Prop :=
  w < s.nextCell ∧ (s.cells w).key = job

/-- The `WakeState` a caller holds, with the job it holds it for. -/
def Call.cell? : Call → Option (JobId × ℕ)
  | .load reg w | .subscribe reg w | .tryStart reg w | .ownSubscribe reg w => some (reg.jobId, w)
  | .spawn reg w _ | .recv reg w _ => some (reg.jobId, w)
  | _ => none

def Task.cell? : Task → Option (JobId × ℕ)
  | .acquire reg w | .scaleUp reg w | .health reg w _ => some (reg.jobId, w)
  | .publish reg w _ | .storeReady reg w _ | .sendReady reg w _ => some (reg.jobId, w)
  | .storeDormant reg w _ | .sendFailure reg w _ | .removeEntry reg w => some (reg.jobId, w)
  | .finished => none

@[simp] lemma Call.cell?_deliver (w : ℕ) (msg : WakeResult) (c : Call) :
    (c.deliver w msg).cell? = c.cell? := by
  cases c with
  | spawn reg v inbox => cases inbox <;> rfl
  | recv reg v inbox => cases inbox <;> rfl
  | _ => rfl

@[simp] lemma State.orInsert_calls (s : State) (job : JobId) :
    (s.orInsert job).1.calls = s.calls := by
  unfold State.orInsert; split <;> rfl

@[simp] lemma State.orInsert_tasks (s : State) (job : JobId) :
    (s.orInsert job).1.tasks = s.tasks := by
  unfold State.orInsert; split <;> rfl

@[simp] lemma State.orInsert_endpoints (s : State) (job : JobId) :
    (s.orInsert job).1.endpoints = s.endpoints := by
  unfold State.orInsert; split <;> rfl

@[simp] lemma State.orInsert_permits (s : State) (job : JobId) :
    (s.orInsert job).1.permits = s.permits := by
  unfold State.orInsert; split <;> rfl

@[simp] lemma State.orInsert_nextTask (s : State) (job : JobId) :
    (s.orInsert job).1.nextTask = s.nextTask := by
  unfold State.orInsert; split <;> rfl

@[simp] lemma State.storeStatus_permits (s : State) (job : JobId) (status : Status) :
    (s.storeStatus job status).permits = s.permits := by
  unfold State.storeStatus; split <;> rfl

@[simp] lemma State.storeStatus_endpoints (s : State) (job : JobId) (status : Status) :
    (s.storeStatus job status).endpoints = s.endpoints := by
  unfold State.storeStatus; split <;> rfl

@[simp] lemma State.storeStatus_calls (s : State) (job : JobId) (status : Status) :
    (s.storeStatus job status).calls = s.calls := by
  unfold State.storeStatus; split <;> rfl

@[simp] lemma State.storeStatus_tasks (s : State) (job : JobId) (status : Status) :
    (s.storeStatus job status).tasks = s.tasks := by
  unfold State.storeStatus; split <;> rfl

@[simp] lemma State.storeStatus_nextTask (s : State) (job : JobId) (status : Status) :
    (s.storeStatus job status).nextTask = s.nextTask := by
  unfold State.storeStatus; split <;> rfl

structure WellFormed (s : State) : Prop where
  jobs : ∀ {job w}, s.jobs job = some w → s.Holds job w
  calls : ∀ {i c}, s.calls i = some c → i < s.nextCall
  callCell : ∀ {i c p}, s.calls i = some c → c.cell? = some p → s.Holds p.1 p.2
  tasks : ∀ {t k}, s.tasks t = some k → t < s.nextTask
  taskCell : ∀ {t k p}, s.tasks t = some k → k.cell? = some p → s.Holds p.1 p.2

lemma wellFormed_initial (n timeout : ℕ) : WellFormed (initial n timeout) := by
  constructor <;> intros <;> simp_all [initial]

namespace WellFormed
variable {s : State} {i t w n : ℕ} {c c' : Call} {k k' : Task} {job : JobId}

/-- A caller moves on with the `WakeState` it holds, or lets go of it. -/
lemma setCall (wf : WellFormed s) (at_ : s.calls i = some c)
    (keep : ∀ p, c'.cell? = some p → c.cell? = some p) : WellFormed (s.setCall i c') where
  jobs := wf.jobs
  calls := by
    intro j d hd
    by_cases hj : j = i
    · subst hj; exact wf.calls at_
    · exact wf.calls (by simpa [hj] using hd)
  callCell := by
    intro j d p hd hp
    by_cases hj : j = i
    · subst hj
      obtain rfl : c' = d := by simpa using hd
      exact wf.callCell at_ (keep p hp)
    · exact wf.callCell (by simpa [hj] using hd) hp
  tasks := wf.tasks
  taskCell := wf.taskCell

lemma setTask (wf : WellFormed s) (at_ : s.tasks t = some k)
    (keep : ∀ p, k'.cell? = some p → k.cell? = some p) : WellFormed (s.setTask t k') where
  jobs := wf.jobs
  calls := wf.calls
  callCell := wf.callCell
  tasks := by
    intro u l hl
    by_cases hu : u = t
    · subst hu; exact wf.tasks at_
    · exact wf.tasks (by simpa [hu] using hl)
  taskCell := by
    intro u l p hl hp
    by_cases hu : u = t
    · subst hu
      obtain rfl : k' = l := by simpa using hl
      exact wf.taskCell at_ (keep p hp)
    · exact wf.taskCell (by simpa [hu] using hl) hp

lemma setEndpoint (wf : WellFormed s) {ep : Option Endpoint} :
    WellFormed (s.setEndpoint job ep) := ⟨wf.jobs, wf.calls, wf.callCell, wf.tasks, wf.taskCell⟩

lemma setPermits (wf : WellFormed s) : WellFormed (s.setPermits n) :=
  ⟨wf.jobs, wf.calls, wf.callCell, wf.tasks, wf.taskCell⟩

lemma removeJob (wf : WellFormed s) : WellFormed (s.setJob job none) where
  jobs := by
    intro j v hv
    by_cases hj : j = job
    · subst hj; simp at hv
    · exact wf.jobs (by simpa [hj] using hv)
  calls := wf.calls
  callCell := wf.callCell
  tasks := wf.tasks
  taskCell := wf.taskCell

/-- Updating a cell other than in its key changes nothing that is held. -/
lemma setCell (wf : WellFormed s) {cell : WakeState} (key : cell.key = (s.cells w).key) :
    WellFormed { s with cells := Function.update s.cells w cell } := by
  have same : ∀ {job v}, s.Holds job v →
      State.Holds { s with cells := Function.update s.cells w cell } job v := by
    intro job v hv
    refine ⟨hv.1, ?_⟩
    by_cases hw : v = w
    · subst hw; simpa [key] using hv.2
    · simpa [hw] using hv.2
  exact ⟨fun h => same (wf.jobs h), wf.calls, fun h hp => same (wf.callCell h hp), wf.tasks,
    fun h hp => same (wf.taskCell h hp)⟩

lemma setStatus (wf : WellFormed s) {status : Status} : WellFormed (s.setStatus w status) :=
  wf.setCell rfl

lemma joined (wf : WellFormed s) : WellFormed (s.joined w) := wf.setCell rfl

lemma left (wf : WellFormed s) : WellFormed (s.left w) := wf.setCell rfl

lemma storeStatus (wf : WellFormed s) {status : Status} :
    WellFormed (s.storeStatus job status) := by
  unfold State.storeStatus
  split
  · exact wf.setStatus
  · exact wf

lemma broadcast (wf : WellFormed s) {msg : WakeResult} : WellFormed (s.broadcast w msg) where
  jobs := wf.jobs
  calls := by
    intro i c hc
    obtain ⟨d, hd, rfl⟩ := Option.map_eq_some_iff.mp hc
    exact wf.calls hd
  callCell := by
    intro i c p hc hp
    obtain ⟨d, hd, rfl⟩ := Option.map_eq_some_iff.mp hc
    exact wf.callCell hd (by simpa using hp)
  tasks := wf.tasks
  taskCell := wf.taskCell

/-- `or_insert_with` allocates a fresh cell for a job without entry. -/
lemma orInsert (wf : WellFormed s) : WellFormed (s.orInsert job).1 := by
  unfold State.orInsert
  split
  · exact wf
  · have same : ∀ {job' v}, s.Holds job' v → State.Holds
        { s with jobs := Function.update s.jobs job (some s.nextCell)
                 cells := Function.update s.cells s.nextCell ⟨job, .dormant, 0⟩
                 nextCell := s.nextCell + 1 } job' v := by
      intro job' v hv
      have hne : v ≠ s.nextCell := hv.1.ne
      exact ⟨hv.1.trans (Nat.lt_succ_self _), by simpa [hne] using hv.2⟩
    refine ⟨?_, wf.calls, fun h hp => same (wf.callCell h hp), wf.tasks,
      fun h hp => same (wf.taskCell h hp)⟩
    intro j v hv
    by_cases hj : j = job
    · subst hj
      obtain rfl : s.nextCell = v := by simpa using hv
      exact ⟨Nat.lt_succ_self _, by simp⟩
    · exact same (wf.jobs (by simpa [hj] using hv))

lemma orInsert_holds (wf : WellFormed s) : (s.orInsert job).1.Holds job (s.orInsert job).2 := by
  unfold State.orInsert
  split
  next w hw => exact wf.jobs hw
  next => exact ⟨Nat.lt_succ_self _, by simp⟩

/-- A caller takes the `WakeState` it has just looked up. -/
lemma setHeld (wf : WellFormed s) (at_ : s.calls i = some c) {j : JobId}
    (held : s.Holds j w) (takes : c'.cell? = some (j, w)) : WellFormed (s.setCall i c') where
  jobs := wf.jobs
  calls := by
    intro m d hd
    by_cases hm : m = i
    · subst hm; exact wf.calls at_
    · exact wf.calls (by simpa [hm] using hd)
  callCell := by
    intro m d p hd hp
    by_cases hm : m = i
    · subst hm
      obtain rfl : c' = d := by simpa using hd
      obtain rfl : (j, w) = p := by rw [takes] at hp; exact Option.some.inj hp
      exact held
    · exact wf.callCell (by simpa [hm] using hd) hp
  tasks := wf.tasks
  taskCell := wf.taskCell

/-- A new call starts without a `WakeState`. -/
lemma begin (wf : WellFormed s) (op : Operation) : WellFormed (Event.next s (.begin op)) where
  jobs := wf.jobs
  calls := by
    intro i c hc
    by_cases hi : i = s.nextCall
    · subst hi; exact Nat.lt_succ_self _
    · exact (wf.calls (by simpa [Event.next, hi] using hc)).trans (Nat.lt_succ_self _)
  callCell := by
    intro i c p hc hp
    by_cases hi : i = s.nextCall
    · subst hi
      obtain rfl : op.call = c := by simpa [Event.next] using hc
      cases op <;> simp [Operation.call, Call.cell?] at hp
    · exact wf.callCell (by simpa [Event.next, hi] using hc) hp
  tasks := wf.tasks
  taskCell := wf.taskCell

/-- A new task takes over the `WakeState` of the caller that spawns it. -/
lemma spawn (wf : WellFormed s) {reg : JobRegistration} {inbox : Option WakeResult}
    (at_ : s.calls i = some (.spawn reg w inbox)) :
    WellFormed (Event.next s (.spawn i reg w inbox)) := by
  have moved : WellFormed (s.setCall i (.recv reg w inbox)) := wf.setCall at_ fun p hp => hp
  refine ⟨moved.jobs, moved.calls, moved.callCell, ?_, ?_⟩
  · intro u l hl
    by_cases hu : u = s.nextTask
    · subst hu; exact Nat.lt_succ_self _
    · exact (wf.tasks (by simpa [Event.next, hu] using hl)).trans (Nat.lt_succ_self _)
  · intro u l p hl hp
    by_cases hu : u = s.nextTask
    · subst hu
      obtain rfl : Task.acquire reg w = l := by simpa [Event.next] using hl
      exact wf.callCell at_ hp
    · exact wf.taskCell (by simpa [Event.next, hu] using hl) hp

end WellFormed

lemma Reset.cell?_finish (job : JobId) (by_ : Reset) : (by_.finish job).cell? = none := by
  cases by_ <;> rfl

/-- Every step keeps the representation invariant. -/
theorem WellFormed.next {s : State} {e : Event} (wf : WellFormed s) (en : e.enabled s = true) :
    WellFormed (e.next s) := by
  cases e with
  | begin op => exact wf.begin op
  | spawn i reg w inbox => exact wf.spawn (of_decide_eq_true en)
  | entry i reg =>
    have at_ := of_decide_eq_true en
    exact wf.orInsert.setHeld (by simpa using at_) wf.orInsert_holds rfl
  | fastPath i reg =>
    simp only [Event.next]
    split <;> exact wf.setCall (of_decide_eq_true en) (by simp [Call.cell?])
  | load i reg w =>
    simp only [Event.next]
    split <;> exact wf.setCall (of_decide_eq_true en) (by simp [Call.cell?])
  | cached i reg =>
    simp only [Event.next]
    split <;> exact wf.setCall (of_decide_eq_true en) (by simp [Call.cell?])
  | fetched i reg answer =>
    simp only [Event.next]
    split <;> exact wf.setCall (of_decide_eq_true en) (by simp [Call.cell?])
  | store i reg ep => exact wf.setEndpoint.setCall (of_decide_eq_true en) (by simp [Call.cell?])
  | subscribe i reg w => exact wf.joined.setCall (of_decide_eq_true en) (by simp [Call.cell?])
  | tryStart i reg w =>
    simp only [Event.next]
    split
    · exact wf.setStatus.setCall (of_decide_eq_true en) (by simp [Call.cell?])
    · exact wf.setCall (of_decide_eq_true en) (by simp [Call.cell?])
  | ownSubscribe i reg w => exact wf.joined.setCall (of_decide_eq_true en) (by simp [Call.cell?])
  | recv i reg w msg => exact wf.left.setCall (of_decide_eq_true en) (by simp [Call.cell?])
  | timeout i reg w => exact wf.left.setCall (of_decide_eq_true en) (by simp [Call.cell?])
  | dropFetch i reg => exact wf.setCall (of_decide_eq_true en) (by simp [Call.cell?])
  | dropRecv i reg w inbox => exact wf.left.setCall (of_decide_eq_true en) (by simp [Call.cell?])
  | dropQuery i reg current => exact wf.setCall (of_decide_eq_true en) (by simp [Call.cell?])
  | evict i job by_ => exact wf.setEndpoint.setCall (of_decide_eq_true en) (by simp [Call.cell?])
  | reset i job by_ =>
    exact wf.storeStatus.setCall (by simpa using of_decide_eq_true en) (by simp [Call.cell?])
  | remove i job by_ =>
    exact wf.removeJob.setCall (of_decide_eq_true en) (by simp [Reset.cell?_finish])
  | queried i reg current answer =>
    simp only [Event.next]
    split <;> exact wf.setCall (of_decide_eq_true en) (by simp [Call.cell?])
  | refreshStore i reg current ep =>
    exact wf.setEndpoint.setCall (of_decide_eq_true en) (by simp [Call.cell?])
  | refreshReady i reg current ep =>
    exact wf.storeStatus.setCall (by simpa using of_decide_eq_true en) (by simp [Call.cell?])
  | acquire t reg w =>
    exact wf.setPermits.setTask (of_decide_eq_true en).1 (by simp [Task.cell?])
  | scaled t reg w answer =>
    simp only [Event.next]
    split <;> exact wf.setPermits.setTask (of_decide_eq_true en) (by simp [Task.cell?])
  | healthy t reg w saw answer =>
    simp only [Event.next]
    split <;> exact wf.setTask (of_decide_eq_true en) (by simp [Task.cell?])
  | pollReceivers t reg w saw =>
    simp only [Event.next]
    split_ifs <;> exact wf.setTask (of_decide_eq_true en) (by simp [Task.cell?])
  | publish t reg w ep => exact wf.setEndpoint.setTask (of_decide_eq_true en) (by simp [Task.cell?])
  | storeReady t reg w ep =>
    exact wf.setStatus.setTask (of_decide_eq_true en) (by simp [Task.cell?])
  | sendReady t reg w ep => exact wf.broadcast.setTask (of_decide_eq_true en) (by simp [Task.cell?])
  | storeDormant t reg w why =>
    exact wf.setStatus.setTask (of_decide_eq_true en) (by simp [Task.cell?])
  | sendFailure t reg w why =>
    exact wf.broadcast.setTask (of_decide_eq_true en) (by simp [Task.cell?])
  | removeEntry t reg w => exact wf.removeJob.setTask (of_decide_eq_true en) (by simp [Task.cell?])

lemma step_iff {n timeout : ℕ} {s t : State} {e : Event} :
    (system n timeout).step s e = some t ↔ e.enabled s = true ∧ e.next s = t :=
  Transition.System.guarded_step

lemma leads_cons {n timeout : ℕ} {s : State} {e : Event} {es : List Event} {Q : State → Prop}
    (en : e.enabled s = true) (rest : (system n timeout).Leads (e.next s) es Q) :
    (system n timeout).Leads s (e :: es) Q := rest.cons (step_iff.mpr ⟨en, rfl⟩)

theorem wellFormed_of_run {n timeout : ℕ} {C : Transition.Condition State Event} {h : List Event}
    {s : State} (run : Transition.RunWhere (system n timeout) C h s) : WellFormed s := by
  apply run.state_invariant WellFormed (wellFormed_initial n timeout)
  intro h s t e wf taken _
  obtain ⟨en, rfl⟩ := step_iff.mp taken
  exact wf.next en

end NScale.WakeCoordinator
