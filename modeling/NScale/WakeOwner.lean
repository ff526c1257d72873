import NScale.WakeCoalescing

/-!
# The owner of a wake

A `WakeState` becomes waking by one compare-and-exchange, and every other store on it sets
dormant or ready. So as long as it is waking, the last caller that won the race for it is
about to spawn its task, or that task has its final status store to come. The log names the
winner; the state alone does not, once another caller has won.
-/
namespace NScale.WakeCoordinator
open Transition

/-- Wakes are named by the caller that started them. -/
structure WakeLog where
  /-- the last caller whose `try_start_wake` succeeded on the `WakeState` -/
  winner : ℕ → Option ℕ
  /-- the caller that spawned the task -/
  starter : ℕ → Option ℕ
  /-- the wake that the caller started, or that was live when it subscribed -/
  joined : ℕ → Option ℕ
  /-- what the task of the wake broadcast -/
  sent : ℕ → Option WakeResult

def WakeLog.empty : WakeLog := ⟨fun _ => none, fun _ => none, fun _ => none, fun _ => none⟩

/-- The wake of the `WakeState` that has still to broadcast its result. -/
def WakeLog.live (g : WakeLog) (w : ℕ) : Option ℕ :=
  (g.winner w).filter fun k => (g.sent k).isNone

@[simps] def WakeLog.won (g : WakeLog) (i w : ℕ) : WakeLog :=
  { g with winner := Function.update g.winner w (some i)
           joined := Function.update g.joined i (some i) }

@[simps] def WakeLog.subscribed (g : WakeLog) (i w : ℕ) : WakeLog :=
  { g with joined := Function.update g.joined i (g.live w) }

@[simps] def WakeLog.spawned (g : WakeLog) (i t : ℕ) : WakeLog :=
  { g with starter := Function.update g.starter t (some i) }

def WakeLog.broadcast (g : WakeLog) (t : ℕ) (msg : WakeResult) : WakeLog :=
  match g.starter t with
  | some k => { g with sent := Function.update g.sent k (some msg) }
  | none => g

def WakeLog.note (g : WakeLog) (s : State) : Event → WakeLog
  | .tryStart i _ w => if (s.cells w).status = .dormant then g.won i w else g
  | .subscribe i _ w => g.subscribed i w
  | .spawn i _ _ _ => g.spawned i s.nextTask
  | .sendReady t _ _ ep => g.broadcast t (.ready ep)
  | .sendFailure t _ _ why => g.broadcast t why
  | _ => g

/-- The coordinator with its log. -/
def logged (nomadConcurrency wakeTimeout : ℕ) : System (State × WakeLog) Event :=
  (system nomadConcurrency wakeTimeout).logged WakeLog.note .empty

@[simp] lemma WakeLog.broadcast_winner (g : WakeLog) (t : ℕ) (msg : WakeResult) :
    (g.broadcast t msg).winner = g.winner := by unfold WakeLog.broadcast; split <;> rfl

@[simp] lemma WakeLog.broadcast_starter (g : WakeLog) (t : ℕ) (msg : WakeResult) :
    (g.broadcast t msg).starter = g.starter := by unfold WakeLog.broadcast; split <;> rfl

@[simp] lemma WakeLog.broadcast_joined (g : WakeLog) (t : ℕ) (msg : WakeResult) :
    (g.broadcast t msg).joined = g.joined := by unfold WakeLog.broadcast; split <;> rfl

/-- The caller is about to spawn its task on the `WakeState`, or the task it spawned has its
final status store on it to come. -/
def State.Pending (s : State) (g : WakeLog) (i w : ℕ) : Prop :=
  ∃ a p, s.wake a = some p ∧ p.cell = w ∧ p.waking = true ∧
    (a = .inl i ∨ ∃ t, a = .inr t ∧ g.starter t = some i)

/-- A waking `WakeState` has its last winner pending. -/
def Owned (s : State) (g : WakeLog) : Prop :=
  ∀ w, (s.cells w).status = .waking → ∃ i, g.winner w = some i ∧ s.Pending g i w

namespace Owned
variable {s s' : State} {g g' : WakeLog} {i t w : ℕ} {c c' : Call} {k k' : Task} {job : JobId}

/-- Nothing new is waking, and what is pending stays so. -/
lemma mono (ok : Owned s g)
    (status : ∀ {v}, (s'.cells v).status = .waking → (s.cells v).status = .waking)
    (wake : ∀ {a p}, s.wake a = some p → p.waking = true →
      (s'.cells p.cell).status = .waking → s'.wake a = some p) : Owned s' g := by
  intro v hv
  obtain ⟨i, won, a, p, hp, rfl, hw, mine⟩ := ok v (status hv)
  exact ⟨i, won, a, p, wake hp hw hv, rfl, hw, mine⟩

lemma of_wake (ok : Owned s g) (wake : s'.wake = s.wake)
    (status : ∀ {v}, (s'.cells v).status = .waking → (s.cells v).status = .waking) :
    Owned s' g :=
  ok.mono status fun hp _ _ => wake ▸ hp

/-- Owners do not depend on what was joined or sent. -/
lemma of_log (ok : Owned s g) (winner : g'.winner = g.winner) (starter : g'.starter = g.starter) :
    Owned s g' := by
  simpa only [Owned, State.Pending, winner, starter] using ok

lemma setCall (ok : Owned s g) (at_ : s.calls i = some c) (same : c'.wake? = c.wake?) :
    Owned (s.setCall i c') g := ok.of_wake (wake_setCall at_ same) id

lemma setEndpoint (ok : Owned s g) {ep : Option Endpoint} : Owned (s.setEndpoint job ep) g :=
  ok.of_wake rfl id

lemma setJob (ok : Owned s g) {v : Option ℕ} : Owned (s.setJob job v) g := ok.of_wake rfl id

lemma setPermits (ok : Owned s g) {n : ℕ} : Owned (s.setPermits n) g := ok.of_wake rfl id

lemma broadcast (ok : Owned s g) {msg : WakeResult} : Owned (s.broadcast w msg) g :=
  ok.of_wake wake_broadcast id

lemma setCell (ok : Owned s g) {cell : WakeState}
    (calm : cell.status = .waking → (s.cells w).status = .waking) :
    Owned { s with cells := Function.update s.cells w cell } g := by
  refine ok.of_wake rfl fun {v} hv => ?_
  by_cases hw : v = w
  · subst hw; exact calm (by simpa using hv)
  · simpa [hw] using hv

lemma setStatus (ok : Owned s g) {status : Status} (calm : status ≠ .waking) :
    Owned (s.setStatus w status) g := ok.setCell fun h => absurd h calm

lemma setReceivers (ok : Owned s g) {n : ℕ} : Owned (s.setReceivers w n) g := ok.setCell id

lemma storeStatus (ok : Owned s g) {status : Status} (calm : status ≠ .waking) :
    Owned (s.storeStatus job status) g := by
  unfold State.storeStatus
  split
  · exact ok.setStatus calm
  · exact ok

lemma orInsert (ok : Owned s g) : Owned (s.orInsert job).1 g := by
  unfold State.orInsert
  split
  · exact ok
  · refine ok.of_wake rfl fun {v} hv => ?_
    by_cases hn : v = s.nextCell
    · simp [hn] at hv
    · simpa [hn] using hv

/-- A task moves on with its wake, or its `WakeState` is no longer waking on its account. -/
lemma setTask (ok : Owned s g) (at_ : s.tasks t = some k)
    (own : ∀ p, k.wake? = some p → p.waking = true →
      k'.wake? = some p ∨ (s.cells p.cell).status ≠ .waking) : Owned (s.setTask t k') g := by
  refine ok.mono id fun {a p} hp hw hs => ?_
  cases a with
  | inl j => exact hp
  | inr u =>
    by_cases hu : u = t
    · subst hu
      rcases own p (by simpa [State.wake, at_] using hp) hw with same | calm
      · simpa [State.wake] using same
      · exact absurd hs calm
    · simpa [State.wake, hu] using hp

/-- The caller that wins the race owns the wake. -/
lemma start (ok : Owned s g) {reg : JobRegistration} (at_ : s.calls i = some (.tryStart reg w)) :
    Owned ((s.setStatus w .waking).setCall i (.ownSubscribe reg w)) (g.won i w) := by
  intro v hv
  by_cases hw : v = w
  · have mine : ((s.setStatus w .waking).setCall i (.ownSubscribe reg w)).wake (.inl i) =
        some ⟨reg.jobId, w, true⟩ := by simp [State.wake, Call.wake?]
    exact ⟨i, by simp [hw], .inl i, _, mine, hw.symm, rfl, .inl rfl⟩
  · obtain ⟨j, won, a, p, hp, rfl, hk, mine⟩ := ok v (by simpa [hw] using hv)
    refine ⟨j, by simpa [hw] using won, a, p, ?_, rfl, hk, mine⟩
    cases a with
    | inl m =>
      have other : m ≠ i := by rintro rfl; simp [State.wake, at_, Call.wake?] at hp
      simpa [State.wake, other] using hp
    | inr u => exact hp

/-- The winner hands its wake over to the task it spawns. -/
lemma spawn (ok : Owned s g) (wf : WellFormed s) {reg : JobRegistration}
    {inbox : Option WakeResult} (at_ : s.calls i = some (.spawn reg w inbox)) :
    Owned (Event.next s (.spawn i reg w inbox)) (g.spawned i s.nextTask) := by
  intro v hv
  obtain ⟨j, won, a, p, hp, hc, hk, mine⟩ := ok v hv
  refine ⟨j, won, ?_⟩
  cases a with
  | inl m =>
    obtain rfl : m = j := by simpa using mine
    by_cases hm : m = i
    · subst hm
      have task : (Event.next s (.spawn m reg w inbox)).wake (.inr s.nextTask) = some p := by
        simpa [State.wake, Event.next, at_, Call.wake?, Task.wake?] using hp
      exact ⟨.inr s.nextTask, p, task, hc, hk, .inr ⟨_, rfl, by simp⟩⟩
    · exact ⟨.inl m, p, by simpa [State.wake, Event.next, hm] using hp, hc, hk, .inl rfl⟩
  | inr u =>
    obtain ⟨k, hu, -⟩ := Option.bind_eq_some_iff.mp hp
    have old : u ≠ s.nextTask := (wf.tasks hu).ne
    have starter : g.starter u = some j := by simpa using mine
    exact ⟨.inr u, p, by simpa [State.wake, Event.next, old] using hp, hc, hk,
      .inr ⟨u, rfl, by simpa [old] using starter⟩⟩

/-- Every step, whatever other callers store, leaves each waking `WakeState` with its owner. -/
theorem next {e : Event} (ok : Owned s g) (wf : WellFormed s) (en : e.enabled s = true) :
    Owned (e.next s) (g.note s e) := by
  cases e with
  | begin op =>
    refine ok.mono id fun {a p} hp _ _ => ?_
    cases a with
    | inl j =>
      obtain ⟨c, hc, -⟩ := Option.bind_eq_some_iff.mp hp
      have old : j ≠ s.nextCall := (wf.calls hc).ne
      simpa [State.wake, Event.next, old] using hp
    | inr u => exact hp
  | entry i reg =>
    have at_ : (s.orInsert reg.jobId).1.calls i = some (.entry reg) := by
      simpa using of_decide_eq_true en
    exact ok.orInsert.setCall at_ rfl
  | fastPath | load | cached | fetched | queried =>
    simp only [Event.next]
    split <;> exact ok.setCall (of_decide_eq_true en) rfl
  | tryStart i reg w =>
    simp only [Event.next, WakeLog.note]
    split
    · exact ok.start (of_decide_eq_true en)
    · exact ok.setCall (of_decide_eq_true en) rfl
  | spawn i reg w inbox => exact ok.spawn wf (of_decide_eq_true en)
  | store | evict | refreshStore => exact ok.setEndpoint.setCall (of_decide_eq_true en) rfl
  | subscribe i reg w =>
    have moved : Owned (Event.next s (.subscribe i reg w)) g :=
      ok.setReceivers.setCall (of_decide_eq_true en) rfl
    exact moved.of_log rfl rfl
  | ownSubscribe | recv | timeout | dropRecv =>
    exact ok.setReceivers.setCall (of_decide_eq_true en) rfl
  | dropFetch | dropQuery => exact ok.setCall (of_decide_eq_true en) rfl
  | reset i job by_ =>
    have at_ : (s.storeStatus job .dormant).calls i = some (.reset job by_) := by
      simpa using of_decide_eq_true en
    exact (ok.storeStatus (by simp)).setCall at_ rfl
  | remove i job by_ => exact ok.setJob.setCall (of_decide_eq_true en) (by cases by_ <;> rfl)
  | refreshReady i reg current ep =>
    have at_ : (s.storeStatus reg.jobId .ready).calls i = some (.refreshReady reg current ep) := by
      simpa using of_decide_eq_true en
    exact (ok.storeStatus (by simp)).setCall at_ rfl
  | acquire t reg w => exact ok.setPermits.setTask (of_decide_eq_true en).1 fun _ hp _ => .inl hp
  | scaled =>
    simp only [Event.next]
    split <;> exact ok.setPermits.setTask (of_decide_eq_true en) fun _ hp _ => .inl hp
  | healthy =>
    simp only [Event.next]
    split <;> exact ok.setTask (of_decide_eq_true en) fun _ hp _ => .inl hp
  | pollReceivers t reg w saw =>
    simp only [Event.next]
    split_ifs <;> exact ok.setTask (of_decide_eq_true en) fun _ hp _ => .inl hp
  | publish => exact ok.setEndpoint.setTask (of_decide_eq_true en) fun _ hp _ => .inl hp
  | storeReady t reg w ep | storeDormant t reg w why =>
    -- after its own final store the task owes nothing to its `WakeState`
    refine (ok.setStatus (by simp)).setTask (of_decide_eq_true en) fun p hp _ => .inr ?_
    obtain rfl := Option.some.inj hp
    simp
  | sendReady t reg w ep =>
    have sent : Owned (Event.next s (.sendReady t reg w ep)) g :=
      ok.broadcast.setTask (of_decide_eq_true en) (by simp [Task.wake?])
    exact sent.of_log (by simp [WakeLog.note]) (by simp [WakeLog.note])
  | sendFailure t reg w why =>
    have sent : Owned (Event.next s (.sendFailure t reg w why)) g :=
      ok.broadcast.setTask (of_decide_eq_true en) (by simp [Task.wake?])
    exact sent.of_log (by simp [WakeLog.note]) (by simp [WakeLog.note])
  | removeEntry => exact ok.setJob.setTask (of_decide_eq_true en) (by simp [Task.wake?])

end Owned

lemma owned_initial (n timeout : ℕ) (g : WakeLog) : Owned (initial n timeout) g := by
  intro w hw
  simp [initial] at hw

variable {n timeout : ℕ} {h : List Event} {s : State} {g : WakeLog}

/-- The log restricts no run. -/
lemma logged_of_run {C : Condition State Event} (run : RunWhere (system n timeout) C h s) :
    ∃ g, RunWhere (logged n timeout) (fun h p e => C h p.1 e) h (s, g) := run.logged

lemma owned_of_run {C : Condition (State × WakeLog) Event}
    (run : RunWhere (logged n timeout) C h (s, g)) : Owned s g := by
  have both : Owned (s, g).1 (s, g).2 ∧ WellFormed (s, g).1 := by
    apply run.state_invariant fun p => Owned p.1 p.2 ∧ WellFormed p.1
    · exact ⟨owned_initial n timeout _, wellFormed_initial n timeout⟩
    · rintro h ⟨s, g⟩ ⟨t, g'⟩ e ⟨ok, wf⟩ taken _
      obtain ⟨step, rfl⟩ := System.logged_step.mp taken
      obtain ⟨en, rfl⟩ := step_iff.mp step
      exact ⟨ok.next wf en, wf.next en⟩
  exact both.1

/-- In every run, with callers dropped at any await and with any resets and refreshes, each
waking `WakeState` has its last winner pending; once its tasks have ended it is not waking. -/
theorem waking_owned (n timeout : ℕ) (h : List Event) (s : State) (g : WakeLog)
    (run : Run (logged n timeout) h (s, g)) :
    (∀ w, (s.cells w).status = .waking → ∃ i, g.winner w = some i ∧ s.Pending g i w) ∧
      ∀ w, (∀ a p, s.wake a = some p → p.cell = w → p.waking = false) →
        (s.cells w).status ≠ .waking := by
  have owned := owned_of_run run
  refine ⟨owned, fun w ended waking => ?_⟩
  obtain ⟨i, -, a, p, hp, hc, hw, -⟩ := owned w waking
  simp [ended a p hp hc] at hw

/-- The shared wake, while its job scales up. -/
theorem sharedWake_owned : ∃ h s g, Run (logged 50 60) h (s, g) ∧
    (s.cells 0).status = .waking ∧ ∃ i, g.winner 0 = some i ∧ s.Pending g i 0 := by
  obtain ⟨h, ⟨s, g⟩, run, waking⟩ := exists_run (T := logged 50 60) (C := fun _ _ _ => True)
    (fun _ p => (p.1.cells 0).status = .waking) sharedWake (by decide)
  exact ⟨h, s, g, run, waking, (waking_owned 50 60 h s g run).1 0 waking⟩

end NScale.WakeCoordinator
