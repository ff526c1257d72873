import NScale.WakeInvariant

/-!
# Waiting for the broadcast

A caller that finds a `WakeState` waking loads the status and subscribes in two steps, and
the wake task stores the status and sends in two steps. The only way to wait in vain is to
subscribe after the send.
-/
namespace NScale.WakeCoordinator
open Transition

/-- The `WakeState` on whose channel a task has still to send. -/
def Task.unsent? : Task → Option ℕ
  | .acquire _ w | .scaleUp _ w | .health _ w _ | .publish _ w _ | .storeReady _ w _ => some w
  | .sendReady _ w _ | .storeDormant _ w _ | .sendFailure _ w _ => some w
  | .removeEntry _ _ | .finished => none

/-- A live wake task has still to send on the channel of `w`. -/
def State.Unsent (s : State) (w : ℕ) : Prop := ∃ t k, s.tasks t = some k ∧ k.unsent? = some w

/-- Every caller blocked in `recv` waits for a task that has still to send. -/
def NoLostWakeUp (s : State) : Prop :=
  ∀ i reg w, s.calls i = some (.recv reg w none) → s.Unsent w

/-- The subscription of the waking branch comes before the send of a spawned wake task. -/
def SubscribesInTime : Condition State Event := fun _ s e =>
  match e with
  | .subscribe _ _ w => s.Unsent w
  | _ => True

lemma noLostWakeUp_initial (n timeout : ℕ) : NoLostWakeUp (initial n timeout) := by
  intro i reg w h
  simp [initial] at h

namespace NoLostWakeUp
variable {s : State} {i t w : ℕ} {c : Call} {k k' : Task}

lemma of_eq {s' : State} (ok : NoLostWakeUp s) (calls : s'.calls = s.calls)
    (tasks : s'.tasks = s.tasks) : NoLostWakeUp s' := by
  simpa only [NoLostWakeUp, State.Unsent, calls, tasks] using ok

/-- A caller that does not block leaves the others as they are. -/
lemma setCall (ok : NoLostWakeUp s) (awake : ∀ reg w, c ≠ .recv reg w none) :
    NoLostWakeUp (s.setCall i c) := by
  intro j reg v hj
  by_cases hij : j = i
  · subst hij
    exact absurd (by simpa using hj) (awake reg v)
  · exact ok j reg v (by simpa [hij] using hj)

/-- A task that goes on without sending still has to send. -/
lemma setTask (ok : NoLostWakeUp s) (at_ : s.tasks t = some k) (same : k'.unsent? = k.unsent?) :
    NoLostWakeUp (s.setTask t k') := by
  intro j reg v hj
  obtain ⟨u, l, hu, hl⟩ := ok j reg v hj
  by_cases hut : u = t
  · subst hut
    obtain rfl : k = l := Option.some.inj (at_.symm.trans hu)
    exact ⟨u, k', by simp, same.trans hl⟩
  · exact ⟨u, l, by simpa [hut] using hu, hl⟩

/-- A send wakes every caller blocked on its channel, so that only tasks of other channels
are still waited for. -/
lemma send (ok : NoLostWakeUp s) (at_ : s.tasks t = some k) (mine : k.unsent? = some w)
    {msg : WakeResult} : NoLostWakeUp ((s.broadcast w msg).setTask t k') := by
  intro j reg v hj
  obtain ⟨c, hc, delivered⟩ := Option.map_eq_some_iff.mp (show (s.calls j).map _ = _ from hj)
  obtain ⟨rfl, hvw⟩ : c = .recv reg v none ∧ v ≠ w := by
    cases c with
    | recv reg' v' inbox => cases inbox <;> simp [Call.deliver] at delivered ⊢; grind
    | spawn reg' v' inbox => cases inbox <;> simp [Call.deliver] at delivered
    | _ => simp [Call.deliver] at delivered
  obtain ⟨u, l, hu, hl⟩ := ok j reg v hc
  have hut : u ≠ t := by
    rintro rfl
    obtain rfl : k = l := Option.some.inj (at_.symm.trans hu)
    exact hvw (Option.some.inj (hl.symm.trans mine))
  exact ⟨u, l, by simpa [hut] using hu, hl⟩

/-- The winner of the race only blocks after it has spawned its task. -/
lemma spawn (ok : NoLostWakeUp s) (wf : WellFormed s) {reg : JobRegistration}
    {inbox : Option WakeResult} : NoLostWakeUp (Event.next s (.spawn i reg w inbox)) := by
  intro j reg' v hj
  by_cases hij : j = i
  · subst hij
    obtain ⟨-, rfl, -⟩ : reg = reg' ∧ w = v ∧ inbox = none := by simpa [Event.next] using hj
    exact ⟨s.nextTask, .acquire reg w, by simp [Event.next], rfl⟩
  · obtain ⟨u, l, hu, hl⟩ := ok j reg' v (by simpa [Event.next, hij] using hj)
    have fresh : u ≠ s.nextTask := (wf.tasks hu).ne
    exact ⟨u, l, by simpa [Event.next, fresh] using hu, hl⟩

/-- A waiter that subscribes in time has something to wait for. -/
lemma subscribe (ok : NoLostWakeUp s) (inTime : s.Unsent w) {reg : JobRegistration} :
    NoLostWakeUp (Event.next s (.subscribe i reg w)) := by
  intro j reg' v hj
  by_cases hij : j = i
  · subst hij
    obtain ⟨-, rfl⟩ : reg = reg' ∧ w = v := by simpa [Event.next] using hj
    exact inTime
  · exact ok j reg' v (by simpa [Event.next, hij, State.joined] using hj)

/-- One step under the condition keeps every waiter in touch with a task. -/
theorem next {h : List Event} {e : Event} (ok : NoLostWakeUp s) (wf : WellFormed s)
    (en : e.enabled s = true) (inTime : SubscribesInTime h s e) : NoLostWakeUp (e.next s) := by
  cases e with
  | subscribe i reg w => exact ok.subscribe inTime
  | spawn i reg w inbox => exact ok.spawn wf
  | sendReady t reg w ep => exact ok.send (of_decide_eq_true en) rfl
  | sendFailure t reg w why => exact ok.send (of_decide_eq_true en) rfl
  | begin op => exact ok.setCall (by cases op <;> simp [Operation.call])
  | entry i reg => exact (ok.of_eq (by simp) (by simp)).setCall (by simp)
  | reset i job by_ => exact (ok.of_eq (by simp) (by simp)).setCall (by simp)
  | refreshReady i reg cur ep => exact (ok.of_eq (by simp) (by simp)).setCall (by simp)
  | remove i job by_ => exact ok.setCall (by cases by_ <;> simp [Reset.finish])
  | fastPath | cached | load | fetched | tryStart | queried =>
    simp only [Event.next]
    split <;> exact ok.setCall (by simp)
  | store | ownSubscribe | recv | timeout | dropFetch | dropRecv | dropQuery | evict
  | refreshStore => exact ok.setCall (by simp)
  | acquire t reg w => exact ok.setTask (of_decide_eq_true en).1 rfl
  | scaled | healthy =>
    simp only [Event.next]
    split <;> exact ok.setTask (of_decide_eq_true en) rfl
  | pollReceivers t reg w saw =>
    simp only [Event.next]
    split_ifs <;> exact ok.setTask (of_decide_eq_true en) rfl
  | publish | storeReady | storeDormant | removeEntry =>
    exact ok.setTask (of_decide_eq_true en) rfl

end NoLostWakeUp

variable {n timeout : ℕ} {h : List Event} {s : State}

theorem noLostWakeUp_of_run (run : RunWhere (system n timeout) SubscribesInTime h s) :
    NoLostWakeUp s := by
  have both : NoLostWakeUp s ∧ WellFormed s := by
    apply run.state_invariant fun s => NoLostWakeUp s ∧ WellFormed s
    · exact ⟨noLostWakeUp_initial n timeout, wellFormed_initial n timeout⟩
    · rintro h s t e ⟨ok, wf⟩ taken inTime
      obtain ⟨en, rfl⟩ := step_iff.mp taken
      exact ⟨ok.next wf en inTime, wf.next en⟩
  exact both.1

/-- A subscription that leaves its caller with something to wait for came in time. -/
lemma inTime_of_next {e : Event} (ok : NoLostWakeUp (e.next s)) : SubscribesInTime h s e := by
  cases e with
  | subscribe i reg w => exact ok i reg w (by simp [Event.next])
  | _ => trivial

/-- The runs in which no caller ever waits in vain are exactly those in which every waiter
subscribes before the task has sent. -/
theorem noLostWakeUp_iff (n timeout : ℕ) (h : List Event) (s : State) :
    RunWhere (system n timeout) (fun _ s e => NoLostWakeUp (e.next s)) h s ↔
      RunWhere (system n timeout) SubscribesInTime h s := by
  constructor
  · exact fun run => run.mono fun h s t e _ _ ok => inTime_of_next ok
  · refine fun run => run.mono fun h s t e prior taken inTime => ?_
    obtain ⟨en, -⟩ := step_iff.mp taken
    exact (noLostWakeUp_of_run prior).next (wellFormed_of_run prior) en inTime

def echoReg : JobRegistration := ⟨⟨"echo-submit-job"⟩, ⟨"echo-s2z"⟩, "main"⟩

/-- A second caller loads the status while the job wakes and subscribes after the broadcast. -/
def lateSubscription : List Event :=
  let ep : Endpoint := ⟨"10.0.0.1", 8080⟩
  [.begin (.ensureRunning echoReg), .fastPath 0 echoReg, .entry 0 echoReg, .load 0 echoReg 0,
    .tryStart 0 echoReg 0, .ownSubscribe 0 echoReg 0, .spawn 0 echoReg 0 none,
    .begin (.ensureRunning echoReg), .fastPath 1 echoReg, .entry 1 echoReg, .load 1 echoReg 0,
    .acquire 0 echoReg 0, .scaled 0 echoReg 0 (.ok ()), .healthy 0 echoReg 0 false (.ok ep),
    .publish 0 echoReg 0 ep, .storeReady 0 echoReg 0 ep, .sendReady 0 echoReg 0 ep,
    .subscribe 1 echoReg 0]

theorem waits_in_vain : ¬ ∀ h s, Run (system 50 60) h s → NoLostWakeUp s := by
  intro all
  obtain ⟨h, s, run, blocked, one, done⟩ := exists_run (T := system 50 60) (C := fun _ _ _ => True)
    (fun _ s => s.calls 1 = some (.recv echoReg 0 none) ∧ s.nextTask = 1 ∧
      s.tasks 0 = some .finished) lateSubscription (by decide)
  obtain ⟨t, k, hk, unsent⟩ := all h s run 1 echoReg 0 blocked
  have first : t = 0 := by have := (wellFormed_of_run run).tasks hk; omega
  subst first
  obtain rfl : Task.finished = k := Option.some.inj (done.symm.trans hk)
  simp [Task.unsent?] at unsent

end NScale.WakeCoordinator
