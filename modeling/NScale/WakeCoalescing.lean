import NScale.WakeBroadcast

/-!
# Coalescing of wakes

A wake of a job runs from a successful `try_start_wake` to the end of the result handling
of its task. Until its status store the entry of the job points to its `WakeState`, which
is not dormant; this is what turns every other caller away.
-/
namespace NScale.WakeCoordinator
open Transition

/-- A wake in progress: its job, its `WakeState`, and whether its status store is to come. -/
structure Wake where
  job : JobId
  cell : ℕ
  waking : Bool
  deriving DecidableEq, Repr

/-- A caller that has won the race and has not yet spawned its task. -/
def Call.wake? : Call → Option Wake
  | .ownSubscribe reg w | .spawn reg w _ => some ⟨reg.jobId, w, true⟩
  | _ => none

def Task.wake? : Task → Option Wake
  | .acquire reg w | .scaleUp reg w | .health reg w _ | .publish reg w _ =>
      some ⟨reg.jobId, w, true⟩
  | .storeReady reg w _ | .storeDormant reg w _ => some ⟨reg.jobId, w, true⟩
  | .sendReady reg w _ | .sendFailure reg w _ | .removeEntry reg w => some ⟨reg.jobId, w, false⟩
  | .finished => none

/-- The wakes in progress, by caller or by task. -/
def State.wake (s : State) : ℕ ⊕ ℕ → Option Wake
  | .inl i => (s.calls i).bind Call.wake?
  | .inr t => (s.tasks t).bind Task.wake?

/-- At most one spawned and unfinished wake task for each job. -/
def Coalesced (s : State) : Prop :=
  ∀ t u p q, s.wake (.inr t) = some p → s.wake (.inr u) = some q → p.job = q.job → t = u

/-- No wake of the job is between its `try_start_wake` and its status store. -/
def State.NotWaking (s : State) (job : JobId) : Prop :=
  ∀ a p, s.wake a = some p → p.job = job → p.waking = false

/-- Statuses are reset and entries dropped only while the job is not waking, and a wake is
started only on the mapped `WakeState`, after the result handling of earlier tasks. -/
def RespectsWakes : Condition State Event := fun _ s e =>
  match e with
  | .reset _ job _ => (s.jobs job).isSome → s.NotWaking job
  | .remove _ job _ => (s.jobs job).isSome → s.NotWaking job
  | .tryStart _ reg w => (s.cells w).status = .dormant →
      s.jobs reg.jobId = some w ∧
        ∀ t p, s.wake (.inr t) = some p → p.job = reg.jobId → p.waking = true
  | _ => True

structure OneWake (s : State) : Prop where
  single : ∀ {a b p q}, s.wake a = some p → s.wake b = some q → p.job = q.job → a = b
  mapped : ∀ {a p}, s.wake a = some p → p.waking = true → s.jobs p.job = some p.cell
  awake : ∀ {a p}, s.wake a = some p → p.waking = true → (s.cells p.cell).status ≠ .dormant

lemma OneWake.coalesced {s : State} (one : OneWake s) : Coalesced s := fun _ _ _ _ hp hq hj =>
  Sum.inr_injective (one.single hp hq hj)

lemma oneWake_initial (n timeout : ℕ) : OneWake (initial n timeout) := by
  constructor <;> intro a <;> cases a <;> simp [State.wake, initial]

@[simp] lemma Call.wake?_deliver (w : ℕ) (msg : WakeResult) (c : Call) :
    (c.deliver w msg).wake? = c.wake? := by
  cases c with
  | spawn reg v inbox => cases inbox <;> rfl
  | recv reg v inbox => cases inbox <;> rfl
  | _ => rfl

section Wakes
variable {s : State} {i t w : ℕ} {c c' : Call} {k k' : Task}

lemma wake_setCall (at_ : s.calls i = some c) (same : c'.wake? = c.wake?) :
    (s.setCall i c').wake = s.wake := by
  funext a
  cases a with
  | inl j => by_cases h : j = i <;> simp [State.wake, h, at_, same]
  | inr u => rfl

lemma wake_setTask (at_ : s.tasks t = some k) (same : k'.wake? = k.wake?) :
    (s.setTask t k').wake = s.wake := by
  funext a
  cases a with
  | inl j => rfl
  | inr u => by_cases h : u = t <;> simp [State.wake, h, at_, same]

lemma wake_broadcast {msg : WakeResult} : (s.broadcast w msg).wake = s.wake := by
  funext a
  cases a with
  | inl j => cases h : s.calls j <;> simp [State.wake, h]
  | inr u => rfl

/-- The `WakeState` of a wake was inserted under its job. -/
lemma WellFormed.wake_holds (wf : WellFormed s) {a : ℕ ⊕ ℕ} {p : Wake} (h : s.wake a = some p) :
    s.Holds p.job p.cell := by
  cases a with
  | inl j =>
    obtain ⟨c, hc, hp⟩ := Option.bind_eq_some_iff.mp h
    apply wf.callCell hc (p := (p.job, p.cell))
    cases c <;> simp [Call.wake?] at hp <;> subst hp <;> rfl
  | inr u =>
    obtain ⟨k, hk, hp⟩ := Option.bind_eq_some_iff.mp h
    apply wf.taskCell hk (p := (p.job, p.cell))
    cases k <;> simp [Task.wake?] at hp <;> subst hp <;> rfl

end Wakes

namespace OneWake
variable {s s' : State} {i t w : ℕ} {c c' : Call} {k k' : Task} {job : JobId}

lemma of_eq (one : OneWake s) (wake : s'.wake = s.wake) (jobs : s'.jobs = s.jobs)
    (status : ∀ v, (s'.cells v).status = .dormant → (s.cells v).status = .dormant) :
    OneWake s' where
  single hp hq hj := one.single (wake ▸ hp) (wake ▸ hq) hj
  mapped hp hw := jobs ▸ one.mapped (wake ▸ hp) hw
  awake hp hw hd := one.awake (wake ▸ hp) hw (status _ hd)

/-- A caller moves on without starting or handing over a wake. -/
lemma setCall (one : OneWake s) (at_ : s.calls i = some c) (same : c'.wake? = c.wake?) :
    OneWake (s.setCall i c') := one.of_eq (wake_setCall at_ same) rfl fun _ h => h

lemma setTask (one : OneWake s) (at_ : s.tasks t = some k) (same : k'.wake? = k.wake?) :
    OneWake (s.setTask t k') := one.of_eq (wake_setTask at_ same) rfl fun _ h => h

lemma broadcast (one : OneWake s) {msg : WakeResult} : OneWake (s.broadcast w msg) :=
  one.of_eq wake_broadcast rfl fun _ h => h

lemma setEndpoint (one : OneWake s) {ep : Option Endpoint} : OneWake (s.setEndpoint job ep) :=
  one.of_eq rfl rfl fun _ h => h

lemma setPermits (one : OneWake s) {n : ℕ} : OneWake (s.setPermits n) :=
  one.of_eq rfl rfl fun _ h => h

lemma setReceivers (one : OneWake s) {n : ℕ} : OneWake (s.setReceivers w n) := by
  refine one.of_eq rfl rfl fun v h => ?_
  by_cases hv : v = w
  · subst hv; simpa using h
  · simpa [hv] using h

/-- Storing anything but dormant hurts no wake. -/
lemma setStatus (one : OneWake s) {status : Status} (h : status ≠ .dormant) :
    OneWake (s.setStatus w status) := by
  refine one.of_eq rfl rfl fun v hd => ?_
  by_cases hv : v = w
  · subst hv; exact absurd (by simpa using hd) h
  · simpa [hv] using hd

/-- A task past its status store may end, and a task may take its status store. -/
lemma settle (one : OneWake s) (at_ : s.tasks t = some k)
    (less : ∀ q, k'.wake? = some q →
      q.waking = false ∧ ∃ p, k.wake? = some p ∧ q.job = p.job) : OneWake (s.setTask t k') := by
  have was : ∀ {a q}, (s.setTask t k').wake a = some q →
      ∃ p, s.wake a = some p ∧ q.job = p.job ∧ (q.waking = true → p = q) := by
    intro a q hq
    cases a with
    | inl j => exact ⟨q, hq, rfl, fun _ => rfl⟩
    | inr u =>
      by_cases hu : u = t
      · subst hu
        obtain ⟨hw, p, hp, hj⟩ := less q (by simpa [State.wake] using hq)
        exact ⟨p, by simp [State.wake, at_, hp], hj, by simp [hw]⟩
      · exact ⟨q, by simpa [State.wake, hu] using hq, rfl, fun _ => rfl⟩
  constructor
  · intro a b p q hp hq hj
    obtain ⟨p', hp', hpj, -⟩ := was hp
    obtain ⟨q', hq', hqj, -⟩ := was hq
    exact one.single hp' hq' (hpj.symm.trans (hj.trans hqj))
  · intro a q hq hw
    obtain ⟨p, hp, -, he⟩ := was hq
    obtain rfl := he hw
    exact one.mapped hp hw
  · intro a q hq hw
    obtain ⟨p, hp, -, he⟩ := was hq
    obtain rfl := he hw
    exact one.awake hp hw

/-- A dormant store on a cell of a job that is not waking. -/
lemma setDormant (one : OneWake s) (wf : WellFormed s) (key : (s.cells w).key = job)
    (quiet : s.NotWaking job) : OneWake (s.setStatus w .dormant) where
  single := one.single
  mapped := one.mapped
  awake := by
    intro a p hp hw
    have other : p.cell ≠ w := by
      rintro rfl
      have hj : p.job = job := (wf.wake_holds hp).2.symm.trans key
      simp [quiet a p hp hj] at hw
    simpa [other] using one.awake hp hw

/-- Dropping the entry of a job that is not waking. -/
lemma removeJob (one : OneWake s) (quiet : s.NotWaking job) : OneWake (s.setJob job none) where
  single := one.single
  mapped := by
    intro a p hp hw
    have other : p.job ≠ job := fun hj => by simp [quiet a p hp hj] at hw
    simpa [other] using one.mapped hp hw
  awake := one.awake

lemma orInsert (one : OneWake s) (wf : WellFormed s) : OneWake (s.orInsert job).1 := by
  unfold State.orInsert
  split
  · exact one
  next empty =>
    refine ⟨one.single, ?_, ?_⟩
    · intro a p hp hw
      have hm := one.mapped hp hw
      have other : p.job ≠ job := by rintro rfl; simp [empty] at hm
      simpa [other] using hm
    · intro a p hp hw
      have old : p.cell ≠ s.nextCell := (wf.wake_holds hp).1.ne
      simpa [old] using one.awake hp hw

/-- Once the only wake of a job has stored its status, the job is not waking. -/
lemma notWaking (one : OneWake s) {a : ℕ ⊕ ℕ} {p : Wake} (hp : s.wake a = some p)
    (settled : p.waking = false) : s.NotWaking p.job := by
  intro b q hq hj
  obtain rfl := one.single hq hp hj
  obtain rfl : p = q := Option.some.inj (hp.symm.trans hq)
  exact settled

/-- The compare-and-exchange succeeds only on a mapped dormant cell, whose job has no wake. -/
lemma start (one : OneWake s) {reg : JobRegistration} (at_ : s.calls i = some (.tryStart reg w))
    (mapped : s.jobs reg.jobId = some w) (dormant : (s.cells w).status = .dormant)
    (settled : ∀ t p, s.wake (.inr t) = some p → p.job = reg.jobId → p.waking = true) :
    OneWake ((s.setStatus w .waking).setCall i (.ownSubscribe reg w)) := by
  have none_ : ∀ a p, s.wake a = some p → p.job ≠ reg.jobId := by
    intro a p hp hj
    have hw : p.waking = true := by
      cases a with
      | inl j =>
        obtain ⟨c, -, hc⟩ := Option.bind_eq_some_iff.mp hp
        cases c <;> simp [Call.wake?] at hc <;> subst hc <;> rfl
      | inr t => exact settled t p hp hj
    have cell : p.cell = w := by
      have hm := one.mapped hp hw
      rw [hj, mapped] at hm
      exact (Option.some.inj hm).symm
    exact one.awake hp hw (cell ▸ dormant)
  have was : ∀ {a p}, ((s.setStatus w .waking).setCall i (.ownSubscribe reg w)).wake a = some p →
      (a = .inl i ∧ p = ⟨reg.jobId, w, true⟩) ∨ s.wake a = some p := by
    intro a p hp
    cases a with
    | inl j =>
      by_cases hj : j = i
      · subst hj
        exact .inl ⟨rfl, by simpa [State.wake, Call.wake?] using hp.symm⟩
      · exact .inr (by simpa [State.wake, hj] using hp)
    | inr t => exact .inr hp
  constructor
  · intro a b p q hp hq hj
    rcases was hp with ⟨rfl, rfl⟩ | hp' <;> rcases was hq with ⟨rfl, rfl⟩ | hq'
    · rfl
    · exact absurd hj.symm (none_ b q hq')
    · exact absurd hj (none_ a p hp')
    · exact one.single hp' hq' hj
  · intro a p hp hw
    rcases was hp with ⟨rfl, rfl⟩ | hp'
    · exact mapped
    · exact one.mapped hp' hw
  · intro a p hp hw
    by_cases hc : p.cell = w
    · simp [hc]
    · rcases was hp with ⟨rfl, rfl⟩ | hp'
      · exact absurd rfl hc
      · simpa [hc] using one.awake hp' hw

/-- The winner hands its wake over to the spawned task. -/
lemma spawn (one : OneWake s) {reg : JobRegistration} {inbox : Option WakeResult} (at_ : s.calls i = some (.spawn reg w inbox)) :
    OneWake (Event.next s (.spawn i reg w inbox)) := by
  have was : ∀ {a p}, (Event.next s (.spawn i reg w inbox)).wake a = some p →
      (a = .inr s.nextTask ∧ s.wake (.inl i) = some p) ∨ (a ≠ .inl i ∧ s.wake a = some p) := by
    intro a p hp
    cases a with
    | inl j =>
      by_cases hj : j = i
      · subst hj
        simp [State.wake, Event.next, Call.wake?] at hp
      · exact .inr ⟨by simpa using hj, by simpa [State.wake, Event.next, hj] using hp⟩
    | inr t =>
      by_cases ht : t = s.nextTask
      · subst ht
        refine .inl ⟨rfl, ?_⟩
        simpa [State.wake, Event.next, at_, Call.wake?, Task.wake?] using hp
      · exact .inr ⟨by simp, by simpa [State.wake, Event.next, ht] using hp⟩
  constructor
  · intro a b p q hp hq hj
    rcases was hp with ⟨rfl, hp'⟩ | ⟨ha, hp'⟩ <;> rcases was hq with ⟨rfl, hq'⟩ | ⟨hb, hq'⟩
    · rfl
    · exact absurd (one.single hq' hp' hj.symm) hb
    · exact absurd (one.single hp' hq' hj) ha
    · exact one.single hp' hq' hj
  · intro a p hp hw
    rcases was hp with ⟨-, hp'⟩ | ⟨-, hp'⟩ <;> exact one.mapped hp' hw
  · intro a p hp hw
    rcases was hp with ⟨-, hp'⟩ | ⟨-, hp'⟩ <;> exact one.awake hp' hw

/-- One step under the condition keeps at most one wake for each job. -/
theorem next {h : List Event} {e : Event} (one : OneWake s) (wf : WellFormed s)
    (en : e.enabled s = true) (cond : RespectsWakes h s e) : OneWake (e.next s) := by
  cases e with
  | begin op =>
    refine one.of_eq (funext fun a => ?_) rfl fun _ h => h
    cases a with
    | inl j =>
      by_cases hj : j = s.nextCall
      · subst hj
        have fresh : s.calls s.nextCall = none :=
          Option.eq_none_iff_forall_not_mem.mpr fun c hc => (wf.calls hc).false
        cases op <;> simp [State.wake, Event.next, fresh, Operation.call, Call.wake?]
      · simp [State.wake, Event.next, hj]
    | inr t => rfl
  | entry i reg =>
    have at_ : (s.orInsert reg.jobId).1.calls i = some (.entry reg) := by
      simpa using of_decide_eq_true en
    exact (one.orInsert wf).setCall at_ rfl
  | tryStart i reg w =>
    have at_ := of_decide_eq_true en
    simp only [Event.next]
    split
    next dormant =>
      obtain ⟨mapped, settled⟩ := cond dormant
      exact one.start at_ mapped dormant settled
    next => exact one.setCall at_ rfl
  | spawn i reg w inbox => exact one.spawn (of_decide_eq_true en)
  | reset i job by_ =>
    have at_ : (s.storeStatus job .dormant).calls i = some (.reset job by_) := by
      simpa using of_decide_eq_true en
    refine OneWake.setCall ?_ at_ rfl
    unfold State.storeStatus
    split
    next w hw => exact one.setDormant wf (wf.jobs hw).2 (cond (by simp [hw]))
    next => exact one
  | remove i job by_ =>
    have at_ := of_decide_eq_true en
    have same : (by_.finish job).wake? = none := by cases by_ <;> rfl
    cases hw : s.jobs job with
    | none =>
      have idle : s.setJob job none = s := by
        simp [State.setJob, ← hw, Function.update_eq_self]
      simp only [Event.next, idle]
      exact one.setCall at_ same
    | some w => exact (one.removeJob (cond (by simp [hw]))).setCall at_ same
  | refreshReady i reg cur ep =>
    have at_ : (s.storeStatus reg.jobId .ready).calls i = some (.refreshReady reg cur ep) := by
      simpa using of_decide_eq_true en
    refine OneWake.setCall ?_ at_ rfl
    unfold State.storeStatus
    split
    · exact one.setStatus (by simp)
    · exact one
  | fastPath | cached | load | fetched | queried =>
    simp only [Event.next]
    split <;> exact one.setCall (of_decide_eq_true en) rfl
  | subscribe | ownSubscribe | recv | timeout | dropRecv =>
    exact one.setReceivers.setCall (of_decide_eq_true en) rfl
  | dropFetch | dropQuery => exact one.setCall (of_decide_eq_true en) rfl
  | store | evict | refreshStore => exact one.setEndpoint.setCall (of_decide_eq_true en) rfl
  | acquire t reg w => exact one.setPermits.setTask (of_decide_eq_true en).1 rfl
  | scaled =>
    simp only [Event.next]
    split <;> exact one.setPermits.setTask (of_decide_eq_true en) rfl
  | healthy =>
    simp only [Event.next]
    split <;> exact one.setTask (of_decide_eq_true en) rfl
  | pollReceivers t reg w saw =>
    simp only [Event.next]
    split_ifs <;> exact one.setTask (of_decide_eq_true en) rfl
  | publish => exact one.setEndpoint.setTask (of_decide_eq_true en) rfl
  | storeReady t reg w ep =>
    refine (one.setStatus (by simp)).settle (of_decide_eq_true en) fun q hq => ?_
    obtain rfl : (⟨reg.jobId, w, false⟩ : Wake) = q := Option.some.inj hq
    exact ⟨rfl, _, rfl, rfl⟩
  | storeDormant t reg w why =>
    have at_ := of_decide_eq_true en
    -- the task has already left the waking phase when its cell becomes dormant
    have settled : OneWake (s.setTask t (.sendFailure reg w why)) := by
      refine one.settle at_ fun q hq => ?_
      obtain rfl : (⟨reg.jobId, w, false⟩ : Wake) = q := Option.some.inj hq
      exact ⟨rfl, _, rfl, rfl⟩
    have wf' : WellFormed (s.setTask t (.sendFailure reg w why)) := wf.setTask at_ fun _ h => h
    exact settled.setDormant wf' (wf.taskCell at_ rfl).2
      (settled.notWaking (a := .inr t) (p := ⟨reg.jobId, w, false⟩) (by simp [State.wake, Task.wake?])
        rfl)
  | sendReady t reg w ep =>
    exact one.broadcast.settle (of_decide_eq_true en) (by simp [Task.wake?])
  | sendFailure => exact one.broadcast.setTask (of_decide_eq_true en) rfl
  | removeEntry t reg w =>
    have at_ := of_decide_eq_true en
    have quiet := one.notWaking (a := .inr t) (p := ⟨reg.jobId, w, false⟩)
      (by simp [State.wake, at_, Task.wake?]) rfl
    exact (one.removeJob quiet).settle at_ (by simp [Task.wake?])

end OneWake

variable {n timeout : ℕ} {h : List Event} {s : State}

lemma oneWake_of_run (run : RunWhere (system n timeout) RespectsWakes h s) : OneWake s := by
  have both : OneWake s ∧ WellFormed s := by
    apply run.state_invariant fun s => OneWake s ∧ WellFormed s
    · exact ⟨oneWake_initial n timeout, wellFormed_initial n timeout⟩
    · rintro h s t e ⟨one, wf⟩ taken cond
      obtain ⟨en, rfl⟩ := step_iff.mp taken
      exact ⟨one.next wf en cond, wf.next en⟩
  exact both.1

/-- Request coalescing: in a run that resets no waking job and starts wakes only on mapped,
settled states, at most one wake task of a job is live. -/
theorem coalesced_of_run (n timeout : ℕ) (h : List Event) (s : State)
    (run : RunWhere (system n timeout) RespectsWakes h s) : Coalesced s :=
  (oneWake_of_run run).coalesced

/-- A first wake with nothing in its way: no reset, no refresh and no earlier task. -/
def FirstWake : Condition State Event := fun _ s e =>
  match e with
  | .reset .. | .remove .. | .refreshReady .. => False
  | .tryStart _ reg w => s.jobs reg.jobId = some w ∧ s.nextTask = 0
  | _ => True

instance (h : List Event) (s : State) (e : Event) : Decidable (FirstWake h s e) := by
  unfold FirstWake; split <;> infer_instance

lemma respectsWakes_of_first (run : RunWhere (system n timeout) FirstWake h s) :
    RunWhere (system n timeout) RespectsWakes h s := by
  refine run.mono fun h s t e prior _ first => ?_
  cases e with
  | reset | remove => exact first.elim
  | tryStart i reg w =>
    refine fun _ => ⟨first.1, fun t p hp _ => ?_⟩
    obtain ⟨k, hk, -⟩ := Option.bind_eq_some_iff.mp hp
    have := (wellFormed_of_run prior).tasks hk
    have := first.2
    omega
  | _ => trivial

/-- Two callers, one of which wakes the job while the other waits for it. -/
def sharedWake : List Event :=
  [.begin (.ensureRunning echoReg), .fastPath 0 echoReg, .entry 0 echoReg, .load 0 echoReg 0,
    .tryStart 0 echoReg 0, .ownSubscribe 0 echoReg 0, .spawn 0 echoReg 0 none,
    .begin (.ensureRunning echoReg), .fastPath 1 echoReg, .entry 1 echoReg, .load 1 echoReg 0,
    .subscribe 1 echoReg 0, .acquire 0 echoReg 0]

theorem sharedWake_coalesced : ∃ h s, RunWhere (system 50 60) RespectsWakes h s ∧
    s.tasks 0 = some (.scaleUp echoReg 0) ∧ Coalesced s := by
  obtain ⟨h, s, run, task⟩ := exists_run (T := system 50 60) (C := FirstWake)
    (fun _ s => s.tasks 0 = some (.scaleUp echoReg 0)) sharedWake (by decide)
  have respects := respectsWakes_of_first run
  exact ⟨h, s, respects, task, coalesced_of_run 50 60 h s respects⟩

/-- The job is marked dormant while it wakes, and the next request wakes it again. -/
def dormantWhileWaking : List Event :=
  sharedWake ++
    [.begin (.markDormant echoReg.jobId), .evict 2 echoReg.jobId .markDormant,
      .reset 2 echoReg.jobId .markDormant, .remove 2 echoReg.jobId .markDormant,
      .begin (.ensureRunning echoReg), .fastPath 3 echoReg, .entry 3 echoReg, .load 3 echoReg 1,
      .tryStart 3 echoReg 1, .ownSubscribe 3 echoReg 1, .spawn 3 echoReg 1 none,
      .acquire 1 echoReg 1]

theorem wakes_overlap : ¬ ∀ h s, Run (system 50 60) h s → Coalesced s := by
  intro all
  obtain ⟨h, s, run, first, second⟩ := exists_run (T := system 50 60) (C := fun _ _ _ => True)
    (fun _ s => s.tasks 0 = some (.scaleUp echoReg 0) ∧ s.tasks 1 = some (.scaleUp echoReg 1))
    dormantWhileWaking (by decide)
  have same := all h s run 0 1 ⟨echoReg.jobId, 0, true⟩ ⟨echoReg.jobId, 1, true⟩
    (by simp [State.wake, first, Task.wake?]) (by simp [State.wake, second, Task.wake?]) rfl
  exact absurd same (by decide)

end NScale.WakeCoordinator
