import NScale.WakeQuiescent

/-!
# One scale-up per wake cycle

In a run of `ensure_running` callers in which no wake fails, an entry is never dropped and a
`WakeState` is never dormant again once it was waking. So the first wake of a job is its
only one, and what its task has asked Nomad and Consul so far is read off its position.
-/
namespace NScale.WakeCoordinator
open Transition

/-- Only `ensure_running` is called, every `scale_up` and `wait_for_healthy` succeeds, and no
wake is abandoned while it waits. -/
def NoFailure : Condition State Event := fun _ s e =>
  match e with
  | .begin (.ensureRunning _) => True
  | .begin _ => False
  | .scaled _ _ _ answer => answer = .ok ()
  | .healthy _ _ _ _ answer => answer.isOk = true
  | .pollReceivers _ _ w sawNone => ¬((s.cells w).receivers = 0 ∧ sawNone = true)
  | _ => True

/-- A wake task of the job calls `scale_up`. -/
def Event.scalesUp (job : JobId) : Event → Bool
  | .acquire _ reg _ => reg.jobId = job
  | _ => false

/-- The endpoint that a wake task of the job discovers. -/
def Event.discovers (job : JobId) : Event → Option Endpoint
  | .healthy _ reg _ _ (.ok ep) => if reg.jobId = job then some ep else none
  | _ => none

/-- The scale-ups called for the job and the endpoints that its wakes discovered. -/
def tally (h : List Event) (job : JobId) : ℕ × List Endpoint :=
  (h.countP (Event.scalesUp job), h.filterMap (Event.discovers job))

/-- The caller waits for the answer of `get_healthy_endpoint`. -/
def Call.queries : Call → Bool
  | .fetch _ | .query _ _ => true
  | _ => false

structure OneScaleUp (h : List Event) (s : State) : Prop where
  scaleUps : ∀ job, (tally h job).1 ≤ 1
  queries : ∀ i c, s.calls i = some c → c.queries = false
  endpoint : ∀ i reg ep, s.calls i = some (.ensured reg (.ok ep)) →
    (tally h reg.jobId).2 = [ep]

lemma tally_same {h : List Event} {e : Event} {job : JobId} (scale : e.scalesUp job = false)
    (discover : e.discovers job = none) : tally (e :: h) job = tally h job := by
  simp [tally, scale, discover]

/-- What the task of a successful wake has asked for, read off its position. -/
def Task.tally? : Task → Option (ℕ × List Endpoint)
  | .acquire _ _ => some (0, [])
  | .scaleUp _ _ | .health _ _ _ => some (1, [])
  | .publish _ _ ep | .storeReady _ _ ep | .sendReady _ _ ep => some (1, [ep])
  | _ => none

/-- The same for the wake of a caller, which has no task yet, and for that of a task. -/
def State.tally? (s : State) : ℕ ⊕ ℕ → Option (ℕ × List Endpoint)
  | .inl i => (s.wake (.inl i)).map fun _ => (0, [])
  | .inr t => (s.tasks t).bind Task.tally?

structure FirstCycle (h : List Event) (s : State) : Prop where
  mapped : ∀ {job w}, s.Holds job w → s.jobs job = some w
  awake : ∀ {a p}, s.wake a = some p → (s.cells p.cell).status ≠ .dormant
  progress : ∀ {a p}, s.wake a = some p → s.tally? a = some (tally h p.job)
  asleep : ∀ {job}, (∀ w, s.jobs job = some w → (s.cells w).status = .dormant) →
    tally h job = (0, [])
  single : ∀ job, (tally h job).1 ≤ 1

lemma firstCycle_initial (n timeout : ℕ) : FirstCycle [] (initial n timeout) where
  mapped held := by simp [State.Holds, initial] at held
  awake {a p} hp := by cases a <;> simp [State.wake, initial] at hp
  progress {a p} hp := by cases a <;> simp [State.wake, initial] at hp
  asleep _ := rfl
  single _ := by simp [tally]

namespace FirstCycle
variable {s s' : State} {h : List Event} {e : Event} {i t w : ℕ} {c c' : Call} {k k' : Task}
  {job : JobId}

/-- The wake of a job keeps the entry of the job from being dormant. -/
lemma not_asleep (ok : FirstCycle h s) (wf : WellFormed s) {a : ℕ ⊕ ℕ} {p : Wake}
    (hp : s.wake a = some p) :
    ¬ ∀ w, s.jobs p.job = some w → (s.cells w).status = .dormant :=
  fun asleep => ok.awake hp (asleep p.cell (ok.mapped (wf.wake_holds hp)))

/-- A dormant `WakeState` has no wake, nor has its job. -/
lemma no_wake (ok : FirstCycle h s) (wf : WellFormed s) (held : s.Holds job w)
    (dormant : (s.cells w).status = .dormant) (a : ℕ ⊕ ℕ) (p : Wake) (hp : s.wake a = some p) :
    p.job ≠ job := by
  rintro rfl
  refine ok.not_asleep wf hp fun v hv => ?_
  obtain rfl : w = v := Option.some.inj ((ok.mapped held).symm.trans hv)
  exact dormant

/-- A step that asks nobody and touches no wake. -/
lemma of_wake (ok : FirstCycle h s) (holds : ∀ {job w}, s'.Holds job w → s.Holds job w)
    (jobs : s'.jobs = s.jobs)
    (status : ∀ v, (s'.cells v).status = .dormant → (s.cells v).status = .dormant)
    (wake : s'.wake = s.wake) (reads : s'.tally? = s.tally?) : FirstCycle h s' where
  mapped held := jobs ▸ ok.mapped (holds held)
  awake hp hd := ok.awake (wake ▸ hp) (status _ hd)
  progress hp := reads ▸ ok.progress (wake ▸ hp)
  asleep all := ok.asleep fun w hw => status w (all w (jobs ▸ hw))
  single := ok.single

lemma mono (ok : FirstCycle h s) (same : ∀ job, tally (e :: h) job = tally h job) :
    FirstCycle (e :: h) s where
  mapped := ok.mapped
  awake := ok.awake
  progress hp := same _ ▸ ok.progress hp
  asleep all := same _ ▸ ok.asleep all
  single job := same job ▸ ok.single job

lemma setCall (ok : FirstCycle h s) (at_ : s.calls i = some c) (same : c'.wake? = c.wake?) :
    FirstCycle h (s.setCall i c') := by
  have wake := wake_setCall at_ same
  refine ok.of_wake id rfl (fun _ hd => hd) wake (funext fun a => ?_)
  cases a with
  | inl j => simp [State.tally?, wake]
  | inr u => rfl

lemma setPermits (ok : FirstCycle h s) {n : ℕ} : FirstCycle h (s.setPermits n) :=
  ok.of_wake id rfl (fun _ hd => hd) rfl rfl

lemma setEndpoint (ok : FirstCycle h s) {ep : Option Endpoint} :
    FirstCycle h (s.setEndpoint job ep) := ok.of_wake id rfl (fun _ hd => hd) rfl rfl

lemma setCell (ok : FirstCycle h s) {cell : WakeState} (key : cell.key = (s.cells w).key)
    (calm : cell.status = .dormant → (s.cells w).status = .dormant) :
    FirstCycle h { s with cells := Function.update s.cells w cell } := by
  refine ok.of_wake (fun {j v} held => ?_) rfl (fun v hd => ?_) rfl rfl
  · by_cases hv : v = w
    · subst hv
      exact ⟨held.1, by simpa [key] using held.2⟩
    · exact ⟨held.1, by simpa [hv] using held.2⟩
  · by_cases hv : v = w
    · subst hv
      exact calm (by simpa using hd)
    · simpa [hv] using hd

lemma setReceivers (ok : FirstCycle h s) {n : ℕ} : FirstCycle h (s.setReceivers w n) :=
  ok.setCell rfl id

lemma setStatus (ok : FirstCycle h s) {status : Status} (calm : status ≠ .dormant) :
    FirstCycle h (s.setStatus w status) := ok.setCell rfl fun hd => absurd hd calm

lemma broadcast (ok : FirstCycle h s) {msg : WakeResult} : FirstCycle h (s.broadcast w msg) := by
  refine ok.of_wake id rfl (fun _ hd => hd) wake_broadcast (funext fun a => ?_)
  cases a with
  | inl j => simp [State.tally?, wake_broadcast]
  | inr u => rfl

/-- A job without an entry has not been woken. -/
lemma orInsert (ok : FirstCycle h s) (wf : WellFormed s) : FirstCycle h (s.orInsert job).1 := by
  unfold State.orInsert
  split
  · exact ok
  next empty =>
    have fresh : tally h job = (0, []) := ok.asleep (by simp [empty])
    refine ⟨?_, ?_, ok.progress, ?_, ok.single⟩
    · intro j v held
      by_cases hv : v = s.nextCell
      · subst hv
        obtain rfl : job = j := by simpa using held.2
        simp
      · have old : s.Holds j v :=
          ⟨lt_of_le_of_ne (Nat.lt_succ_iff.mp held.1) hv, by simpa [hv] using held.2⟩
        have hj : j ≠ job := by
          rintro rfl
          exact absurd (ok.mapped old) (by simp [empty])
        simpa [hj] using ok.mapped old
    · intro a p hp
      have old : p.cell ≠ s.nextCell := (wf.wake_holds hp).1.ne
      simpa [old] using ok.awake hp
    · intro j all
      by_cases hj : j = job
      · exact hj ▸ fresh
      · refine ok.asleep fun v hv => ?_
        have old : v ≠ s.nextCell := (wf.jobs hv).1.ne
        simpa [old] using all v (by simpa [hj] using hv)

/-- The first caller to win the race finds a job for which nothing was asked. -/
lemma start (ok : FirstCycle h s) (wf : WellFormed s) {reg : JobRegistration}
    (at_ : s.calls i = some (.tryStart reg w)) (dormant : (s.cells w).status = .dormant) :
    FirstCycle h ((s.setStatus w .waking).setCall i (.ownSubscribe reg w)) := by
  have held := wf.callCell at_ rfl
  have asleep : tally h reg.jobId = (0, []) := by
    refine ok.asleep fun v hv => ?_
    obtain rfl : w = v := Option.some.inj ((ok.mapped held).symm.trans hv)
    exact dormant
  have woken : FirstCycle h (s.setStatus w .waking) := ok.setStatus (by simp)
  have was : ∀ {a p}, ((s.setStatus w .waking).setCall i (.ownSubscribe reg w)).wake a = some p →
      (a = .inl i ∧ p = ⟨reg.jobId, w, true⟩) ∨ (a ≠ .inl i ∧ s.wake a = some p) := by
    intro a p hp
    cases a with
    | inl j =>
      by_cases hj : j = i
      · subst hj
        exact .inl ⟨rfl, by simpa [State.wake, Call.wake?] using hp.symm⟩
      · exact .inr ⟨by simpa using hj, by simpa [State.wake, hj] using hp⟩
    | inr t => exact .inr ⟨by simp, hp⟩
  refine ⟨woken.mapped, ?_, ?_, woken.asleep, ok.single⟩
  · intro a p hp
    rcases was hp with ⟨-, rfl⟩ | ⟨-, old⟩
    · simp
    · exact woken.awake old
  · intro a p hp
    rcases was hp with ⟨rfl, rfl⟩ | ⟨other, old⟩
    · simp [State.tally?, hp, asleep]
    · have same := woken.progress old
      cases a with
      | inl j => simpa [State.tally?, hp, show (s.setStatus w .waking).wake (.inl j) = some p from old]
          using same
      | inr t => exact same

/-- The task starts where its caller stood: nothing was asked yet. -/
lemma spawn (ok : FirstCycle h s) {reg : JobRegistration} {inbox : Option WakeResult}
    (at_ : s.calls i = some (.spawn reg w inbox)) :
    FirstCycle h (Event.next s (.spawn i reg w inbox)) := by
  have mine : s.wake (.inl i) = some ⟨reg.jobId, w, true⟩ := by simp [State.wake, at_, Call.wake?]
  have was : ∀ {a p}, (Event.next s (.spawn i reg w inbox)).wake a = some p →
      (a = .inr s.nextTask ∧ p = ⟨reg.jobId, w, true⟩) ∨
        (a ≠ .inr s.nextTask ∧ s.wake a = some p) := by
    intro a p hp
    cases a with
    | inl j =>
      have other : j ≠ i := by
        rintro rfl
        simp [State.wake, Event.next, Call.wake?] at hp
      exact .inr ⟨by simp, by simpa [State.wake, Event.next, other] using hp⟩
    | inr t =>
      by_cases ht : t = s.nextTask
      · subst ht
        exact .inl ⟨rfl, by simpa [State.wake, Event.next, Task.wake?] using hp.symm⟩
      · exact .inr ⟨by simpa using ht, by simpa [State.wake, Event.next, ht] using hp⟩
  refine ⟨ok.mapped, ?_, ?_, ok.asleep, ok.single⟩
  · intro a p hp
    rcases was hp with ⟨-, rfl⟩ | ⟨-, old⟩
    · exact ok.awake mine
    · exact ok.awake old
  · intro a p hp
    rcases was hp with ⟨rfl, rfl⟩ | ⟨other, old⟩
    · have nothing := ok.progress mine
      simpa [State.tally?, mine, Event.next, Task.tally?] using nothing
    · have same := ok.progress old
      cases a with
      | inl j => simpa [State.tally?, hp, old] using same
      | inr t =>
        have ht : t ≠ s.nextTask := by simpa using other
        simpa [State.tally?, Event.next, ht] using same

/-- The task of the only wake of its job moves on and keeps the tally of the job. -/
lemma setTask (ok : FirstCycle h s) (one : OneWake s) (wf : WellFormed s) {p : Wake}
    (at_ : s.tasks t = some k) (mine : k.wake? = some p)
    (less : ∀ q, k'.wake? = some q → q.job = p.job ∧ q.cell = p.cell ∧
      k'.tally? = some (tally (e :: h) p.job))
    (small : (tally (e :: h) p.job).1 ≤ 1)
    (others : ∀ j, j ≠ p.job → tally (e :: h) j = tally h j) :
    FirstCycle (e :: h) (s.setTask t k') := by
  have hp : s.wake (.inr t) = some p := by simp [State.wake, at_, mine]
  have was : ∀ {a q}, (s.setTask t k').wake a = some q →
      (a = .inr t ∧ k'.wake? = some q) ∨ (a ≠ .inr t ∧ s.wake a = some q) := by
    intro a q hq
    cases a with
    | inl j => exact .inr ⟨by simp, hq⟩
    | inr u =>
      by_cases hu : u = t
      · subst hu
        exact .inl ⟨rfl, by simpa [State.wake] using hq⟩
      · exact .inr ⟨by simpa using hu, by simpa [State.wake, hu] using hq⟩
  refine ⟨ok.mapped, ?_, ?_, ?_, ?_⟩
  · intro a q hq
    rcases was hq with ⟨-, new⟩ | ⟨-, old⟩
    · exact (less q new).2.1 ▸ ok.awake hp
    · exact ok.awake old
  · intro a q hq
    rcases was hq with ⟨rfl, new⟩ | ⟨other, old⟩
    · obtain ⟨hj, -, tallied⟩ := less q new
      simpa [State.tally?, hj] using tallied
    · have apart : q.job ≠ p.job := fun hj => other (one.single old hp hj)
      have same := ok.progress old
      rw [others q.job apart]
      cases a with
      | inl j => exact same
      | inr u =>
        have hu : u ≠ t := by simpa using other
        simpa [State.tally?, hu] using same
  · intro j all
    have apart : j ≠ p.job := by
      rintro rfl
      exact ok.not_asleep wf hp all
    exact (others j apart).trans (ok.asleep all)
  · intro j
    by_cases hj : j = p.job
    · exact hj ▸ small
    · exact others j hj ▸ ok.single j

/-- What a task has asked for, while it is on its way to success. -/
lemma task_tally (ok : FirstCycle h s) {p : Wake} (at_ : s.tasks t = some k)
    (mine : k.wake? = some p) : k.tally? = some (tally h p.job) := by
  have hp : s.wake (.inr t) = some p := by simp [State.wake, at_, mine]
  simpa [State.tally?, at_] using ok.progress hp

/-- The task asks nobody: it moves on with the same tally, or ends. -/
lemma setTask_same (ok : FirstCycle h s) (one : OneWake s) (wf : WellFormed s) {p : Wake}
    (at_ : s.tasks t = some k) (mine : k.wake? = some p)
    (same : ∀ job, tally (e :: h) job = tally h job)
    (less : ∀ q, k'.wake? = some q → q.job = p.job ∧ q.cell = p.cell ∧ k'.tally? = k.tally?) :
    FirstCycle (e :: h) (s.setTask t k') := by
  refine ok.setTask one wf at_ mine (fun q hq => ?_) (same _ ▸ ok.single _) fun j _ => same j
  obtain ⟨hj, hc, tallied⟩ := less q hq
  exact ⟨hj, hc, by rw [tallied, ok.task_tally at_ mine, same]⟩

end FirstCycle

/-- Positions of `ensure_running`, but not those that ask for a healthy endpoint. -/
def Call.ensures : Call → Bool
  | .fastPath _ | .entry _ | .load _ _ | .cached _ | .subscribe _ _ | .tryStart _ _ => true
  | .ownSubscribe _ _ | .spawn _ _ _ | .recv _ _ _ | .ensured _ _ | .dropped => true
  | _ => false

/-- Every caller is in `ensure_running`, and one that read READY will find its endpoint. -/
structure Settled (s : State) : Prop where
  calls : ∀ {i c}, s.calls i = some c → c.ensures = true
  cached : ∀ {i reg}, s.calls i = some (.cached reg) → s.endpoints reg.jobId ≠ none

lemma settled_initial (n timeout : ℕ) : Settled (initial n timeout) := by
  constructor <;> intros <;> simp_all [initial]

namespace Settled
variable {s s' : State} {h : List Event} {e : Event} {i w : ℕ} {c' : Call}

lemma mono (ok : Settled s) (calls : s'.calls = s.calls)
    (endpoints : ∀ {job}, s.endpoints job ≠ none → s'.endpoints job ≠ none) : Settled s' where
  calls hc := ok.calls (calls ▸ hc)
  cached hc := endpoints (ok.cached (calls ▸ hc))

lemma setCall (ok : Settled s) (goes : c'.ensures = true)
    (finds : ∀ reg, c' = .cached reg → s.endpoints reg.jobId ≠ none) :
    Settled (s.setCall i c') where
  calls := by
    intro j d hd
    by_cases hj : j = i
    · subst hj
      obtain rfl : c' = d := by simpa using hd
      exact goes
    · exact ok.calls (by simpa [hj] using hd)
  cached := by
    intro j reg hd
    by_cases hj : j = i
    · subst hj
      exact finds reg (by simpa using hd)
    · exact ok.cached (by simpa [hj] using hd)

lemma setEndpoint (ok : Settled s) {job : JobId} {ep : Endpoint} :
    Settled (s.setEndpoint job (some ep)) := by
  refine ok.mono rfl fun {j} cached => ?_
  by_cases hj : j = job
  · simp [hj]
  · simpa [hj] using cached

lemma broadcast (ok : Settled s) {msg : WakeResult} : Settled (s.broadcast w msg) where
  calls := by
    intro i c hc
    obtain ⟨d, hd, rfl⟩ := Option.map_eq_some_iff.mp hc
    have before := ok.calls hd
    cases d with
    | spawn reg v inbox => cases inbox <;> exact before
    | recv reg v inbox => cases inbox <;> exact before
    | _ => exact before
  cached := by
    intro i reg hc
    obtain ⟨d, hd, delivered⟩ := Option.map_eq_some_iff.mp hc
    obtain rfl : d = .cached reg := by
      cases d with
      | spawn reg v inbox => cases inbox <;> simp [Call.deliver] at delivered
      | recv reg v inbox => cases inbox <;> simp [Call.deliver] at delivered
      | _ => exact delivered
    exact ok.cached hd

/-- Nobody evicts an endpoint, so a backed job has it in the cache. -/
lemma cached_of_backed (ok : Settled s) {job : JobId} (backed : s.Backed job) :
    s.endpoints job ≠ none := by
  rcases backed with cached | ⟨i, c, hc, he⟩
  · exact cached
  · have here := ok.calls hc
    cases c <;> simp [Call.evicting?, Call.ensures] at he here

end Settled

section Step
variable {s : State} {h : List Event} {e : Event}

/-- The step neither comes from a caller outside of `ensure_running` nor from a failed wake. -/
def Event.succeeds : Event → Bool
  | .begin (.ensureRunning _) | .fastPath .. | .entry .. | .load .. | .cached .. => true
  | .subscribe .. | .tryStart .. | .ownSubscribe .. | .spawn .. | .recv .. | .timeout .. => true
  | .dropRecv .. | .acquire .. | .scaled _ _ _ (.ok ()) | .healthy _ _ _ _ (.ok _) => true
  | .pollReceivers .. | .publish .. | .storeReady .. | .sendReady .. => true
  | _ => false

lemma succeeds_of_enabled (ok : FirstCycle h s) (calm : Settled s) (en : e.enabled s = true)
    (cond : NoFailure h s e) : e.succeeds = true := by
  cases e with
  | begin op => cases op <;> first | rfl | exact cond.elim
  | fetched i reg | store i reg | dropFetch i reg | dropQuery i reg | evict i reg | reset i reg
  | remove i reg | queried i reg | refreshStore i reg | refreshReady i reg =>
    have outside := calm.calls (of_decide_eq_true en)
    simp [Call.ensures] at outside
  | storeDormant t reg w | sendFailure t reg w | removeEntry t reg w =>
    have failed := ok.task_tally (of_decide_eq_true en) rfl
    simp [Task.tally?] at failed
  | scaled t reg w answer =>
    obtain rfl : answer = .ok () := cond
    rfl
  | healthy t reg w saw answer =>
    cases answer with
    | ok ep => rfl
    | error err => simp [NoFailure, Except.toBool] at cond
  | _ => rfl

/-- A step of such a run resets no wake, and starts none while another is in progress. -/
lemma respectsWakes_of_succeeds (ok : FirstCycle h s) (wf : WellFormed s)
    (en : e.enabled s = true) (goes : e.succeeds = true) : RespectsWakes h s e := by
  cases e with
  | reset | remove => simp [Event.succeeds] at goes
  | tryStart i reg w =>
    intro dormant
    have held := wf.callCell (of_decide_eq_true en) rfl
    exact ⟨ok.mapped held, fun t p hp hj => absurd hj (ok.no_wake wf held dormant _ p hp)⟩
  | _ => trivial

/-- The same step keeps the tally of the only wake of each job. -/
theorem FirstCycle.next (ok : FirstCycle h s) (one : OneWake s) (wf : WellFormed s)
    (en : e.enabled s = true) (goes : e.succeeds = true) (cond : NoFailure h s e) :
    FirstCycle (e :: h) (e.next s) := by
  cases e with
  | begin op =>
    refine FirstCycle.of_wake (ok.mono fun _ => rfl) id rfl (fun _ hd => hd) ?_ ?_
    all_goals
      funext a
      have fresh : s.calls s.nextCall = none :=
        Option.eq_none_iff_forall_not_mem.mpr fun c hc => (wf.calls hc).false
      cases a with
      | inl j =>
        by_cases hj : j = s.nextCall
        · cases op <;>
            simp [State.wake, State.tally?, Event.next, hj, fresh, Operation.call, Call.wake?]
        · simp [State.wake, State.tally?, Event.next, hj]
      | inr t => rfl
  | entry i reg =>
    have at_ : (s.orInsert reg.jobId).1.calls i = some (.entry reg) := by
      simpa using of_decide_eq_true en
    have inserted : FirstCycle (.entry i reg :: h) (s.orInsert reg.jobId).1 :=
      (ok.mono fun _ => rfl).orInsert wf
    exact inserted.setCall at_ rfl
  | fastPath i reg | cached i reg | load i reg =>
    simp only [Event.next]
    split <;> exact (ok.mono fun _ => rfl).setCall (of_decide_eq_true en) rfl
  | tryStart i reg w =>
    have same := ok.mono (e := .tryStart i reg w) fun _ => rfl
    simp only [Event.next]
    split
    next dormant => exact same.start wf (of_decide_eq_true en) dormant
    next => exact same.setCall (of_decide_eq_true en) rfl
  | spawn i reg w inbox => exact (ok.mono fun _ => rfl).spawn (of_decide_eq_true en)
  | subscribe i reg w | ownSubscribe i reg w | recv i reg w | timeout i reg w | dropRecv i reg w =>
    exact (ok.mono fun _ => rfl).setReceivers.setCall (of_decide_eq_true en) rfl
  | acquire t reg w =>
    have at_ := (of_decide_eq_true en).1
    have none_ : tally h reg.jobId = (0, []) := Option.some.inj (ok.task_tally at_ rfl).symm
    have now : tally (.acquire t reg w :: h) reg.jobId = (1, []) := by
      simp_all [tally, Event.scalesUp, Event.discovers]
    refine ok.setPermits.setTask one.setPermits wf.setPermits at_ rfl (fun q hq => ?_) ?_
      fun j hj => tally_same (by simpa [Event.scalesUp] using Ne.symm hj) rfl
    · obtain rfl := Option.some.inj hq
      exact ⟨rfl, rfl, congrArg some now.symm⟩
    · exact (congrArg Prod.fst now).le
  | scaled t reg w answer =>
    rcases answer with _ | ⟨⟩
    · simp [Event.succeeds] at goes
    · refine ok.setPermits.setTask_same one.setPermits wf.setPermits (of_decide_eq_true en) rfl
        (fun _ => rfl) fun q hq => ?_
      obtain rfl := Option.some.inj hq
      exact ⟨rfl, rfl, rfl⟩
  | healthy t reg w saw answer =>
    rcases answer with _ | ep
    · simp [Event.succeeds] at goes
    · have at_ := of_decide_eq_true en
      have before : tally h reg.jobId = (1, []) := Option.some.inj (ok.task_tally at_ rfl).symm
      have now : tally (.healthy t reg w saw (.ok ep) :: h) reg.jobId = (1, [ep]) := by
        simp_all [tally, Event.scalesUp, Event.discovers]
      refine ok.setTask one wf at_ rfl (fun q hq => ?_) ?_
        fun j hj => tally_same rfl (by simp [Event.discovers, Ne.symm hj])
      · obtain rfl := Option.some.inj hq
        exact ⟨rfl, rfl, congrArg some now.symm⟩
      · exact (congrArg Prod.fst now).le
  | pollReceivers t reg w saw =>
    have at_ := of_decide_eq_true en
    simp only [Event.next]
    split_ifs with gone again
    · exact absurd ⟨gone, again⟩ cond
    all_goals
      refine ok.setTask_same one wf at_ rfl (fun _ => rfl) fun q hq => ?_
      obtain rfl := Option.some.inj hq
      exact ⟨rfl, rfl, rfl⟩
  | publish t reg w ep =>
    refine ok.setEndpoint.setTask_same one.setEndpoint wf.setEndpoint (of_decide_eq_true en) rfl
      (fun _ => rfl) fun q hq => ?_
    obtain rfl := Option.some.inj hq
    exact ⟨rfl, rfl, rfl⟩
  | storeReady t reg w ep =>
    refine (ok.setStatus (by simp)).setTask_same (one.setStatus (by simp)) wf.setStatus
      (of_decide_eq_true en) rfl (fun _ => rfl) fun q hq => ?_
    obtain rfl := Option.some.inj hq
    exact ⟨rfl, rfl, rfl⟩
  | sendReady t reg w ep =>
    exact ok.broadcast.setTask_same one.broadcast wf.broadcast (of_decide_eq_true en) rfl
      (fun _ => rfl) (by simp [Task.wake?])
  | _ => simp [Event.succeeds] at goes

/-- Callers stay in `ensure_running` and do not have to ask for a healthy endpoint. -/
theorem Settled.next (calm : Settled s) (ok : FirstCycle h s) (backed : ReadyBacked s)
    (wf : WellFormed s) (en : e.enabled s = true) (goes : e.succeeds = true) :
    Settled (e.next s) := by
  cases e with
  | begin op =>
    cases op with
    | ensureRunning reg =>
      have began : Settled (s.setCall s.nextCall (.fastPath reg)) := calm.setCall rfl (by simp)
      exact began.mono rfl id
    | _ => simp [Event.succeeds] at goes
  | entry i reg =>
    have inserted : Settled (s.orInsert reg.jobId).1 := calm.mono (by simp) (by simp)
    exact inserted.setCall rfl (by simp)
  | fastPath i reg =>
    simp only [Event.next]
    split <;> exact calm.setCall rfl (by simp)
  | load i reg w =>
    have held := wf.callCell (of_decide_eq_true en) rfl
    simp only [Event.next]
    split
    next ready =>
      refine calm.setCall rfl fun reg' same => ?_
      obtain rfl := Call.cached.inj same
      exact calm.cached_of_backed (backed.mapped (ok.mapped held) ready)
    next => exact calm.setCall rfl (by simp)
    next => exact calm.setCall rfl (by simp)
  | cached i reg =>
    have found := calm.cached (of_decide_eq_true en)
    simp only [Event.next]
    split
    next => exact calm.setCall rfl (by simp)
    next missing => exact absurd missing found
  | tryStart i reg w =>
    have stored : Settled (s.setStatus w .waking) := calm.mono rfl id
    simp only [Event.next]
    split
    · exact stored.setCall rfl (by simp)
    · exact calm.setCall rfl (by simp)
  | spawn i reg w inbox =>
    have waits : Settled (s.setCall i (.recv reg w inbox)) := calm.setCall rfl (by simp)
    exact waits.mono rfl id
  | subscribe i reg w | ownSubscribe i reg w =>
    have subscribed : Settled (s.joined w) := calm.mono rfl id
    exact subscribed.setCall rfl (by simp)
  | recv i reg w | timeout i reg w | dropRecv i reg w =>
    have gone : Settled (s.left w) := calm.mono rfl id
    exact gone.setCall rfl (by simp)
  | scaled t reg w answer =>
    simp only [Event.next]
    split <;> exact calm.mono rfl id
  | healthy t reg w saw answer =>
    simp only [Event.next]
    split <;> exact calm.mono rfl id
  | pollReceivers t reg w saw =>
    simp only [Event.next]
    split_ifs <;> exact calm.mono rfl id
  | acquire | storeReady => exact calm.mono rfl id
  | publish t reg w ep => exact calm.setEndpoint.mono rfl id
  | sendReady t reg w ep => exact calm.broadcast.mono rfl id
  | _ => simp [Event.succeeds] at goes

/-- Where an endpoint of the job is, the wake of the job has discovered exactly it. -/
lemma carried_next (all : Carried (fun job ep => (tally h job).2 = [ep]) s)
    (ok : FirstCycle h s) (wf : WellFormed s) (en : e.enabled s = true)
    (goes : e.succeeds = true) : Carried (fun job ep => (tally (e :: h) job).2 = [ep]) (e.next s) := by
  have keeps : ∀ job ep, (tally h job).2 = [ep] → (tally (e :: h) job).2 = [ep] := by
    intro job ep found
    cases e with
    | healthy t reg w saw answer =>
      have before := ok.task_tally (of_decide_eq_true en) rfl
      have none_ : (tally h reg.jobId).2 = [] :=
        congrArg Prod.snd (Option.some.inj before).symm
      have apart : reg.jobId ≠ job := by
        rintro rfl
        simp [none_] at found
      have same : tally (.healthy t reg w saw answer :: h) job = tally h job :=
        tally_same rfl (by cases answer <;> simp [Event.discovers, apart])
      rw [same]
      exact found
    | _ => exact found
  refine (all.mono keeps).next wf en fun reg ep answers => ?_
  cases e with
  | healthy t reg' w saw answer =>
    rcases answer with _ | ep'
    · simp [Event.answer?] at answers
    · obtain ⟨rfl, rfl⟩ : reg' = reg ∧ ep' = ep := by simpa [Event.answer?] using answers
      have before := ok.task_tally (of_decide_eq_true en) rfl
      have none_ : (tally h reg'.jobId).2 = [] :=
        congrArg Prod.snd (Option.some.inj before).symm
      simpa [tally, Event.discovers] using none_
  | fetched | queried => simp [Event.succeeds] at goes
  | _ => simp [Event.answer?] at answers

end Step

variable {n timeout : ℕ} {h : List Event} {s : State}

/-- In a run of `ensure_running` callers whose wakes succeed, each job is scaled up at most
once, nobody asks for a healthy endpoint, and every endpoint returned is the one discovered. -/
theorem oneScaleUp_of_run (n timeout : ℕ) (h : List Event) (s : State)
    (run : RunWhere (system n timeout) NoFailure h s) : OneScaleUp h s := by
  obtain ⟨ok, calm, all⟩ : FirstCycle h s ∧ Settled s ∧
      Carried (fun job ep => (tally h job).2 = [ep]) s := by
    have invariant : FirstCycle h s ∧ Settled s ∧ OneWake s ∧ ReadyBacked s ∧ WellFormed s ∧
        Carried (fun job ep => (tally h job).2 = [ep]) s := by
      apply run.invariant fun h s => FirstCycle h s ∧ Settled s ∧ OneWake s ∧ ReadyBacked s ∧
        WellFormed s ∧ Carried (fun job ep => (tally h job).2 = [ep]) s
      · exact ⟨firstCycle_initial n timeout, settled_initial n timeout, oneWake_initial n timeout,
          readyBacked_initial n timeout, wellFormed_initial n timeout, .initial n timeout⟩
      · rintro h s t e - ⟨ok, calm, one, backed, wf, all⟩ taken cond
        obtain ⟨en, rfl⟩ := step_iff.mp taken
        have goes := succeeds_of_enabled ok calm en cond
        have unrefreshed : RefreshesBacked h s e := by
          cases e with
          | refreshReady => simp [Event.succeeds] at goes
          | _ => trivial
        exact ⟨ok.next one wf en goes cond, calm.next ok backed wf en goes,
          one.next wf en (respectsWakes_of_succeeds ok wf en goes), backed.next wf en unrefreshed,
          wf.next en, carried_next all ok wf en goes⟩
    exact ⟨invariant.1, invariant.2.1, invariant.2.2.2.2.2⟩
  refine ⟨ok.single, fun i c hc => ?_, fun i reg ep hi => all.calls hi rfl⟩
  have here := calm.calls hc
  cases c <;> simp [Call.ensures, Call.queries] at here ⊢

instance (h : List Event) (s : State) (e : Event) : Decidable (NoFailure h s e) := by
  unfold NoFailure
  induction e using Event.casesOn with
  | begin op => induction op using Operation.casesOn <;> infer_instance
  | _ => infer_instance

theorem sharedDone_oneScaleUp : ∃ h s, RunWhere (system 50 60) NoFailure h s ∧
    s.calls 1 = some (.ensured echoReg (.ok echoReady)) ∧ OneScaleUp h s := by
  obtain ⟨h, s, run, ensured⟩ := exists_run (T := system 50 60) (C := NoFailure)
    (fun _ s => s.calls 1 = some (.ensured echoReg (.ok echoReady))) sharedDone (by decide)
  exact ⟨h, s, run, ensured, oneScaleUp_of_run 50 60 h s run⟩

end NScale.WakeCoordinator
