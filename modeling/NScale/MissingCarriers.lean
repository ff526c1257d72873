import NScale.Coordinators
import NScale.MissingAnswers
import NScale.MissingMonitor

/-!
# Who carries a not-found response

Between the answer of Nomad and the counter a not-found response is carried by a wake task, by
the caller it was given to, or by the thread that is about to count it. A step takes responses
away, gives one to somebody new, or hands one on.
-/
namespace NScale.Deployment
open Service Transition
open WakeCoordinator (Carrier Carries)

variable {cfg : Config} {C : Condition State Event} {h : List Event} {s t : State} {e : Event}
  {i k r : ℕ} {job : JobId} {th : Thread}

/-- The job that Nomad answers not to know: one response of a scale or allocation request. -/
def Event.notFound? : Event → Option JobId
  | .op _ (.scaleDown job _) (.error (.jobNotFound _)) => some job
  | .coord _ e => e.notFound?
  | _ => none

/-- The job whose counter is cleared. -/
def Event.clears? : Event → Option JobId
  | .op _ (.clearNotFound job) (.ok _) => some job
  | _ => none

/-! ## Who carries a response -/

/-- What thread `i` has been told. -/
def missingView (cfg : Config) (i : ℕ) (h : List Event) : MissingView :=
  observed (missingMonitor cfg.autoDeregisterThreshold) .start i h

/-- The thread has not ended. -/
def Thread.active (th : Thread) : Bool :=
  match th.code with
  | .perform _ _ => true
  | .pure _ => false

/-- The job that a thread at this stage carries a response for: one it has been told, or one
that the call it waits for has received. -/
def told? (s : State) (r : ℕ) : Stage → Option JobId
  | .told job => some job
  | .awaits c => (s.coordinator r).missing? (.call c)
  | _ => none

inductive Holder
  | task (r t : ℕ)
  | thread (i : ℕ)
  deriving DecidableEq

/-- The job that a wake task or a thread carries a response for. -/
def carried? (cfg : Config) (h : List Event) (s : State) : Holder → Option JobId
  | .task r t => (s.coordinator r).missing? (.task t)
  | .thread i =>
    match s.threads i with
    | some th => if th.active then told? s th.replica (missingView cfg i h).stage else none
    | none => none

/-- The thread deregisters the job. -/
def Removing (cfg : Config) (h : List Event) (s : State) (i : ℕ) (job : JobId) : Prop :=
  ∃ th, s.threads i = some th ∧ th.active = true ∧ (missingView cfg i h).stage = .removing job

/-- A not-found response is counted at most once, for its job, before the counter is cleared:
the broadcast of a failed wake reaches at most one waiter, a sweep works under the id of the
job that it scales down, and a counter is cleared when no response for the job is on its way
and nobody else deregisters the job. -/
def CountedOnce (cfg : Config) : Condition State Event := fun h s e =>
  match e with
  | .coord r (.sendFailure _ _ w (.jobNotFound _)) => ((s.coordinator r).waiting w).Subsingleton
  | .op i (.scaleDown job _) (.error (.jobNotFound _)) => (missingView cfg i h).key = some job
  | .op i (.clearNotFound job) (.ok _) =>
    (∀ x, carried? cfg h s x ≠ some job) ∧ ∀ k, k ≠ i → ¬ Removing cfg h s k job
  | _ => True

/-! ## What a step does to the stage of a thread -/

/-- How an operation brings its thread to a stage. -/
inductive Enters (threshold : ℕ) (v : MissingView) : (op : Op) → op.Answer → Stage → Prop
  | same {op : Op} {a : op.Answer} : Enters threshold v op a v.stage
  | ended {op : Op} {a : op.Answer} : Enters threshold v op a .nothing
  | ensure {reg : JobRegistration} {c : ℕ} : Enters threshold v (.call (.ensureRunning reg)) c (.awaits c)
  | refresh {reg : JobRegistration} {current : Endpoint} {c : ℕ} :
      Enters threshold v (.call (.refreshEndpoint reg current)) c (.awaits c)
  | ensured {reg : JobRegistration} {c : ℕ} {id : String} :
      Enters threshold v (.ensured reg c) (.error (.jobNotFound id)) (.told reg.jobId)
  | refreshed {reg : JobRegistration} {c : ℕ} {id : String} :
      Enters threshold v (.refreshed reg c) (.error (.jobNotFound id)) (.told reg.jobId)
  | scaled {job : JobId} {group id : String} :
      Enters threshold v (.scaleDown job group) (.error (.jobNotFound id)) (.told job)
  | counted {job : JobId} {count : ℕ} (reached : threshold ≤ count) :
      Enters threshold v (.incrementNotFound job) (.ok count) (.removing job)

lemma enters_next (threshold : ℕ) (v : MissingView) (op : Op) (a : op.Answer) :
    Enters threshold v op a ((missingMonitor threshold).next v op a).stage := by
  have over_ : ∀ (op : Op) (a : op.Answer), Enters threshold v op a v.stage.ended := by
    intro op a
    rw [Stage.ended.eq_def]
    split
    · exact .ended
    · exact .same
  cases op with
  | call o =>
    cases o with
    | ensureRunning reg => exact .ensure
    | refreshEndpoint reg current => exact .refresh
    | _ => exact .same
  | ensured reg c =>
    match a with
    | .ok _ => exact .ended
    | .error e =>
      cases e with
      | jobNotFound id => exact .ensured
      | _ => exact .ended
  | refreshed reg c =>
    match a with
    | .ok _ => exact .ended
    | .error e =>
      cases e with
      | jobNotFound id => exact .refreshed
      | _ => exact .ended
  | scaleDown job group =>
    match a with
    | .ok _ => exact .same
    | .error e =>
      cases e with
      | jobNotFound id => exact .scaled
      | _ => exact .same
  | incrementNotFound job =>
    match a with
    | .error _ => exact .ended
    | .ok count =>
      change Enters threshold v _ _ (if threshold ≤ count then .removing job else .nothing)
      split
      next reached => exact .counted reached
      next => exact .ended
  | deferral | clearNotFound => exact .ended
  | cancelHeartbeat | spawn | cancelled => exact over_ _ _
  | _ => exact .same

lemma awaits_next {threshold : ℕ} {v : MissingView} {op : Op} {a : op.Answer} {c : ℕ}
    (stage : ((missingMonitor threshold).next v op a).stage = .awaits c) :
    v.stage = .awaits c ∨ ∃ o, (⟨op, a⟩ : (op : Op) × op.Answer) = ⟨.call o, c⟩ := by
  have entered := enters_next threshold v op a
  rw [stage] at entered
  generalize waits : Stage.awaits c = st at entered
  cases entered with
  | same => exact .inl rfl
  | ensure | refresh =>
    obtain rfl := Stage.awaits.inj waits
    exact .inr ⟨_, rfl⟩
  | _ => cases waits

lemma removing_next {threshold : ℕ} {v : MissingView} {op : Op} {a : op.Answer}
    (stage : ((missingMonitor threshold).next v op a).stage = .removing job) :
    (v.stage = .removing job ∧ ∀ named, op ≠ .clearNotFound named) ∨
      ∃ count, (⟨op, a⟩ : (op : Op) × op.Answer) = ⟨.incrementNotFound job, .ok count⟩ ∧
        threshold ≤ count := by
  by_cases clear : ∃ named, op = .clearNotFound named
  · obtain ⟨named, rfl⟩ := clear
    cases stage
  have entered := enters_next threshold v op a
  rw [stage] at entered
  generalize removes : Stage.removing job = st at entered
  cases entered with
  | same => exact .inl ⟨rfl, fun named at_ => clear ⟨named, at_⟩⟩
  | counted reached =>
    obtain rfl := Stage.removing.inj removes
    exact .inr ⟨_, rfl, reached⟩
  | _ => cases removes

/-- Code that keeps to the monitor of the missing jobs, in a run that counts responses once. -/
lemma counted_assumed {op : Op} {a : op.Answer} (cond : CountedOnce cfg h s (.op i op a)) :
    (missingMonitor cfg.autoDeregisterThreshold).assumes (missingView cfg i h) op a := by
  cases op with
  | scaleDown job group =>
    match a with
    | .ok _ => trivial
    | .error e =>
      cases e with
      | jobNotFound id => exact cond
      | _ => trivial
  | _ => trivial

lemma required_missing {op : Op} {a : op.Answer} (run : RunWhere (system cfg) (CountedOnce cfg) h s)
    (taken : step cfg s (.op i op a) = some t) :
    (missingMonitor cfg.autoDeregisterThreshold).requires (missingView cfg i h) op :=
  required_of_step (fun _ entry => entry_counts entry)
    (fun _ _ _ _ _ _ _ cond _ => counted_assumed cond) run taken

lemma view_other (other : e.thread? ≠ some i) : missingView cfg i (e :: h) = missingView cfg i h :=
  observed_other other

lemma view_op {op : Op} {a : op.Answer} : missingView cfg i (.op i op a :: h) =
    (missingMonitor cfg.autoDeregisterThreshold).next (missingView cfg i h) op a := by
  simp [missingView, observed]

/-- A thread that another one leaves alone is where it was, if it still runs. -/
lemma unmoved_thread (run : RunWhere (system cfg) C h s) (taken : step cfg s e = some t)
    (other : e.thread? ≠ some i) {next : Thread} (at_ : t.threads i = some next)
    (active : next.active = true) :
    s.threads i = some next ∨ (missingView cfg i h).stage = .nothing := by
  rcases thread_cases taken at_ with ⟨th, old, moved⟩ | ⟨rfl, -⟩
  · cases moved with
    | same _ => exact .inl old
    | answered _ => exact absurd rfl other
    | relayed done => simp [Thread.active, done] at active
    | dropped => cases active
  · right
    have fresh : missingView cfg s.nextThread h = .start := observed_fresh run le_rfl
    rw [fresh]
    rfl

/-- The thread whose operation is answered. -/
lemma acting_thread {op : Op} {a : op.Answer} (run : RunWhere (system cfg) C h s)
    (taken : step cfg s (.op i op a) = some t) :
    ∃ th u, s.threads i = some th ∧ th.active = true ∧ s.answer th.replica th.own op a = some u ∧
      t.shared = u.shared ∧ ∀ next, t.threads i = some next → next.replica = th.replica := by
  obtain ⟨th, at_, rest⟩ := Option.bind_eq_some_iff.mp taken
  obtain ⟨code, done, rest⟩ := Option.bind_eq_some_iff.mp rest
  obtain ⟨u, hu, rest⟩ := Option.bind_eq_some_iff.mp rest
  obtain rfl := Option.some.inj rest
  obtain ⟨rest, performs, -⟩ := Program.answered?_eq_some.mp done
  refine ⟨th, u, at_, by simp [Thread.active, performs], hu, startedAll_shared _ _, ?_⟩
  intro next at'
  rcases thread_cases taken at' with ⟨old, at_', moved⟩ | ⟨fresh, -⟩
  · obtain rfl := Option.some.inj (at_'.symm.trans at_)
    exact moved.replica
  · exact absurd fresh (thread_lt run at_).ne

/-! ## The call that a thread waits for -/

lemma nextCall_le (ev : WakeCoordinator.Event) (c : WakeCoordinator.State) :
    c.nextCall ≤ (ev.next c).nextCall := by
  have inserted (job : JobId) : (c.orInsert job).1.nextCall = c.nextCall := by
    unfold WakeCoordinator.State.orInsert
    split <;> rfl
  have stored (job : JobId) (status : WakeCoordinator.Status) :
      (c.storeStatus job status).nextCall = c.nextCall := by
    unfold WakeCoordinator.State.storeStatus
    split <;> rfl
  cases ev with
  | begin op => exact Nat.le_succ _
  | entry i reg => exact (inserted reg.jobId).ge
  | reset i job by_ => exact (stored job .dormant).ge
  | refreshReady i reg current ep => exact (stored reg.jobId .ready).ge
  | fastPath | cached | load | fetched | tryStart | queried | scaled | healthy =>
    simp only [WakeCoordinator.Event.next]
    split <;> exact le_rfl
  | pollReceivers =>
    simp only [WakeCoordinator.Event.next]
    split_ifs <;> exact le_rfl
  | _ => exact le_rfl

lemma coordinator_nextCall_le (taken : step cfg s e = some t) (r : ℕ) :
    (s.coordinator r).nextCall ≤ (t.coordinator r).nextCall := by
  rcases coordinator_cases taken r with same | ⟨ev, -, moved, -⟩
  · exact same ▸ le_rfl
  · exact moved ▸ nextCall_le ev _

/-- Two threads of a replica do not wait for the same call. -/
structure Awaits (cfg : Config) (h : List Event) (s : State) : Prop where
  begun : ∀ {i th c}, s.threads i = some th → (missingView cfg i h).stage = .awaits c →
    c < (s.coordinator th.replica).nextCall
  single : ∀ {i k th th' c}, s.threads i = some th → s.threads k = some th' →
    th.replica = th'.replica → (missingView cfg i h).stage = .awaits c →
    (missingView cfg k h).stage = .awaits c → i = k

lemma begun_call {o : WakeCoordinator.Operation} {c : ℕ}
    (taken : step cfg s (.op i (.call o) c) = some t) :
    ∃ th, s.threads i = some th ∧ c = (s.coordinator th.replica).nextCall ∧
      t.coordinator th.replica = WakeCoordinator.Event.next (s.coordinator th.replica) (.begin o) := by
  obtain ⟨th, at_, rest⟩ := Option.bind_eq_some_iff.mp taken
  obtain ⟨code, -, rest⟩ := Option.bind_eq_some_iff.mp rest
  obtain ⟨u, hu, rest⟩ := Option.bind_eq_some_iff.mp rest
  obtain rfl := Option.some.inj rest
  simp only [State.answer] at hu
  split at hu
  next fresh =>
    obtain rfl := Option.some.inj hu
    refine ⟨th, at_, fresh, ?_⟩
    simp [State.coordinator, State.setCoordinator, State.startedAll, spawned]
  next => cases hu

/-- A thread that waits for a call has begun it in this step, or waited for it before. -/
lemma awaits_cases (run : RunWhere (system cfg) C h s) (taken : step cfg s e = some t)
    {next : Thread} (at_ : t.threads i = some next) {c : ℕ}
    (stage : (missingView cfg i (e :: h)).stage = .awaits c) :
    (∃ th, s.threads i = some th ∧ th.replica = next.replica ∧
      (missingView cfg i h).stage = .awaits c) ∨
      (e.thread? = some i ∧ c = (s.coordinator next.replica).nextCall ∧
        (t.coordinator next.replica).nextCall = c + 1) := by
  rcases thread_cases taken at_ with ⟨th, old, moved⟩ | ⟨rfl, -⟩
  · rcases observed_cases (missingMonitor cfg.autoDeregisterThreshold) .start i e h with
      ⟨op, a, rfl, view⟩ | ⟨-, view⟩
    · rw [missingView, view] at stage
      rcases awaits_next stage with before | ⟨o, call⟩
      · exact .inl ⟨th, old, moved.replica.symm, before⟩
      · cases call
        obtain ⟨th', at', fresh, begun⟩ := begun_call taken
        obtain rfl := Option.some.inj (at'.symm.trans old)
        refine .inr ⟨rfl, ?_, ?_⟩
        · rw [moved.replica, ← fresh]
        · rw [moved.replica, begun, fresh]
          rfl
    · rw [missingView, view] at stage
      exact .inl ⟨th, old, moved.replica.symm, stage⟩
  · have fresh : missingView cfg s.nextThread (e :: h) = .start := by
      rw [view_other, missingView, observed_fresh run le_rfl]
      exact fun acts => (acting_lt run taken acts).false
    rw [fresh] at stage
    cases stage

lemma awaits_of_run (run : RunWhere (system cfg) C h s) : Awaits cfg h s := by
  apply run.invariant (Awaits cfg)
  · constructor <;> simp [system, initial]
  · intro h s t e prior ok taken _
    have begun {i : ℕ} {th : Thread} {c : ℕ} (at_ : t.threads i = some th)
        (stage : (missingView cfg i (e :: h)).stage = .awaits c) :
        c < (t.coordinator th.replica).nextCall := by
      rcases awaits_cases prior taken at_ stage with ⟨old, at', same, before⟩ | ⟨-, -, new⟩
      · exact (same ▸ ok.begun at' before).trans_le (coordinator_nextCall_le taken _)
      · exact new ▸ Nat.lt_succ_self c
    refine ⟨begun, ?_⟩
    intro i k th th' c at_ at' here stage stage'
    rcases awaits_cases prior taken at_ stage with ⟨old, was, same, before⟩ | ⟨acts, fresh, -⟩
    · rcases awaits_cases prior taken at' stage' with ⟨old', was', same', before'⟩ | ⟨-, fresh', -⟩
      · exact ok.single was was' (same.trans (here.trans same'.symm)) before before'
      · have lt := ok.begun was before
        rw [same, here, ← fresh'] at lt
        exact absurd lt (lt_irrefl c)
    · rcases awaits_cases prior taken at' stage' with ⟨old', was', same', before'⟩ | ⟨acts', -, -⟩
      · have lt := ok.begun was' before'
        rw [same', ← here, ← fresh] at lt
        exact absurd lt (lt_irrefl c)
      · exact Option.some.inj (acts.symm.trans acts')

/-! ## What a step does to the carriers -/

lemma carried_thread : carried? cfg h s (.thread i) = some job ↔
    ∃ th, s.threads i = some th ∧ th.active = true ∧
      told? s th.replica (missingView cfg i h).stage = some job := by
  unfold carried?
  cases at_ : s.threads i with
  | none => simp [at_]
  | some th => simp [at_]

/-- The holder carries what this carrier of replica `r` does. -/
def Reads (cfg : Config) (h : List Event) (s : State) (r : ℕ) : Holder → Carrier → Prop
  | .task q u, .task v => q = r ∧ u = v
  | .thread i, .call c =>
    ∃ th, s.threads i = some th ∧ th.replica = r ∧ (missingView cfg i h).stage = .awaits c
  | _, _ => False

lemma Awaits.reads_single (ok : Awaits cfg h s) {x y : Holder} {b : Carrier}
    (hx : Reads cfg h s r x b) (hy : Reads cfg h s r y b) : x = y := by
  match x, y, b with
  | .task q u, .task q' u', .task v =>
    obtain ⟨rfl, rfl⟩ := hx
    obtain ⟨rfl, rfl⟩ := hy
    rfl
  | .thread i, .thread k, .call c =>
    obtain ⟨th, at_, here, stage⟩ := hx
    obtain ⟨th', at', here', stage'⟩ := hy
    exact congrArg Holder.thread (ok.single at_ at' (here.trans here'.symm) stage stage')

/-- Apart from the acting thread, a holder gains a response only through a carrier. -/
lemma gained (run : RunWhere (system cfg) C h s) (taken : step cfg s e = some t) {x : Holder}
    (other : ∀ i, e.thread? = some i → x ≠ .thread i)
    (has : carried? cfg (e :: h) t x = some job) :
    carried? cfg h s x = some job ∨ ∃ r b, Reads cfg h s r x b ∧
      (t.coordinator r).missing? b = some job ∧ (s.coordinator r).missing? b ≠ some job := by
  cases x with
  | task r u =>
    by_cases had : (s.coordinator r).missing? (.task u) = some job
    · exact .inl had
    · exact .inr ⟨r, .task u, ⟨rfl, rfl⟩, has, had⟩
  | thread i =>
    have apart : e.thread? ≠ some i := fun acts => other i acts rfl
    obtain ⟨th, at_, active, told⟩ := carried_thread.mp has
    rw [view_other apart] at told
    rcases unmoved_thread run taken apart at_ active with old | fresh
    · cases stage : (missingView cfg i h).stage with
      | nothing | removing => simp [stage, told?] at told
      | told => exact .inl (carried_thread.mpr ⟨th, old, active, by rwa [stage] at told ⊢⟩)
      | awaits c =>
        rw [stage] at told
        by_cases had : (s.coordinator th.replica).missing? (.call c) = some job
        · exact .inl (carried_thread.mpr ⟨th, old, active, by rwa [stage]⟩)
        · exact .inr ⟨th.replica, .call c, ⟨th, old, rfl, stage⟩, told, had⟩
    · simp [fresh, told?] at told

/-- The step gives no coordinator a not-found response, and none hands one on. -/
def Event.quiet : Event → Bool
  | .coord _ ev => ev.notFound?.isNone && !ev.sendsNotFound
  | _ => true

lemma carries_quiet (taken : step cfg s e = some t) (quiet : e.quiet = true) (r : ℕ) :
    Carries (s.coordinator r) (t.coordinator r) Set.univ := by
  rcases coordinator_cases taken r with same | ⟨ev, en, moved, drives⟩
  · rw [same]
    exact .of_eq rfl rfl
  · rw [moved]
    cases drives with
    | internal own =>
      obtain ⟨none_, unsent⟩ : ev.notFound? = none ∧ ev.sendsNotFound = false := by
        simpa [Event.quiet] using quiet
      apply WakeCoordinator.carries_next en none_ unsent
      rintro t reg w b id rfl
      cases own
    | begins => exact WakeCoordinator.carries_next en rfl rfl (by simp)
    | drops drop =>
      apply WakeCoordinator.carries_next en
      · cases ev <;> first | rfl | cases drop
      · cases ev <;> first | rfl | cases drop
      · rintro t reg w b id rfl
        cases drop

lemma Carries.keeps {c d : WakeCoordinator.State} (carries : Carries c d Set.univ) {b : Carrier}
    (has : d.missing? b = some job) : c.missing? b = some job := by
  rcases carries b trivial with same | none_
  · exact same ▸ has
  · rw [none_] at has
    cases has

/-- In a quiet step nobody but the acting thread gains a response. -/
lemma kept_quiet (run : RunWhere (system cfg) C h s) (taken : step cfg s e = some t)
    (quiet : e.quiet = true) {x : Holder} (other : ∀ i, e.thread? = some i → x ≠ .thread i)
    (has : carried? cfg (e :: h) t x = some job) : carried? cfg h s x = some job := by
  rcases gained run taken other has with had | ⟨r, b, -, new, had⟩
  · exact had
  · exact absurd (Carries.keeps (carries_quiet taken quiet r) new) had

/-- The acting thread gains a response only by the answer to its `scale_down`. -/
lemma kept_acting {op : Op} {a : op.Answer} (run : RunWhere (system cfg) (CountedOnce cfg) h s)
    (taken : step cfg s (.op i op a) = some t)
    (has : carried? cfg (.op i op a :: h) t (.thread i) = some job) :
    carried? cfg h s (.thread i) = some job ∨ Event.notFound? (.op i op a) = some job := by
  obtain ⟨th, u, at_, active, hu, -, stays⟩ := acting_thread run taken
  obtain ⟨next, at', -, told⟩ := carried_thread.mp has
  rw [stays next at', view_op] at told
  have carries := carries_quiet taken rfl th.replica
  have required := required_missing run taken
  have entered := enters_next cfg.autoDeregisterThreshold (missingView cfg i h) op a
  generalize ((missingMonitor cfg.autoDeregisterThreshold).next (missingView cfg i h) op a).stage = st
    at entered told
  have before {stage : Stage} (was : (missingView cfg i h).stage = stage)
      (had : told? s th.replica stage = some job) : carried? cfg h s (.thread i) = some job :=
    carried_thread.mpr ⟨th, at_, active, was ▸ had⟩
  cases entered with
  | same =>
    left
    cases stage : (missingView cfg i h).stage with
    | nothing | removing => simp [stage, told?] at told
    | told k => exact before stage (by rwa [stage] at told)
    | awaits c =>
      rw [stage] at told
      have new : (t.coordinator th.replica).missing? (.call c) = some job := told
      exact before stage (Carries.keeps carries new)
  | ended => cases told
  | counted => cases told
  | scaled => exact .inr told
  | @ensure reg c | @refresh reg current c =>
    obtain ⟨th', same, fresh, begun⟩ := begun_call taken
    obtain rfl := Option.some.inj (same.symm.trans at_)
    rw [told?, begun, fresh] at told
    simp [WakeCoordinator.State.missing?, WakeCoordinator.Event.next, WakeCoordinator.Operation.call,
      WakeCoordinator.Call.missing?] at told
  | @ensured reg c id =>
    left
    obtain rfl := Option.some.inj told
    apply before required
    simp only [State.answer] at hu
    split at hu
    next found => simp [told?, WakeCoordinator.State.missing?, found, WakeCoordinator.Call.missing?]
    next => cases hu
  | @refreshed reg c id =>
    left
    obtain rfl := Option.some.inj told
    apply before required
    simp only [State.answer] at hu
    split at hu
    next found => simp [told?, WakeCoordinator.State.missing?, found, WakeCoordinator.Call.missing?]
    next => cases hu

end NScale.Deployment
