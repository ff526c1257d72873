import NScale.IdleSweep

/-!
# The lock of the sweep

A replica takes the lock for its time to live, sweeps without renewing it, and lets a spawned
task give it back. The lock stands for the sweep while it has not expired and no release of
the same replica, by an earlier tick, comes in between.
-/
namespace NScale.Service

/-- `lock_ttl` of `ScaleDownController::new`. -/
def ScaleDownController.lockTtl (interval : ℕ) : ℕ := interval + 5000

/-- Whether the thread is between a successful acquisition and the end of its loop. -/
def loopMonitor (ttl : ℕ) : Monitor Ops Bool where
  requires _
    | .tryAcquireLock t => t = ttl
    | _ => True
  assumes _ _ _ := True
  next sweeping
    | .tryAcquireLock _, .ok true => true
    | .spawn .releaseLock, _ => false
    | _, _ => sweeping

variable {α : Type} {areas : List Area} {p : Code α} {ttl : ℕ} {b : Bool} {cfg : Config}

lemma loop_quiet (uses : p.Uses (Within areas)) (quiet : .lock ∉ areas) :
    p.Meets (loopMonitor ttl) (fun _ _ => True) b := by
  apply Program.Meets.of_uses (fun _ => True) uses _ trivial
  intro op b within _
  have outside : op.area ≠ .lock := fun h => quiet (h ▸ within)
  refine ⟨?_, fun _ _ => trivial⟩
  cases op with
  | tryAcquireLock t => exact absurd rfl outside
  | _ => trivial

/-- Only a tick takes the lock, and it takes it for the configured time. -/
lemma loop_meets {c : Code Unit} (entry : Deployment.Entry cfg c) :
    c.Meets (loopMonitor cfg.lockTtl) (fun _ _ => True) b := by
  rcases entry_within entry with rfl | request
  · apply Program.Meets.perform rfl
    intro acquired _
    match acquired with
    | .error e => trivial
    | .ok false => trivial
    | .ok true => exact loop_quiet ScaleDownController.locked_within (by simp)
  · exact loop_quiet request (by simp)

end NScale.Service

namespace NScale.Deployment
open Service Transition

variable {cfg : Config} {C : Condition State Event} {h : List Event} {s t : State} {e : Event}
  {i : ℕ}

/-- Thread `i` is between a successful `try_acquire_lock` and the end of its loop. -/
def sweeping (cfg : Config) (i : ℕ) (h : List Event) : Bool :=
  observed (loopMonitor cfg.lockTtl) false i h

def State.replicaOf (s : State) (i : ℕ) : Option ℕ := (s.threads i).map Thread.replica

/-- At most one replica sweeps. -/
def OneSweeper (cfg : Config) (h : List Event) (s : State) : Prop :=
  ∀ i k th th', sweeping cfg i h = true → s.threads i = some th →
    sweeping cfg k h = true → s.threads k = some th' → th.replica = th'.replica

/-- No lock expires while a sweep is in its loop, and no task gives back the lock of a
replica while a sweep of that replica is in its loop. -/
def LockOutlastsSweep (cfg : Config) : Condition State Event := fun h s e =>
  match e with
  | .advance millis => ∀ i < s.nextThread, sweeping cfg i h = true →
      ∀ lock ∈ s.lock, s.time + millis < lock.2
  | .op i .releaseLock (.ok _) => ∀ k < s.nextThread, sweeping cfg k h = true →
      s.replicaOf k ≠ s.replicaOf i
  | _ => True

/-! ## What a step does to the lock -/

lemma guardDropped_lock (s : State) (r : ℕ) (guard : Option JobId) :
    (s.guardDropped r guard).lock = s.lock := by
  cases guard <;> rfl

lemma answer_lock {r : ℕ} {own : Own} {op : Op} {a : op.Answer}
    (acquisition : ∀ ttl, op ≠ .tryAcquireLock ttl) (release : op ≠ .releaseLock)
    (ht : s.answer r own op a = some t) : t.lock = s.lock := by
  unfold State.answer at ht
  split at ht
  case h_7 => exact absurd rfl (acquisition _)
  case h_8 => exact absurd rfl release
  case h_13 =>
    obtain rfl := Option.some.inj ht
    exact guardDropped_lock s r own.guard
  all_goals
    first
    | (cases ht; rfl)
    | (split at ht <;> cases ht <;> rfl)

/-- An acquisition or a successful request for a release. -/
def Event.setsLock : Event → Bool
  | .op _ (.tryAcquireLock _) (.ok true) => true
  | .op _ .releaseLock (.ok _) => true
  | _ => false

lemma lock_kept (taken : step cfg s e = some t) (other : e.setsLock = false) : t.lock = s.lock := by
  rcases step_shared taken with ⟨-, same⟩ | ⟨i, op, a, th, u, rfl, -, hu, same⟩ | ⟨millis, rfl, same⟩
  · exact congrArg Shared.lock same
  · have lock : t.lock = u.lock := congrArg Shared.lock same
    rw [lock]
    cases op with
    | tryAcquireLock ttl =>
      match a with
      | .ok true => cases other
      | .ok false =>
        simp only [State.answer] at hu
        split at hu
        · cases hu; rfl
        · cases hu
      | .error e =>
        obtain rfl := Option.some.inj hu
        rfl
    | releaseLock =>
      cases a with
      | ok _ => cases other
      | error e =>
        obtain rfl := Option.some.inj hu
        rfl
    | _ => exact answer_lock (by simp) (by simp) hu
  · exact congrArg Shared.lock same

lemma lock_acquired {ttl : ℕ} {th : Thread} (at_ : s.threads i = some th)
    (taken : step cfg s (.op i (.tryAcquireLock ttl) (.ok true)) = some t) :
    s.lockFree = true ∧ t.lock = some (th.replica, s.time + ttl) ∧ t.time = s.time := by
  obtain ⟨_, found, taken⟩ := Option.bind_eq_some_iff.mp taken
  obtain rfl := Option.some.inj (found.symm.trans at_)
  obtain ⟨code, -, taken⟩ := Option.bind_eq_some_iff.mp taken
  obtain ⟨u, hu, taken⟩ := Option.bind_eq_some_iff.mp taken
  obtain rfl := Option.some.inj taken
  have free : s.lockFree = true := by
    by_contra taken
    simp [State.answer, taken] at hu
  simp only [State.answer, free, if_true] at hu
  obtain rfl := Option.some.inj hu
  exact ⟨free, rfl, rfl⟩

/-- A release takes away the lock of its own replica only. -/
lemma lock_released {th : Thread} {lock : ℕ × ℕ} (at_ : s.threads i = some th)
    (taken : step cfg s (.op i .releaseLock (.ok ())) = some t) (held : s.lock = some lock)
    (other : lock.1 ≠ th.replica) : t.lock = some lock := by
  obtain ⟨_, found, taken⟩ := Option.bind_eq_some_iff.mp taken
  obtain rfl := Option.some.inj (found.symm.trans at_)
  obtain ⟨code, -, taken⟩ := Option.bind_eq_some_iff.mp taken
  obtain ⟨u, hu, taken⟩ := Option.bind_eq_some_iff.mp taken
  obtain rfl := Option.some.inj taken
  simp only [State.answer, held, other, false_and, if_false] at hu
  obtain rfl := Option.some.inj hu
  exact held

/-! ## A sweep and its lock -/

/-- The lock of every sweep is held, and has not expired. -/
def Leased (cfg : Config) (h : List Event) (s : State) : Prop :=
  ∀ i th, sweeping cfg i h = true → s.threads i = some th →
    ∃ expiry, s.lock = some (th.replica, expiry) ∧ s.time < expiry

lemma not_lockFree {lock : ℕ × ℕ} (held : s.lock = some lock) (alive : s.time < lock.2) :
    s.lockFree = false := by
  simp [State.lockFree, held, alive]

/-- Only an acquisition puts a thread into its loop. -/
lemma sweeping_of_cons (now : sweeping cfg i (e :: h) = true) :
    sweeping cfg i h = true ∨ ∃ ttl, e = .op i (.tryAcquireLock ttl) (.ok true) := by
  rcases observed_cases (loopMonitor cfg.lockTtl) false i e h with ⟨op, a, rfl, view⟩ | ⟨-, view⟩
  · rw [sweeping, view] at now
    cases op with
    | tryAcquireLock ttl =>
      match a with
      | .ok true => exact .inr ⟨ttl, rfl⟩
      | .ok false => exact .inl now
      | .error e => exact .inl now
    | spawn task =>
      cases task with
      | releaseLock => cases now
      | recordActivity | tunnel => exact .inl now
    | _ => exact .inl now
  · rw [sweeping, view] at now
    exact .inl now

lemma not_sweeping_fresh (run : RunWhere (system cfg) C h s) (taken : step cfg s e = some t) :
    sweeping cfg s.nextThread (e :: h) = false := by
  rw [sweeping, observed_other, observed_fresh run le_rfl]
  intro acts
  exact (acting_lt run taken acts).false

lemma acquires_ttl {m : ℕ} {a : (Op.tryAcquireLock m).Answer} (run : RunWhere (system cfg) C h s)
    (taken : step cfg s (.op i (.tryAcquireLock m) a) = some t) : m = cfg.lockTtl := by
  have asked : (loopMonitor cfg.lockTtl).requires (sweeping cfg i h) (.tryAcquireLock m) :=
    required_of_step (fun _ entry => loop_meets entry) (fun _ _ _ _ _ _ _ _ _ => trivial) run taken
  exact asked

/-- The clock moves by an advance only. -/
lemma step_time (taken : step cfg s e = some t) :
    t.time = s.time ∨ ∃ millis, e = .advance millis ∧ t.time = s.time + millis := by
  rcases step_shared taken with ⟨-, same⟩ | ⟨i, op, a, th, u, rfl, -, hu, same⟩ | ⟨millis, rfl, same⟩
  · exact .inl (congrArg Shared.time same)
  · have time : t.time = u.time := congrArg Shared.time same
    exact .inl (time.trans (answer_score (i := i) hu).2)
  · exact .inr ⟨millis, rfl, congrArg Shared.time same⟩

/-- What one step preserves. -/
theorem Leased.step (interval : ℕ) (ttl : cfg.lockTtl = ScaleDownController.lockTtl interval)
    (run : RunWhere (system cfg) C h s) (ok : Leased cfg h s) (taken : Deployment.step cfg s e = some t)
    (cond : LockOutlastsSweep cfg h s e) : Leased cfg (e :: h) t := by
  intro i next now at_
  rcases thread_cases taken at_ with ⟨th, old, moved⟩ | ⟨rfl, -⟩
  · rw [moved.replica]
    rcases sweeping_of_cons now with before | ⟨m, rfl⟩
    · obtain ⟨expiry, held, alive⟩ := ok i th before old
      have born : i < s.nextThread := thread_lt run old
      cases sets : e.setsLock with
      | false =>
        refine ⟨expiry, (lock_kept taken sets).trans held, ?_⟩
        rcases step_time taken with same | ⟨millis, rfl, later⟩
        · rw [same]
          exact alive
        · rw [later]
          exact cond i born before (th.replica, expiry) held
      | true =>
        unfold Event.setsLock at sets
        split at sets
        next k m =>
          obtain ⟨th', found, -⟩ := Option.bind_eq_some_iff.mp taken
          obtain ⟨free, -, -⟩ := lock_acquired found taken
          rw [not_lockFree held alive] at free
          cases free
        next k _ =>
          obtain ⟨th', found, -⟩ := Option.bind_eq_some_iff.mp taken
          have other : th.replica ≠ th'.replica := by
            have apart : s.replicaOf i ≠ s.replicaOf k := cond i born before
            intro same
            apply apart
            simp [State.replicaOf, old, found, same]
          refine ⟨expiry, lock_released found taken held other, ?_⟩
          rcases step_time taken with same | ⟨millis, advance, -⟩
          · rw [same]
            exact alive
          · cases advance
        next => cases sets
    · obtain ⟨-, held, same⟩ := lock_acquired old taken
      have asked : m = cfg.lockTtl := acquires_ttl run taken
      refine ⟨s.time + m, held, ?_⟩
      rw [same, asked, ttl, ScaleDownController.lockTtl]
      omega
  · rw [not_sweeping_fresh run taken] at now
    cases now

theorem leased_of_run (interval : ℕ) (ttl : cfg.lockTtl = ScaleDownController.lockTtl interval)
    (run : RunWhere (system cfg) (LockOutlastsSweep cfg) h s) : Leased cfg h s := by
  apply run.invariant fun h s => Leased cfg h s
  · intro i th now
    cases now
  · intro h s t e prior ok taken cond
    exact ok.step interval ttl prior taken cond

theorem oneSweeper_of_run (cfg : Config) (interval : ℕ)
    (ttl : cfg.lockTtl = ScaleDownController.lockTtl interval) (h : List Event) (s : State)
    (run : RunWhere (system cfg) (LockOutlastsSweep cfg) h s) : OneSweeper cfg h s := by
  intro i k th th' first at₁ second at₂
  obtain ⟨x, held, -⟩ := leased_of_run interval ttl run i th first at₁
  obtain ⟨y, held', -⟩ := leased_of_run interval ttl run k th' second at₂
  rw [held] at held'
  exact congrArg Prod.fst (Option.some.inj held')

instance (cfg : Config) (h : List Event) (s : State) (e : Event) :
    Decidable (LockOutlastsSweep cfg h s e) := by
  unfold LockOutlastsSweep; split <;> infer_instance

/-- A replica takes the lock and reads the idle jobs. -/
def echoSweeps : List Event := echoRegistered ++
  [.advance 300000, .tick 0, .op 1 (.tryAcquireLock 60000) (.ok true), .op 1 .now 300000,
    .op 1 (.zrangebyscore 0) (.ok [echoJob])]

/-- A second replica finds the lock taken. -/
theorem echoSweeps_oneSweeper : ∃ h s, RunWhere (system echoConfig) (LockOutlastsSweep echoConfig) h s ∧
    sweeping echoConfig 1 h = true ∧ s.lock = some (0, 360000) ∧ OneSweeper echoConfig h s := by
  obtain ⟨h, s, run, first, lock⟩ := exists_run (T := system echoConfig)
    (C := LockOutlastsSweep echoConfig)
    (fun h s => sweeping echoConfig 1 h = true ∧ s.lock = some (0, 360000))
    (echoSweeps ++ [.advance 59999, .tick 1, .op 2 (.tryAcquireLock 60000) (.ok false)]) (by decide)
  exact ⟨h, s, run, first, lock, oneSweeper_of_run echoConfig 55000 (by decide) h s run⟩

/-- The time to live passes while the first replica waits for Nomad. -/
theorem two_sweepers : ¬ ∀ cfg interval, cfg.lockTtl = ScaleDownController.lockTtl interval →
    ∀ h s, Run (system cfg) h s → OneSweeper cfg h s := by
  intro all
  obtain ⟨h, s, run, first, second, zero, one⟩ := exists_run (T := system echoConfig)
    (C := fun _ _ _ => True)
    (fun h s => sweeping echoConfig 1 h = true ∧ sweeping echoConfig 2 h = true ∧
      s.replicaOf 1 = some 0 ∧ s.replicaOf 2 = some 1)
    (echoSweeps ++ [.advance 60000, .tick 1, .op 2 (.tryAcquireLock 60000) (.ok true)]) (by decide)
  obtain ⟨th, at₁, replica₁⟩ := Option.map_eq_some_iff.mp zero
  obtain ⟨th', at₂, replica₂⟩ := Option.map_eq_some_iff.mp one
  have same := all echoConfig 55000 (by decide) h s run 1 2 th th' first at₁ second at₂
  omega

end NScale.Deployment
