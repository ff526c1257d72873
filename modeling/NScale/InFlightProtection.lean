import NScale.IdleSweep

/-!
# In-flight protection of the sweep

The sweep asks the in-flight tracker about the activity key that it works on, and scales down
the job of the registration that it finds for this key. Requests are tracked under the job.
-/
namespace NScale.Deployment
open Service Transition
open WakeCoordinator (echoReg)

variable {cfg : Config} {C : Condition State Event} {h h₀ : List Event} {s s₀ t : State}
  {e : Event} {i r : ℕ} {key job : JobId} {th th₀ : Thread}

/-- The first operation of a call of `scale_down_job` of thread `i`. -/
def Event.beginsCall (i : ℕ) : Event → Bool
  | .op j (.deferral _) _ => j = i
  | _ => false

/-- A step within one call of thread `i`, while the job has a guard. -/
abbrev WhileGuarded (C : Condition State Event) (i r : ℕ) (job : JobId) : Condition State Event :=
  fun h s e => C h s e ∧ 0 < s.inFlight r job ∧ e.beginsCall i = false

/-- A call of `scale_down_job` during which the job always has a guard does not scale it down. -/
def ProtectsInFlight (cfg : Config) (C : Condition State Event) : Prop :=
  ∀ h₀ s₀ s₁ i th key a h s job group b,
    RunWhere (system cfg) C h₀ s₀ → s₀.threads i = some th →
    step cfg s₀ (.op i (.deferral key) a) = some s₁ →
    RunFrom (system cfg) (WhileGuarded C i th.replica job) (.op i (.deferral key) a :: h₀) s₁ h s →
    0 < s.inFlight th.replica job → C h s (.op i (.scaleDown job group) b) →
    step cfg s (.op i (.scaleDown job group) b) = none

/-- The registration that a sweep finds for its activity key is that of a job with this id. -/
def KeyIsJob (cfg : Config) : Condition State Event := fun h _ e =>
  match e with
  | .op i (.scaleDown job _) _ => (sweepView cfg i h).key = some job
  | _ => True

instance (cfg : Config) (h : List Event) (s : State) (e : Event) : Decidable (KeyIsJob cfg h s e) := by
  unfold KeyIsJob; split <;> infer_instance

/-- A call goes on where the run before it ended. -/
lemma run_of_call {a : Option ℕ} {s₁ : State} (run : RunWhere (system cfg) C h₀ s₀)
    (begun : step cfg s₀ (.op i (.deferral key) a) = some s₁) (cond : C h₀ s₀ (.op i (.deferral key) a))
    (path : RunFrom (system cfg) (WhileGuarded C i r job) (.op i (.deferral key) a :: h₀) s₁ h s) :
    RunWhere (system cfg) C h s := by
  have started : RunWhere (system cfg) C (.op i (.deferral key) a :: h₀) s₁ := .step run begun cond
  exact started.append (path.mono fun _ _ _ _ _ _ cond => cond.1)

/-! ## A thread stays on its replica -/

/-- On a run that goes on from a state with this thread. -/
lemma replica_of_path (born : i < s₀.nextThread)
    (at₀ : ∀ th, s₀.threads i = some th → th.replica = r)
    (path : RunFrom (system cfg) C h₀ s₀ h s) :
    i < s.nextThread ∧ ∀ th, s.threads i = some th → th.replica = r := by
  apply path.state_invariant fun s => i < s.nextThread ∧ ∀ th, s.threads i = some th → th.replica = r
  · exact ⟨born, at₀⟩
  · rintro h s t e ⟨born, same⟩ taken _
    refine ⟨?_, ?_⟩
    · rw [nextThread_eq taken]
      omega
    · intro next at_
      rcases thread_cases taken at_ with ⟨th, old, moved⟩ | ⟨fresh, -⟩
      · exact moved.replica.trans (same th old)
      · omega

/-- The tracker answers by its count. -/
lemma hasInFlight_answer {busy : Bool} (at_ : ∀ th, s.threads i = some th → th.replica = r)
    (taken : step cfg s (.op i (.hasInFlight key) busy) = some t) :
    busy = decide (0 < s.inFlight r key) := by
  obtain ⟨th, found, taken⟩ := Option.bind_eq_some_iff.mp taken
  obtain ⟨code, -, taken⟩ := Option.bind_eq_some_iff.mp taken
  obtain ⟨u, hu, -⟩ := Option.bind_eq_some_iff.mp taken
  rw [← at_ th found]
  by_contra other
  simp [State.answer, other] at hu

/-- During a call for a key, the sweep works on this key, and has found it without requests
only where it is not the guarded job. -/
def WorksOn (key job : JobId) (v : SweepView) : Prop :=
  v.key = some key ∧ (v.unguarded = true → key ≠ job)

lemma WorksOn.asked {v : SweepView} {k : JobId} {busy : Bool} {threshold : ℕ}
    (ok : WorksOn key job v) (clear : busy = false → key ≠ job) :
    WorksOn key job ((sweepMonitor threshold).next v (.hasInFlight k) busy) := by
  refine ⟨ok.1, ?_⟩
  intro unguarded
  apply clear
  simpa [sweepMonitor] using unguarded

lemma WorksOn.other {v : SweepView} {op : Op} {a : op.Answer} {threshold : ℕ}
    (ok : WorksOn key job v) (deferral : ∀ k, op ≠ .deferral k) (tracker : ∀ k, op ≠ .hasInFlight k) :
    WorksOn key job ((sweepMonitor threshold).next v op a) := by
  cases op with
  | deferral k => exact absurd rfl (deferral k)
  | hasInFlight k => exact absurd rfl (tracker k)
  | zrangebyscore cutoff => cases a <;> exact ok
  | _ => exact ok

/-- What one step of a guarded call preserves. -/
lemma worksOn_step (run : RunWhere (system cfg) C h s)
    (at_ : ∀ th, s.threads i = some th → th.replica = r) (taken : step cfg s e = some t)
    (ok : WorksOn key job (sweepView cfg i h)) (guarded : 0 < s.inFlight r job)
    (same : e.beginsCall i = false) : WorksOn key job (sweepView cfg i (e :: h)) := by
  rcases observed_cases (sweepMonitor cfg.idleThreshold) .start i e h with
    ⟨op, a, rfl, view⟩ | ⟨-, view⟩
  · rw [sweepView, view]
    by_cases tracker : ∃ k, op = .hasInFlight k
    · obtain ⟨k, rfl⟩ := tracker
      apply ok.asked
      intro free sameJob
      have asked : (sweepView cfg i h).key = some k := required run taken
      have : k = key := Option.some.inj (asked.symm.trans ok.1)
      subst this sameJob
      have busy := hasInFlight_answer at_ taken
      simp [free, guarded] at busy
    · apply ok.other
      · rintro k rfl
        simp [Event.beginsCall] at same
      · rintro k rfl
        exact tracker ⟨k, rfl⟩
  · rw [sweepView, view]
    exact ok

theorem protectsInFlight (cfg : Config) : ProtectsInFlight cfg (KeyIsJob cfg) := by
  intro h₀ s₀ s₁ i th key a h s job group b run at_ begun path guarded found
  have stays {h : List Event} {s : State}
      (path : RunFrom (system cfg) (WhileGuarded (KeyIsJob cfg) i th.replica job)
        (.op i (.deferral key) a :: h₀) s₁ h s) :
      ∀ th', s.threads i = some th' → th'.replica = th.replica := by
    have first : RunFrom (system cfg) (fun _ _ _ => True) h₀ s₀ (.op i (.deferral key) a :: h₀) s₁ :=
      .step .nil begun trivial
    have old : ∀ th', s₀.threads i = some th' → th'.replica = th.replica := by
      intro th' same
      obtain rfl := Option.some.inj (same.symm.trans at_)
      rfl
    exact (replica_of_path (thread_lt run at_) old
      (first.append (path.mono fun _ _ _ _ _ _ _ => trivial))).2
  have works : WorksOn key job (sweepView cfg i h) := by
    apply path.invariant fun h _ => WorksOn key job (sweepView cfg i h)
    · refine ⟨?_, ?_⟩ <;> simp [sweepView, observed, sweepMonitor]
    · intro h s t e prior ih taken cond
      exact worksOn_step (run_of_call run begun trivial prior) (stays prior) taken ih cond.2.1 cond.2.2
  rw [Option.eq_none_iff_forall_not_mem]
  intro t taken
  obtain ⟨unguarded, -⟩ := required (run_of_call run begun trivial path) taken
  have : job = key := Option.some.inj (found.symm.trans works.1)
  exact works.2 unguarded this.symm

/-- Scripts of a run up to a call of `scale_down_job`, and of its steps under a guard. -/
lemma exists_call (cfg : Config) (C : Condition State Event) [∀ h s e, Decidable (C h s e)]
    (i r : ℕ) (key job : JobId) (es call : List Event) (Q : List Event → State → Prop)
    [∀ h s, Decidable (Q h s)]
    (check : ((replay (system cfg) C [] (initial cfg) es).any fun run =>
      decide ((run.2.threads i).map Thread.replica = some r) &&
      (step cfg run.2 (.op i (.deferral key) none)).any fun s₁ =>
        (replay (system cfg) (WhileGuarded C i r job) (.op i (.deferral key) none :: run.1) s₁ call).any
          fun path => decide (0 < path.2.inFlight r job ∧ Q path.1 path.2)) = true) :
    ∃ h₀ s₀ s₁ th h s, RunWhere (system cfg) C h₀ s₀ ∧ s₀.threads i = some th ∧
      step cfg s₀ (.op i (.deferral key) none) = some s₁ ∧
      RunFrom (system cfg) (WhileGuarded C i th.replica job) (.op i (.deferral key) none :: h₀) s₁ h s ∧
      0 < s.inFlight th.replica job ∧ Q h s := by
  obtain ⟨run, replayed, check⟩ := (Option.any_eq_true _ _).mp check
  obtain ⟨replica, check⟩ := (Bool.and_eq_true _ _).mp check
  obtain ⟨s₁, begun, check⟩ := (Option.any_eq_true _ _).mp check
  obtain ⟨path, called, check⟩ := (Option.any_eq_true _ _).mp check
  obtain ⟨guarded, holds⟩ := of_decide_eq_true check
  obtain ⟨th, at_, rfl⟩ := Option.map_eq_some_iff.mp (of_decide_eq_true replica)
  exact ⟨run.1, run.2, s₁, th, path.1, path.2, RunFrom.nil.replay replayed, at_, begun,
    RunFrom.nil.replay called, guarded, holds⟩

/-- The job serves a request when a sweep lists its service name and its id. -/
def sweptWhileServing : List Event := echoForwarded ++
  [.advance 300000, .tick 0, .op 2 (.tryAcquireLock 60000) (.ok true), .op 2 .now 300000,
    .op 2 (.zrangebyscore 0) (.ok [echoHost, echoJob]), .op 2 .cancelled false]

/-- The registration for the service name cannot be read, and the sweep goes on to the id. -/
def sweptByJob : List Event := sweptWhileServing ++
  [.op 2 (.deferral echoHost) none, .op 2 (.hasInFlight echoHost) false,
    .op 2 (.store (.hget .byJob echoHost.val)) (.error (.store "connection reset")),
    .op 2 .cancelled false]

theorem guarded_not_scaled_down : ∃ h s, RunWhere (system echoConfig) (KeyIsJob echoConfig) h s ∧
    (sweepView echoConfig 2 h).key = some echoJob ∧
    step echoConfig s (.op 2 (.scaleDown echoJob "main") (.ok ())) = none := by
  obtain ⟨h₀, s₀, s₁, th, h, s, run, at_, begun, path, guarded, worked⟩ :=
    exists_call echoConfig (KeyIsJob echoConfig) 2 0 echoJob echoJob sweptByJob
      [.op 2 (.hasInFlight echoJob) true]
      (fun h _ => (sweepView echoConfig 2 h).key = some echoJob) (by decide)
  exact ⟨h, s, run_of_call run begun trivial path, worked,
    protectsInFlight echoConfig h₀ s₀ s₁ 2 th echoJob none h s echoJob "main" (.ok ())
      run at_ begun path guarded worked⟩

theorem guarded_scaled_down : ¬ ∀ cfg, ProtectsInFlight cfg fun _ _ _ => True := by
  intro all
  obtain ⟨h₀, s₀, s₁, th, h, s, run, at_, begun, path, guarded, taken⟩ :=
    exists_call echoConfig (fun _ _ _ => True) 2 0 echoHost echoJob sweptWhileServing
      [.op 2 (.hasInFlight echoHost) false, .op 2 (.store (.hget .byJob echoHost.val)) (.ok none),
        .op 2 (.store (.hget .byService echoHost.val)) (.ok (some echoReg))]
      (fun _ s => (step echoConfig s (.op 2 (.scaleDown echoJob "main") (.ok ()))).isSome)
      (by decide)
  have refused := all echoConfig h₀ s₀ s₁ 2 th echoHost none h s echoJob "main" (.ok ())
    run at_ begun path guarded trivial
  simp [refused] at taken

end NScale.Deployment
