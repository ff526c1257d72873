import NScale.Deployment

/-!
# What a step does to a thread

The rule by which properties of threads are proved: a step moves a thread on, leaves it as it
is, or starts it. The state of a monitor that follows one thread is a function of the history,
so that a program which keeps to the monitor does so in every run.
-/
namespace NScale.Deployment
open Service Transition

variable {cfg : Config} {s t : State} {e : Event} {i : ℕ} {th next : Thread}

/-- The operation of a thread that the step answers. -/
def Event.thread? : Event → Option ℕ
  | .op i _ _ => some i
  | _ => none

/-- What a step makes of the thread with this number. -/
inductive Moved (i : ℕ) (th : Thread) : Event → Thread → Prop
  | same {e : Event} (other : e.thread? ≠ some i) : Moved i th e th
  | answered {op : Op} {a : op.Answer} {code : Code Unit}
      (done : th.code.answered? op a = some code) :
      Moved i th (.op i op a) { th with code := code, own := th.own.after op a }
  | relayed (done : th.code = .pure ()) :
      Moved i th (.relayed i) { th with own := { th.own with exchange := none } }
  | dropped : Moved i th (.disconnect i) ⟨th.replica, .pure (), .nothing, true⟩

lemma Moved.replica (moved : Moved i th e next) : next.replica = th.replica := by
  cases moved <;> rfl

/-- The code that a new thread runs. -/
inductive Entry (cfg : Config) : Code Unit → Prop
  | request (req : Request) : Entry cfg (activityService cfg req)
  | tick : Entry cfg (ScaleDownController.tick cfg)
  | allocation (a : Allocation) : Entry cfg (processAllocationEvent cfg a)
  | admin (reg : JobRegistration) : Entry cfg (adminRegister cfg reg)
  | task (task : Task) : Entry cfg task.code

/-- The thread that a step starts. -/
def starts (cfg : Config) (s : State) : Event → Option Thread
  | .arrive r req => some ⟨r, activityService cfg req, .nothing, true⟩
  | .tick r => some ⟨r, ScaleDownController.tick cfg, .nothing, false⟩
  | .allocation r a => some ⟨r, processAllocationEvent cfg a, .nothing, false⟩
  | .admin r reg => some ⟨r, adminRegister cfg reg, .nothing, false⟩
  | .op i op _ => (s.threads i).bind fun th => spawned th op
  | .beat i => (s.threads i).bind fun th => th.own.heartbeat.map fun job =>
      ⟨th.replica, Task.code (.recordActivity job), .nothing, false⟩
  | _ => none

lemma spawned_entry {op : Op} (h : spawned th op = some next) : Entry cfg next.code := by
  cases op with
  | spawn task =>
    have code : next.code = task.code := by
      cases task <;> obtain rfl := Option.some.inj h <;> rfl
    exact code ▸ .task task
  | _ => simp [spawned] at h

lemma starts_entry (h : starts cfg s e = some th) : Entry cfg th.code := by
  cases e with
  | arrive r req => obtain rfl := Option.some.inj h; exact .request req
  | tick r => obtain rfl := Option.some.inj h; exact .tick
  | allocation r a => obtain rfl := Option.some.inj h; exact .allocation a
  | admin r reg => obtain rfl := Option.some.inj h; exact .admin reg
  | op i op a =>
    obtain ⟨parent, -, hs⟩ := Option.bind_eq_some_iff.mp h
    exact spawned_entry hs
  | beat i =>
    obtain ⟨parent, -, hs⟩ := Option.bind_eq_some_iff.mp h
    obtain ⟨job, -, rfl⟩ := Option.map_eq_some_iff.mp hs
    exact .task (.recordActivity job)
  | _ => simp [starts] at h

lemma guardDropped_threads (s : State) (r : ℕ) (guard : Option JobId) :
    (s.guardDropped r guard).threads = s.threads ∧
      (s.guardDropped r guard).nextThread = s.nextThread := by
  cases guard <;> exact ⟨rfl, rfl⟩

/-- The world answers without touching the threads. -/
lemma answer_threads {r : ℕ} {own : Own} {op : Op} {a : op.Answer}
    (h : s.answer r own op a = some t) : t.threads = s.threads ∧ t.nextThread = s.nextThread := by
  unfold State.answer at h
  split at h
  case h_13 =>
    obtain rfl := Option.some.inj h
    exact guardDropped_threads s r own.guard
  all_goals
    first
    | (cases h; exact ⟨rfl, rfl⟩)
    | (split at h <;> cases h <;> first | exact ⟨rfl, rfl⟩ | (split <;> exact ⟨rfl, rfl⟩))

lemma dropped_threads {r : ℕ} {op : Op} (h : s.dropped r op = some t) :
    t.threads = s.threads ∧ t.nextThread = s.nextThread := by
  unfold State.dropped at h
  split at h
  · obtain ⟨c, -, rfl⟩ := Option.map_eq_some_iff.mp h
    exact ⟨rfl, rfl⟩
  · obtain ⟨c, -, rfl⟩ := Option.map_eq_some_iff.mp h
    exact ⟨rfl, rfl⟩
  · split at h
    · obtain rfl := Option.some.inj h
      exact ⟨rfl, rfl⟩
    · cases h

lemma startedAll_cases (new : Option Thread) (h : (s.startedAll new).threads i = some next) :
    s.threads i = some next ∨ (i = s.nextThread ∧ new = some next) := by
  cases new with
  | none => exact .inl h
  | some th =>
    by_cases hi : i = s.nextThread
    · subst hi
      exact .inr ⟨rfl, by simpa [State.startedAll] using h⟩
    · exact .inl (by simpa [State.startedAll, hi] using h)

/-- A step moves a thread on, or starts it. -/
theorem thread_cases (taken : step cfg s e = some t) (ht : t.threads i = some next) :
    (∃ th, s.threads i = some th ∧ Moved i th e next) ∨
      (i = s.nextThread ∧ starts cfg s e = some next) := by
  cases e with
  | arrive r req | admin r reg =>
    obtain rfl := Option.some.inj taken
    rcases startedAll_cases (some _) ht with old | new
    · exact .inl ⟨next, old, .same (by simp [Event.thread?])⟩
    · exact .inr new
  | tick r | allocation r a =>
    simp only [step] at taken
    split at taken
    · obtain rfl := Option.some.inj taken
      rcases startedAll_cases (some _) ht with old | new
      · exact .inl ⟨next, old, .same (by simp [Event.thread?])⟩
      · exact .inr new
    · cases taken
  | op j op a =>
    obtain ⟨th, hth, taken⟩ := Option.bind_eq_some_iff.mp taken
    obtain ⟨code, hcode, taken⟩ := Option.bind_eq_some_iff.mp taken
    obtain ⟨u, hu, taken⟩ := Option.bind_eq_some_iff.mp taken
    obtain rfl := Option.some.inj taken
    obtain ⟨same, fresh⟩ := answer_threads hu
    rcases startedAll_cases _ ht with old | ⟨hi, new⟩
    · left
      by_cases hj : i = j
      · subst hj
        obtain rfl : _ = next := by simpa using old
        exact ⟨th, hth, .answered hcode⟩
      · exact ⟨next, by simpa [hj, same] using old, .same (by simpa [Event.thread?] using Ne.symm hj)⟩
    · exact .inr ⟨hi.trans fresh, by simp [starts, hth, new]⟩
  | coord r e =>
    simp only [step] at taken
    split at taken
    · obtain rfl := Option.some.inj taken
      exact .inl ⟨next, ht, .same (by simp [Event.thread?])⟩
    · cases taken
  | beat j =>
    obtain ⟨th, hth, taken⟩ := Option.bind_eq_some_iff.mp taken
    obtain ⟨job, hjob, taken⟩ := Option.bind_eq_some_iff.mp taken
    obtain rfl := Option.some.inj taken
    rcases startedAll_cases (some _) ht with old | ⟨hi, new⟩
    · exact .inl ⟨next, old, .same (by simp [Event.thread?])⟩
    · exact .inr ⟨hi, by simpa [starts, hth, hjob] using new⟩
  | relayed j =>
    simp only [step] at taken
    split at taken
    next r own client hth =>
      split at taken
      · obtain rfl := Option.some.inj taken
        left
        by_cases hj : i = j
        · subst hj
          obtain rfl : _ = next := by simpa using ht
          exact ⟨_, hth, .relayed rfl⟩
        · exact ⟨next, by simpa [hj] using ht, .same (by simp [Event.thread?])⟩
      · cases taken
    next => cases taken
  | disconnect j =>
    simp only [step] at taken
    split at taken
    next r op rest own hth =>
      obtain ⟨u, hu, taken⟩ := Option.bind_eq_some_iff.mp taken
      obtain rfl := Option.some.inj taken
      left
      by_cases hj : i = j
      · subst hj
        obtain rfl : _ = next := by simpa using ht
        exact ⟨_, hth, .dropped⟩
      · have same : (u.guardDropped r own.guard).threads = s.threads :=
          (guardDropped_threads u r own.guard).1.trans (dropped_threads hu).1
        exact ⟨next, by simpa [hj, same] using ht, .same (by simp [Event.thread?])⟩
    next => cases taken
  | advance d | cancel r =>
    obtain rfl := Option.some.inj taken
    exact .inl ⟨next, ht, .same (by simp [Event.thread?])⟩

lemma startedAll_nextThread (s : State) (new : Option Thread) :
    (s.startedAll new).nextThread = s.nextThread + new.toList.length := by
  cases new <;> rfl

/-- A thread number is used once. -/
lemma nextThread_eq (taken : step cfg s e = some t) :
    t.nextThread = s.nextThread + (starts cfg s e).toList.length := by
  cases e with
  | arrive | admin | advance | cancel => obtain rfl := Option.some.inj taken; rfl
  | tick | allocation | coord =>
    simp only [step] at taken
    split at taken
    · obtain rfl := Option.some.inj taken; rfl
    · cases taken
  | op j op a =>
    obtain ⟨th, hth, taken⟩ := Option.bind_eq_some_iff.mp taken
    obtain ⟨code, hcode, taken⟩ := Option.bind_eq_some_iff.mp taken
    obtain ⟨u, hu, taken⟩ := Option.bind_eq_some_iff.mp taken
    obtain rfl := Option.some.inj taken
    rw [startedAll_nextThread, State.setThread_nextThread, (answer_threads hu).2]
    simp [starts, hth]
  | beat j =>
    obtain ⟨th, hth, taken⟩ := Option.bind_eq_some_iff.mp taken
    obtain ⟨job, hjob, taken⟩ := Option.bind_eq_some_iff.mp taken
    obtain rfl := Option.some.inj taken
    simp [starts, hth, hjob]
  | relayed j =>
    simp only [step] at taken
    split at taken
    · split at taken
      · obtain rfl := Option.some.inj taken; rfl
      · cases taken
    · cases taken
  | disconnect j =>
    simp only [step] at taken
    split at taken
    next r op rest own hth =>
      obtain ⟨u, hu, taken⟩ := Option.bind_eq_some_iff.mp taken
      obtain rfl := Option.some.inj taken
      exact ((guardDropped_threads u r own.guard).2.trans (dropped_threads hu).2)
    next => cases taken

/-- What the replicas share: the clock and the stores. -/
structure Shared where
  time : ℕ
  activity : AList fun _ : JobId => ℕ
  lock : Option (ℕ × ℕ)
  missing : JobId → ℕ
  store : JobRegistry.Store

def State.shared (s : State) : Shared := ⟨s.time, s.activity, s.lock, s.missing, s.store⟩

lemma guardDropped_shared (s : State) (r : ℕ) (guard : Option JobId) :
    (s.guardDropped r guard).shared = s.shared := by
  cases guard <;> rfl

lemma startedAll_shared (s : State) (new : Option Thread) :
    (s.startedAll new).shared = s.shared := by
  cases new <;> rfl

lemma dropped_shared {r : ℕ} {op : Op} (h : s.dropped r op = some t) : t.shared = s.shared := by
  unfold State.dropped at h
  split at h
  · obtain ⟨c, -, rfl⟩ := Option.map_eq_some_iff.mp h
    rfl
  · obtain ⟨c, -, rfl⟩ := Option.map_eq_some_iff.mp h
    rfl
  · split at h
    · cases h; rfl
    · cases h

/-- Time passes, or what is shared changes by the answer of one operation, or not at all. -/
theorem step_shared (taken : step cfg s e = some t) :
    (e.thread? = none ∧ t.shared = s.shared) ∨
      (∃ i op a th u, e = .op i op a ∧ s.threads i = some th ∧
        s.answer th.replica th.own op a = some u ∧ t.shared = u.shared) ∨
      ∃ millis, e = .advance millis ∧ t.shared = { s.shared with time := s.time + millis } := by
  cases e with
  | arrive | admin | cancel =>
    obtain rfl := Option.some.inj taken
    exact .inl ⟨rfl, rfl⟩
  | advance millis =>
    obtain rfl := Option.some.inj taken
    exact .inr (.inr ⟨millis, rfl, rfl⟩)
  | tick | allocation | coord =>
    simp only [step] at taken
    split at taken
    · obtain rfl := Option.some.inj taken
      exact .inl ⟨rfl, rfl⟩
    · cases taken
  | op i op a =>
    obtain ⟨th, at_, taken⟩ := Option.bind_eq_some_iff.mp taken
    obtain ⟨code, -, taken⟩ := Option.bind_eq_some_iff.mp taken
    obtain ⟨u, hu, taken⟩ := Option.bind_eq_some_iff.mp taken
    obtain rfl := Option.some.inj taken
    exact .inr (.inl ⟨i, op, a, th, u, rfl, at_, hu, startedAll_shared _ _⟩)
  | beat i =>
    obtain ⟨th, -, taken⟩ := Option.bind_eq_some_iff.mp taken
    obtain ⟨job, -, taken⟩ := Option.bind_eq_some_iff.mp taken
    obtain rfl := Option.some.inj taken
    exact .inl ⟨rfl, rfl⟩
  | relayed i =>
    simp only [step] at taken
    split at taken
    · split at taken
      · obtain rfl := Option.some.inj taken
        exact .inl ⟨rfl, rfl⟩
      · cases taken
    · cases taken
  | disconnect i =>
    simp only [step] at taken
    split at taken
    next r op rest own at_ =>
      obtain ⟨u, hu, taken⟩ := Option.bind_eq_some_iff.mp taken
      obtain rfl := Option.some.inj taken
      exact .inl ⟨rfl, (guardDropped_shared u r own.guard).trans (dropped_shared hu)⟩
    next => cases taken

/-- Induction over a run for a property of each thread. -/
theorem threads_of_run {C : Condition State Event} {h : List Event}
    (P : List Event → ℕ → Thread → Prop)
    (new : ∀ h s t e th, RunWhere (system cfg) C h s → step cfg s e = some t → C h s e →
      (∀ i th, s.threads i = some th → P h i th) → starts cfg s e = some th →
      P (e :: h) s.nextThread th)
    (move : ∀ h s t e i th next, RunWhere (system cfg) C h s → step cfg s e = some t → C h s e →
      s.threads i = some th → P h i th → Moved i th e next → P (e :: h) i next)
    (run : RunWhere (system cfg) C h s) (ht : s.threads i = some th) : P h i th := by
  have all : ∀ i th, s.threads i = some th → P h i th := by
    apply run.invariant fun h s => ∀ i th, s.threads i = some th → P h i th
    · intro i th ht
      simp [system, initial] at ht
    · intro h s t e prior ih taken cond i next ht
      rcases thread_cases taken ht with ⟨th, hth, moved⟩ | ⟨rfl, started⟩
      · exact move h s t e i th next prior taken cond hth (ih i th hth) moved
      · exact new h s t e next prior taken cond ih started
  exact all i th ht

variable {C : Condition State Event} {h : List Event}

lemma thread_lt (run : RunWhere (system cfg) C h s) (ht : s.threads i = some th) :
    i < s.nextThread := by
  have all : ∀ i th, s.threads i = some th → i < s.nextThread := by
    apply run.state_invariant fun s => ∀ i th, s.threads i = some th → i < s.nextThread
    · intro i th ht
      simp [system, initial] at ht
    · intro h s t e ih taken _ i next ht
      rw [nextThread_eq taken]
      rcases thread_cases taken ht with ⟨th, hth, -⟩ | ⟨rfl, started⟩
      · exact Nat.lt_add_right _ (ih i th hth)
      · simp [started]
  exact all i th ht

lemma acting_lt (run : RunWhere (system cfg) C h s) (taken : step cfg s e = some t)
    (acts : e.thread? = some i) : i < s.nextThread := by
  cases e with
  | op j op a =>
    obtain ⟨th, hth, -⟩ := Option.bind_eq_some_iff.mp taken
    exact Option.some.inj acts ▸ thread_lt run hth
  | _ => cases acts

section Observed
variable {μ : Type} (M : Monitor Ops μ) (m₀ : μ)

/-- The state of a monitor that has followed thread `i` from its start. -/
def observed (i : ℕ) : List Event → μ
  | [] => m₀
  | .op j op a :: h => if j = i then M.next (observed i h) op a else observed i h
  | _ :: h => observed i h

variable {M : Monitor Ops μ} {m₀ : μ}

lemma observed_other (other : e.thread? ≠ some i) :
    observed M m₀ i (e :: h) = observed M m₀ i h := by
  cases e with
  | op j op a => exact if_neg fun hj => other (congrArg some hj)
  | _ => rfl

/-- An event is an operation of the thread, which the monitor sees, or is none of it. -/
lemma observed_cases (M : Monitor Ops μ) (m₀ : μ) (i : ℕ) (e : Event) (h : List Event) :
    (∃ op a, e = .op i op a ∧ observed M m₀ i (e :: h) = M.next (observed M m₀ i h) op a) ∨
      (e.thread? ≠ some i ∧ observed M m₀ i (e :: h) = observed M m₀ i h) := by
  by_cases acts : e.thread? = some i
  · cases e with
    | op j op a =>
      obtain rfl := Option.some.inj acts
      exact .inl ⟨op, a, rfl, if_pos rfl⟩
    | _ => cases acts
  · exact .inr ⟨acts, observed_other acts⟩

/-- A thread that has not started has not been observed. -/
lemma observed_fresh (run : RunWhere (system cfg) C h s) (fresh : s.nextThread ≤ i) :
    observed M m₀ i h = m₀ := by
  have all : ∀ i, s.nextThread ≤ i → observed M m₀ i h = m₀ := by
    apply run.invariant fun h s => ∀ i, s.nextThread ≤ i → observed M m₀ i h = m₀
    · exact fun i _ => rfl
    · intro h s t e prior ih taken _ i fresh
      rw [nextThread_eq taken] at fresh
      rw [observed_other, ih i (by omega)]
      intro acts
      have := acting_lt prior taken acts
      omega
  exact all i fresh

/-- Code that keeps to a monitor does so in every run whose answers the monitor assumes. -/
theorem meets_observed (entry : ∀ c, Entry cfg c → c.Meets M (fun _ _ => True) m₀)
    (assumed : ∀ h s t i op a, RunWhere (system cfg) C h s → C h s (.op i op a) →
      step cfg s (.op i op a) = some t → M.assumes (observed M m₀ i h) op a)
    (run : RunWhere (system cfg) C h s) (ht : s.threads i = some th) :
    th.code.Meets M (fun _ _ => True) (observed M m₀ i h) := by
  apply threads_of_run (fun h i th => th.code.Meets M (fun _ _ => True) (observed M m₀ i h)) _ _ run ht
  · intro h s t e th prior taken cond _ started
    have fresh : observed M m₀ s.nextThread (e :: h) = m₀ := by
      rw [observed_other, observed_fresh prior le_rfl]
      exact fun acts => (acting_lt prior taken acts).false
    rw [fresh]
    exact entry th.code (starts_entry started)
  · intro h s t e i th next prior taken cond hth ok moved
    cases moved with
    | same other => rwa [observed_other other]
    | @answered op a code done =>
      have rest := (ok.answered done).2 (assumed h s t i op a prior cond taken)
      simpa [observed] using rest
    | relayed done => exact ok
    | dropped => trivial

/-- What the monitor requires of an operation holds whenever a thread performs it. -/
theorem required_of_step {op : Op} {a : op.Answer}
    (entry : ∀ c, Entry cfg c → c.Meets M (fun _ _ => True) m₀)
    (assumed : ∀ h s t i op a, RunWhere (system cfg) C h s → C h s (.op i op a) →
      step cfg s (.op i op a) = some t → M.assumes (observed M m₀ i h) op a)
    (run : RunWhere (system cfg) C h s) (taken : step cfg s (.op i op a) = some t) :
    M.requires (observed M m₀ i h) op := by
  obtain ⟨th, at_, taken⟩ := Option.bind_eq_some_iff.mp taken
  obtain ⟨code, done, -⟩ := Option.bind_eq_some_iff.mp taken
  exact ((meets_observed entry assumed run at_).answered done).1

end Observed
end NScale.Deployment
