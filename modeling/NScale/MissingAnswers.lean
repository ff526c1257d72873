import NScale.WakeJoin

/-!
# Not-found responses on their way

A job-not-found response of Nomad is given to a wake task, which broadcasts it, or to the
caller whose own query it answers. Whoever carries it carries it for the job that Nomad was
asked about.
-/
namespace NScale.WakeCoordinator

/-- The job that the caller has been told, or returns, to be missing. -/
def Call.missing? : Call → Option JobId
  | .spawn reg _ (some (.jobNotFound _)) | .recv reg _ (some (.jobNotFound _)) => some reg.jobId
  | .ensured reg (.error (.jobNotFound _)) => some reg.jobId
  | .refreshed reg (.error (.jobNotFound _)) => some reg.jobId
  | _ => none

/-- The job whose not-found response the task has still to send. -/
def Task.missing? : Task → Option JobId
  | .storeDormant reg _ (.jobNotFound _) | .sendFailure reg _ (.jobNotFound _) => some reg.jobId
  | _ => none

/-- The job that Nomad answers not to know. -/
def Event.notFound? : Event → Option JobId
  | .scaled _ reg _ (.error (.jobNotFound _)) => some reg.jobId
  | .fetched _ reg (.error (.jobNotFound _)) => some reg.jobId
  | .queried _ reg _ (.error (.jobNotFound _)) => some reg.jobId
  | _ => none

/-- The broadcast of a not-found response. -/
def Event.sendsNotFound : Event → Bool
  | .sendFailure _ _ _ (.jobNotFound _) => true
  | _ => false

/-- Who can carry a not-found response. -/
inductive Carrier
  | call (c : ℕ)
  | task (t : ℕ)
  deriving DecidableEq

/-- The job that a caller or a task carries a not-found response for. -/
def State.missing? (s : State) : Carrier → Option JobId
  | .call c => (s.calls c).bind Call.missing?
  | .task t => (s.tasks t).bind Task.missing?

/-- The responses that these carry, they have carried before. -/
def Carries (s t : State) (who : Set Carrier) : Prop :=
  ∀ b ∈ who, t.missing? b = s.missing? b ∨ t.missing? b = none

variable {s s₁ t : State} {who : Set Carrier} {i u w : ℕ} {c : Call} {k : Task} {job : JobId}
  {reg : JobRegistration} {msg : WakeResult} {e : Event}

@[simp] lemma State.missing?_setCall : (s.setCall i c).missing? (.call i) = c.missing? := by
  simp [State.missing?]

@[simp] lemma State.missing?_setTask : (s.setTask u k).missing? (.task u) = k.missing? := by
  simp [State.missing?]

lemma Carries.of_eq (calls : t.calls = s.calls) (tasks : t.tasks = s.tasks) : Carries s t who := by
  intro b _
  left
  cases b <;> simp [State.missing?, calls, tasks]

lemma Carries.setCall (ok : Carries s t who)
    (old : .call i ∈ who → c.missing? = s.missing? (.call i) ∨ c.missing? = none) :
    Carries s (t.setCall i c) who := by
  intro b mem
  cases b with
  | task u => exact ok _ mem
  | call d =>
    by_cases same : d = i
    · subst same
      simpa [State.missing?] using old mem
    · simpa [State.missing?, same] using ok _ mem

lemma Carries.setTask (ok : Carries s t who)
    (old : .task u ∈ who → k.missing? = s.missing? (.task u) ∨ k.missing? = none) :
    Carries s (t.setTask u k) who := by
  intro b mem
  cases b with
  | call d => exact ok _ mem
  | task v =>
    by_cases same : v = u
    · subst same
      simpa [State.missing?] using old mem
    · simpa [State.missing?, same] using ok _ mem

/-- What a send makes a caller carry. -/
lemma Call.missing?_deliver (w : ℕ) (msg : WakeResult) (c : Call) :
    (c.deliver w msg).missing? = c.missing? ∨ (c.deliver w msg).missing? = none ∨
      (∃ id, msg = .jobNotFound id) ∧ ∃ reg : JobRegistration, c.cell? = some (reg.jobId, w) ∧ c.waits? = some w ∧
        (c.deliver w msg).missing? = some reg.jobId := by
  cases c with
  | spawn reg v inbox | recv reg v inbox =>
    cases inbox with
    | some _ => exact .inl rfl
    | none =>
      by_cases same : v = w
      · subst same
        cases msg with
        | jobNotFound id =>
          exact .inr (.inr ⟨⟨id, rfl⟩, reg, rfl, rfl, by simp [Call.deliver, Call.missing?]⟩)
        | _ => exact .inr (.inl (by simp [Call.deliver, Call.missing?]))
      · exact .inr (.inl (by simp [Call.deliver, same, Call.missing?]))
  | _ => exact .inl rfl

lemma Carries.broadcast (other : ∀ id, msg ≠ .jobNotFound id) :
    Carries s (s.broadcast w msg) who := by
  intro b _
  cases b with
  | task u => exact .inl rfl
  | call d =>
    cases at_ : s.calls d with
    | none => simp [State.missing?, at_]
    | some c =>
      rcases Call.missing?_deliver w msg c with same | none_ | ⟨⟨id, sent⟩, -⟩
      · exact .inl (by simpa [State.missing?, at_] using same)
      · exact .inr (by simpa [State.missing?, at_] using none_)
      · exact absurd sent (other id)

/-- Only an answer of Nomad and a broadcast give anybody a not-found response. -/
theorem carries_next (en : e.enabled s = true) (quiet : e.notFound? = none)
    (unsent : e.sendsNotFound = false)
    (consul : ∀ t reg w b id, e ≠ .healthy t reg w b (.error (.jobNotFound id))) :
    Carries s (e.next s) who := by
  have start : Carries s s who := .of_eq rfl rfl
  cases e with
  | begin op => exact (start.setCall fun _ => .inr (by cases op <;> rfl))
  | entry i reg => exact (Carries.of_eq (by simp) (by simp)).setCall fun _ => .inr rfl
  | fastPath | cached | load | tryStart =>
    simp only [Event.next]
    split
    all_goals exact Carries.setCall (.of_eq rfl rfl) fun _ => .inr rfl
  | fetched i reg answer =>
    cases answer with
    | ok found => cases found <;> exact start.setCall fun _ => .inr rfl
    | error e =>
      apply start.setCall
      intro _
      cases e with
      | jobNotFound id => simp [Event.notFound?] at quiet
      | _ => exact .inr rfl
  | queried i reg current answer =>
    cases answer with
    | ok found => cases found <;> exact start.setCall fun _ => .inr rfl
    | error e =>
      apply start.setCall
      intro _
      cases e with
      | jobNotFound id => simp [Event.notFound?] at quiet
      | _ => exact .inr rfl
  | spawn i reg w inbox =>
    have at_ : s.calls i = some (.spawn reg w inbox) := of_decide_eq_true en
    have kept : Carries s ((s.setTask s.nextTask (.acquire reg w)).setCall i (.recv reg w inbox)) who := by
      apply Carries.setCall (start.setTask fun _ => .inr rfl)
      intro _
      left
      rw [State.missing?, at_]
      cases inbox with
      | none => rfl
      | some msg => cases msg <;> rfl
    exact kept
  | recv i reg w msg =>
    have at_ : s.calls i = some (.recv reg w (some msg)) := of_decide_eq_true en
    have kept : Carries s (s.left w) who := .of_eq rfl rfl
    apply kept.setCall
    intro _
    left
    rw [State.missing?, at_]
    cases msg <;> rfl
  | remove i job by_ =>
    exact Carries.setCall (.of_eq rfl rfl) fun _ => .inr (by cases by_ <;> rfl)
  | reset | refreshReady => exact Carries.setCall (.of_eq (by simp) (by simp)) fun _ => .inr rfl
  | store | subscribe | ownSubscribe | timeout | dropFetch | dropRecv | dropQuery | evict
  | refreshStore => exact Carries.setCall (.of_eq rfl rfl) fun _ => .inr rfl
  | scaled t reg w answer =>
    cases answer with
    | ok _ => exact Carries.setTask (.of_eq rfl rfl) fun _ => .inr rfl
    | error e =>
      apply Carries.setTask (.of_eq rfl rfl)
      intro _
      cases e with
      | jobNotFound id => simp [Event.notFound?] at quiet
      | _ => exact .inr rfl
  | healthy t reg w b answer =>
    cases answer with
    | ok ep => exact start.setTask fun _ => .inr rfl
    | error e =>
      apply start.setTask
      intro _
      cases e with
      | jobNotFound id => exact absurd rfl (consul t reg w b id)
      | _ => exact .inr rfl
  | pollReceivers t reg w b =>
    simp only [Event.next]
    split_ifs
    all_goals exact start.setTask fun _ => .inr rfl
  | storeDormant t reg w why =>
    have at_ : s.tasks t = some (.storeDormant reg w why) := of_decide_eq_true en
    have kept : Carries s (s.setStatus w .dormant) who := .of_eq rfl rfl
    apply kept.setTask
    intro _
    left
    rw [State.missing?, at_]
    cases why <;> rfl
  | sendReady t reg w ep => exact (Carries.broadcast (by simp)).setTask fun _ => .inr rfl
  | sendFailure t reg w why =>
    apply Carries.setTask (Carries.broadcast _) fun _ => .inr rfl
    rintro id rfl
    simp [Event.sendsNotFound] at unsent
  | acquire | publish | storeReady | removeEntry =>
    exact Carries.setTask (.of_eq rfl rfl) fun _ => .inr rfl

/-- An answer of Nomad is given to one caller or to one task. -/
theorem carries_notFound (found : e.notFound? = some job) :
    ∃ b, (e.next s).missing? b = some job ∧ Carries s (e.next s) {b}ᶜ := by
  cases e with
  | scaled t reg w answer =>
    cases answer with
    | ok _ => cases found
    | error e =>
      cases e with
      | jobNotFound id =>
        refine ⟨.task t, State.missing?_setTask.trans found, ?_⟩
        exact Carries.setTask (.of_eq rfl rfl) fun mem => absurd rfl mem
      | _ => cases found
  | fetched i reg answer =>
    cases answer with
    | ok _ => cases found
    | error e =>
      cases e with
      | jobNotFound id =>
        refine ⟨.call i, State.missing?_setCall.trans found, ?_⟩
        exact Carries.setCall (.of_eq rfl rfl) fun mem => absurd rfl mem
      | _ => cases found
  | queried i reg current answer =>
    cases answer with
    | ok _ => cases found
    | error e =>
      cases e with
      | jobNotFound id =>
        refine ⟨.call i, State.missing?_setCall.trans found, ?_⟩
        exact Carries.setCall (.of_eq rfl rfl) fun mem => absurd rfl mem
      | _ => cases found
  | _ => cases found

/-- The callers that the next message on the channel of `w` reaches. -/
def State.waiting (s : State) (w : ℕ) : Set ℕ := {d | (s.calls d).bind Call.waits? = some w}

/-- A broadcast hands the response of its task on to the callers that wait for it. -/
theorem carries_sent {id : String} (wf : WellFormed s)
    (en : (Event.sendFailure u reg w (.jobNotFound id)).enabled s = true)
    (next : t = Event.next s (.sendFailure u reg w (.jobNotFound id))) :
    s.missing? (.task u) = some reg.jobId ∧ t.missing? (.task u) = none ∧
      ∀ b, t.missing? b = s.missing? b ∨ t.missing? b = none ∨
        ∃ d ∈ s.waiting w, b = .call d ∧ t.missing? b = some reg.jobId := by
  have at_ : s.tasks u = some (.sendFailure reg w (.jobNotFound id)) := of_decide_eq_true en
  have left_ : t.missing? (.task u) = none := by
    rw [next]
    exact State.missing?_setTask
  refine ⟨by simp [State.missing?, at_, Task.missing?], left_, fun b => ?_⟩
  cases b with
  | task v =>
    by_cases same : v = u
    · exact .inr (.inl (same ▸ left_))
    · exact .inl (by simp [next, Event.next, State.missing?, same])
  | call d =>
    cases found : s.calls d with
    | none => exact .inl (by simp [next, Event.next, State.missing?, found])
    | some c =>
      have told : t.missing? (.call d) = (c.deliver w (.jobNotFound id)).missing? := by
        simp [next, Event.next, State.missing?, found]
      rw [told, State.missing?, found]
      rcases Call.missing?_deliver w (.jobNotFound id) c with
        same | none_ | ⟨-, reg', held, waits, told⟩
      · exact .inl same
      · exact .inr (.inl none_)
      · have key : (s.cells w).key = reg'.jobId := (wf.callCell found held).2
        have own : (s.cells w).key = reg.jobId := (wf.taskCell at_ rfl).2
        refine .inr (.inr ⟨d, ?_, rfl, told.trans (congrArg some (key.symm.trans own))⟩)
        simpa [State.waiting, found] using waits

end NScale.WakeCoordinator
