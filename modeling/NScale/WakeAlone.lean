import NScale.WakeBackend

/-!
# One caller alone

A stretch of a run in which only one call, if any is awaited, and the wake tasks that were
not yet spawned take steps, while Nomad does not report a given endpoint. What is cached
after it is followed through `refresh_endpoint`, `ensure_running` and `mark_dormant`: the
endpoint comes back only if a wake task puts it there.
-/
namespace NScale.WakeCoordinator
open Transition

/-- The call that takes the step. -/
def Event.caller? : Event → Option ℕ
  | .fastPath i _ | .entry i _ | .load i _ _ | .cached i _ | .fetched i _ _ | .store i _ _ => some i
  | .subscribe i _ _ | .tryStart i _ _ | .ownSubscribe i _ _ | .spawn i _ _ _ => some i
  | .recv i _ _ _ | .timeout i _ _ | .evict i _ _ | .reset i _ _ | .remove i _ _ => some i
  | .queried i _ _ _ | .refreshStore i _ _ _ | .refreshReady i _ _ _ => some i
  | _ => none

/-- The wake task that takes the step. -/
def Event.worker? : Event → Option ℕ
  | .acquire t _ _ | .scaled t _ _ _ | .healthy t _ _ _ _ | .pollReceivers t _ _ _ => some t
  | .publish t _ _ _ | .storeReady t _ _ _ | .sendReady t _ _ _ | .storeDormant t _ _ _ => some t
  | .sendFailure t _ _ _ | .removeEntry t _ _ => some t
  | _ => none

/-- Nomad, if asked for a running endpoint, names none or another one. -/
def Event.Denies (e : Endpoint) : Event → Prop
  | .queried _ _ _ answer | .fetched _ _ answer => ∃ o, answer = .ok o ∧ o ≠ some e
  | _ => True

/-- Steps of the awaited call and of the wake tasks from `t₀` on. -/
def Alone (awaited : Option ℕ) (t₀ : ℕ) (e : Endpoint) : Condition State Event := fun _ _ ev =>
  ((∃ c, awaited = some c ∧ ev.caller? = some c) ∨ ∃ t, ev.worker? = some t ∧ t₀ ≤ t) ∧ ev.Denies e

instance (e : Endpoint) (ev : Event) : Decidable (ev.Denies e) := by
  unfold Event.Denies
  split
  · next answer =>
    cases answer with
    | ok o => exact decidable_of_iff (o ≠ some e) (by simp)
    | error _ => exact isFalse (by simp)
  · next answer =>
    cases answer with
    | ok o => exact decidable_of_iff (o ≠ some e) (by simp)
    | error _ => exact isFalse (by simp)
  · infer_instance

instance (awaited : Option ℕ) (t₀ : ℕ) (e : Endpoint) (h : List Event) (s : State) (ev : Event) :
    Decidable (Alone awaited t₀ e h s ev) :=
  decidable_of_iff (((awaited.any fun c => ev.caller? = some c) = true ∨
    (ev.worker?.any fun t => t₀ ≤ t) = true) ∧ ev.Denies e) (by simp [Alone, Option.any_eq_true])

/-- A wake task puts the endpoint of the job into the cache. -/
def Event.Publishes (job : JobId) (e : Endpoint) : Event → Prop
  | .publish _ reg _ ep => reg.jobId = job ∧ ep = e
  | _ => False

def Published (job : JobId) (e : Endpoint) (h : List Event) : Prop := ∃ ev ∈ h, ev.Publishes job e

/-- The task has published nothing. -/
def Task.early : Task → Bool
  | .storeReady .. | .sendReady .. | .finished => false
  | _ => true

/-- The task will publish nothing any more. -/
def Task.spent : Task → Bool
  | .removeEntry .. | .finished => true
  | _ => false

/-- A caller of `ensure_running` that has started no wake. -/
def Call.Starting (reg : JobRegistration) (e : Endpoint) : Call → Prop
  | .fastPath r | .entry r | .load r _ | .cached r | .fetch r => r = reg
  | .subscribe r _ | .tryStart r _ | .ownSubscribe r _ => r = reg
  | .store r ep => r = reg ∧ ep ≠ e
  | .spawn r _ inbox => r = reg ∧ inbox = none
  | _ => False

/-- A caller of `ensure_running` that waits for a wake or has returned. -/
def Call.Waiting : Call → Prop
  | .recv .. | .ensured .. => True
  | _ => False

/-- The caller learns that Nomad does not know the job. -/
def Call.Told : Call → Prop
  | .recv _ _ (some (.jobNotFound _)) | .ensured _ (.error (.jobNotFound _)) => True
  | _ => False

section
variable {n timeout c t₀ t : ℕ} {e : Endpoint} {job : JobId} {reg : JobRegistration} {ev : Event}
  {k k' : Task} {h h₀ : List Event} {s s' s₀ : State}

lemma published_cons :
    Published job e (ev :: h) ↔ ev.Publishes job e ∨ Published job e h := by
  simp [Published]

/-- At most the wake task `t₀` has been spawned, and the endpoint is cached if and only if this
task has published it. -/
structure OneTask (job : JobId) (e : Endpoint) (t₀ : ℕ) (h : List Event) (s : State) : Prop where
  alone : ∀ t, t₀ < t → s.tasks t = none
  own : ∀ {k reg}, s.tasks t₀ = some k → k.reg? = some reg → reg.jobId = job
  early : (s.tasks t₀).all Task.early = true → ¬ Published job e h
  cached : s.endpoints job = some e ↔ Published job e h

namespace OneTask

/-- A step that leaves the tasks and the cache as they are. -/
lemma of_eq (one : OneTask job e t₀ h s) (quiet : ¬ ev.Publishes job e) (tasks : s'.tasks = s.tasks)
    (endpoints : s'.endpoints = s.endpoints) : OneTask job e t₀ (ev :: h) s' := by
  refine ⟨?_, ?_, ?_, ?_⟩
  · rw [tasks]; exact one.alone
  · rw [tasks]; exact one.own
  · rw [tasks, published_cons]; exact fun early => not_or.mpr ⟨quiet, one.early early⟩
  · rw [endpoints, one.cached, published_cons, or_iff_right quiet]

/-- A step of the task other than the one that publishes. -/
lemma setTask (one : OneTask job e t₀ h s) (at_ : s.tasks t₀ = some k)
    (quiet : ¬ ev.Publishes job e) (tasks : s'.tasks = Function.update s.tasks t₀ (some k'))
    (endpoints : s'.endpoints = s.endpoints) (same : ∀ reg, k'.reg? = some reg → k.reg? = some reg)
    (early : k'.early = true → k.early = true) : OneTask job e t₀ (ev :: h) s' := by
  refine ⟨?_, ?_, ?_, ?_⟩
  · intro t later
    rw [tasks, Function.update_of_ne later.ne']
    exact one.alone t later
  · intro l reg hl hr
    obtain rfl : k' = l := by simpa [tasks] using hl
    exact one.own at_ (same reg hr)
  · intro fresh
    rw [published_cons]
    exact not_or.mpr ⟨quiet, one.early (by simpa [at_] using early (by simpa [tasks] using fresh))⟩
  · rw [endpoints, one.cached, published_cons, or_iff_right quiet]

lemma publish (one : OneTask job e t₀ h s) {w : ℕ} {ep : Endpoint}
    (at_ : s.tasks t₀ = some (.publish reg w ep)) :
    OneTask job e t₀ (.publish t₀ reg w ep :: h) (Event.next s (.publish t₀ reg w ep)) := by
  obtain rfl := one.own at_ rfl
  have fresh : ¬ Published reg.jobId e h := one.early (by simp [at_, Task.early])
  refine ⟨?_, ?_, ?_, ?_⟩
  · intro t later
    simpa [Event.next, later.ne'] using one.alone t later
  · intro l reg' hl hr
    obtain rfl : Task.storeReady reg w ep = l := by simpa [Event.next] using hl
    obtain rfl := Option.some.inj hr
    rfl
  · simp [Event.next, Task.early]
  · simp [Event.next, published_cons, Event.Publishes, fresh]

/-- One step of the task. -/
lemma worker (one : OneTask job e t₀ h s) (own : ev.worker? = some t₀)
    (en : ev.enabled s = true) : OneTask job e t₀ (ev :: h) (ev.next s) := by
  cases ev with
  | acquire u reg w =>
    obtain rfl : u = t₀ := Option.some.inj own
    exact one.setTask (of_decide_eq_true en).1 id rfl rfl (by simp [Task.reg?]) (by simp [Task.early])
  | scaled u reg w answer =>
    obtain rfl : u = t₀ := Option.some.inj own
    have at_ := of_decide_eq_true en
    simp only [Event.next]
    split <;> exact one.setTask at_ id rfl rfl (by simp [Task.reg?]) (by simp [Task.early])
  | healthy u reg w saw answer =>
    obtain rfl : u = t₀ := Option.some.inj own
    have at_ := of_decide_eq_true en
    simp only [Event.next]
    split <;> exact one.setTask at_ id rfl rfl (by simp [Task.reg?]) (by simp [Task.early])
  | pollReceivers u reg w saw =>
    obtain rfl : u = t₀ := Option.some.inj own
    have at_ := of_decide_eq_true en
    simp only [Event.next]
    split_ifs <;> exact one.setTask at_ id rfl rfl (by simp [Task.reg?]) (by simp [Task.early])
  | publish u reg w ep =>
    obtain rfl : u = t₀ := Option.some.inj own
    exact one.publish (of_decide_eq_true en)
  | storeReady u reg w | sendReady u reg w | storeDormant u reg w | sendFailure u reg w
  | removeEntry u reg w =>
    obtain rfl : u = t₀ := Option.some.inj own
    exact one.setTask (of_decide_eq_true en) id rfl rfl (by simp [Task.reg?]) (by simp [Task.early])
  | _ => simp [Event.worker?] at own

end OneTask

/-- A wake task that takes a step has been spawned. -/
lemma task_of_worker (own : ev.worker? = some t) (en : ev.enabled s = true) :
    ∃ k, s.tasks t = some k ∧ (k.spent = true → ∃ reg w, ev = .removeEntry t reg w) := by
  cases ev with
  | acquire =>
    obtain rfl := Option.some.inj own
    exact ⟨_, (of_decide_eq_true en).1, by simp [Task.spent]⟩
  | removeEntry u reg w =>
    obtain rfl := Option.some.inj own
    exact ⟨_, of_decide_eq_true en, fun _ => ⟨reg, w, rfl⟩⟩
  | scaled | healthy | pollReceivers | publish | storeReady | sendReady | storeDormant
  | sendFailure =>
    obtain rfl := Option.some.inj own
    exact ⟨_, of_decide_eq_true en, by simp [Task.spent]⟩
  | _ => simp [Event.worker?] at own

/-- The first task is the only one that takes steps. -/
lemma OneTask.eq_of_worker (one : OneTask job e t₀ h s) (own : ev.worker? = some t) (later : t₀ ≤ t)
    (en : ev.enabled s = true) : t = t₀ := by
  obtain ⟨k, at_, -⟩ := task_of_worker own en
  rcases later.eq_or_lt with rfl | lt
  · rfl
  · simp [one.alone t lt] at at_

/-- Where no task was spawned and no call is awaited, nothing happens. -/
lemma alone_idle (idle : ∀ t, t₀ ≤ t → s₀.tasks t = none)
    (run : RunFrom (system n timeout) (Alone none t₀ e) h₀ s₀ h s) : h = h₀ ∧ s = s₀ := by
  refine run.invariant (fun h s => h = h₀ ∧ s = s₀) ⟨rfl, rfl⟩ ?_
  rintro h s u ev - ⟨rfl, rfl⟩ taken ⟨⟨c, none_, -⟩ | ⟨t, own, later⟩, -⟩
  · simp at none_
  · obtain ⟨k, at_, -⟩ := task_of_worker own (step_iff.mp taken).1
    simp [idle t later] at at_

/-- While no call is awaited, only the task goes on. -/
lemma OneTask.alone_none (one : OneTask job e t₀ h₀ s₀)
    (run : RunFrom (system n timeout) (Alone none t₀ e) h₀ s₀ h s) : OneTask job e t₀ h s := by
  refine run.invariant (OneTask job e t₀) one ?_
  rintro h s u ev - one taken ⟨⟨c, none_, -⟩ | ⟨t, own, later⟩, -⟩
  · simp at none_
  · obtain ⟨en, rfl⟩ := step_iff.mp taken
    obtain rfl := one.eq_of_worker own later en
    exact one.worker own en

/-! ## Refreshing the endpoint -/

/-- No wake task was spawned and none has published. -/
structure Untouched (job : JobId) (e : Endpoint) (t₀ : ℕ) (h : List Event) (s : State) : Prop where
  idle : ∀ t, t₀ ≤ t → s.tasks t = none
  nextTask : s.nextTask = t₀
  unpublished : ¬ Published job e h

lemma Untouched.of_eq (un : Untouched job e t₀ h s) (quiet : ¬ ev.Publishes job e)
    (tasks : s'.tasks = s.tasks) (nextTask : s'.nextTask = s.nextTask) :
    Untouched job e t₀ (ev :: h) s' where
  idle := by rw [tasks]; exact un.idle
  nextTask := nextTask.trans un.nextTask
  unpublished := by rw [published_cons]; exact not_or.mpr ⟨quiet, un.unpublished⟩

lemma Untouched.oneTask (un : Untouched job e t₀ h s) (gone : s.endpoints job ≠ some e) :
    OneTask job e t₀ h s where
  alone t later := un.idle t later.le
  own at_ := by simp [un.idle t₀ le_rfl] at at_
  early _ := un.unpublished
  cached := by simp [gone, un.unpublished]

/-- Position of a caller of `refresh_endpoint`, with what is cached at that point. -/
def State.Refreshing (s : State) (reg : JobRegistration) (current e : Endpoint) : Call → Prop
  | .query r p => r = reg ∧ p = current
  | .evict job by_ => job = reg.jobId ∧ by_ = .refresh reg
  | .refreshStore r p ep => r = reg ∧ p = current ∧ ep ≠ e
  | .reset job by_ | .remove job by_ =>
    job = reg.jobId ∧ by_ = .refresh reg ∧ s.endpoints reg.jobId ≠ some e
  | .refreshReady r p _ => r = reg ∧ p = current ∧ s.endpoints reg.jobId ≠ some e
  | .refreshed r result => r = reg ∧ (∃ a, result = .ok a) ∧ s.endpoints reg.jobId ≠ some e
  | _ => False

/-- `refresh_endpoint` alone: it succeeds, and the endpoint that Nomad denies is not cached. -/
lemma alone_refresh {current : Endpoint} (un : Untouched reg.jobId e t₀ h₀ s₀)
    (call : s₀.calls c = some (.query reg current))
    (run : RunFrom (system n timeout) (Alone (some c) t₀ e) h₀ s₀ h s) :
    Untouched reg.jobId e t₀ h s ∧
      ∃ k, s.calls c = some k ∧ s.Refreshing reg current e k := by
  refine run.invariant (fun h s => Untouched reg.jobId e t₀ h s ∧
    ∃ k, s.calls c = some k ∧ s.Refreshing reg current e k) ⟨un, _, call, rfl, rfl⟩ ?_
  rintro h s u ev - ⟨un, k, at_, pos⟩ taken ⟨⟨i, awaited, own⟩ | ⟨t, own, later⟩, denies⟩
  · obtain rfl := Option.some.inj awaited
    obtain ⟨en, rfl⟩ := step_iff.mp taken
    cases ev with
    | queried i r p answer =>
      obtain rfl : i = c := Option.some.inj own
      obtain rfl : k = .query r p := Option.some.inj (at_.symm.trans (of_decide_eq_true en))
      obtain ⟨rfl, rfl⟩ := pos
      obtain ⟨o, rfl, other⟩ := denies
      cases o with
      | none =>
        exact ⟨un.of_eq id rfl rfl, _, Function.update_self .., rfl, rfl⟩
      | some ep =>
        exact ⟨un.of_eq id rfl rfl, _, Function.update_self .., rfl, rfl, fun h => other (h ▸ rfl)⟩
    | evict i job by_ =>
      obtain rfl : i = c := Option.some.inj own
      obtain rfl : k = .evict job by_ := Option.some.inj (at_.symm.trans (of_decide_eq_true en))
      obtain ⟨rfl, rfl⟩ := pos
      refine ⟨un.of_eq id rfl rfl, _, Function.update_self .., rfl, rfl, ?_⟩
      simp [Event.next]
    | reset i job by_ =>
      obtain rfl : i = c := Option.some.inj own
      obtain rfl : k = .reset job by_ := Option.some.inj (at_.symm.trans (of_decide_eq_true en))
      obtain ⟨rfl, rfl, gone⟩ := pos
      refine ⟨un.of_eq id (s.storeStatus_tasks _ _) (s.storeStatus_nextTask _ _), _,
        Function.update_self .., rfl, rfl, ?_⟩
      simp [Event.next, gone]
    | remove i job by_ =>
      obtain rfl : i = c := Option.some.inj own
      obtain rfl : k = .remove job by_ := Option.some.inj (at_.symm.trans (of_decide_eq_true en))
      obtain ⟨rfl, rfl, gone⟩ := pos
      exact ⟨un.of_eq id rfl rfl, _, Function.update_self .., rfl, ⟨_, rfl⟩, gone⟩
    | refreshStore i r p ep =>
      obtain rfl : i = c := Option.some.inj own
      obtain rfl : k = .refreshStore r p ep := Option.some.inj (at_.symm.trans (of_decide_eq_true en))
      obtain ⟨rfl, rfl, other⟩ := pos
      refine ⟨un.of_eq id rfl rfl, _, Function.update_self .., rfl, rfl, ?_⟩
      simpa [Event.next] using other
    | refreshReady i r p ep =>
      obtain rfl : i = c := Option.some.inj own
      obtain rfl : k = .refreshReady r p ep := Option.some.inj (at_.symm.trans (of_decide_eq_true en))
      obtain ⟨rfl, rfl, gone⟩ := pos
      refine ⟨un.of_eq id (s.storeStatus_tasks _ _) (s.storeStatus_nextTask _ _), _,
        Function.update_self .., rfl, ⟨_, rfl⟩, ?_⟩
      simp [Event.next, gone]
    | _ => simp_all [Event.caller?, Event.enabled, State.Refreshing]
  · obtain ⟨k, hk, -⟩ := task_of_worker own (step_iff.mp taken).1
    simp [un.idle t later] at hk

/-! ## Waking the job again -/

/-- The one task is through with a failure. -/
structure Spent (job : JobId) (e : Endpoint) (t₀ : ℕ) (h : List Event) (s : State) : Prop
    extends OneTask job e t₀ h s where
  spent : (s.tasks t₀).all Task.spent = true
  unpublished : ¬ Published job e h

lemma Spent.of_eq (sp : Spent job e t₀ h s) (quiet : ¬ ev.Publishes job e)
    (tasks : s'.tasks = s.tasks) (endpoints : s'.endpoints = s.endpoints) :
    Spent job e t₀ (ev :: h) s' where
  toOneTask := sp.toOneTask.of_eq quiet tasks endpoints
  spent := by rw [tasks]; exact sp.spent
  unpublished := by rw [published_cons]; exact not_or.mpr ⟨quiet, sp.unpublished⟩

lemma Spent.worker (sp : Spent job e t₀ h s) (own : ev.worker? = some t₀)
    (en : ev.enabled s = true) : Spent job e t₀ (ev :: h) (ev.next s) := by
  refine ⟨sp.toOneTask.worker own en, ?_, ?_⟩
  all_goals
    obtain ⟨k, at_, last⟩ := task_of_worker own en
    obtain ⟨reg, w, rfl⟩ := last (by simpa [at_] using sp.spent)
  · simp [Event.next, Task.spent]
  · simpa [published_cons, Event.Publishes] using sp.unpublished

lemma Spent.alone_none (sp : Spent job e t₀ h₀ s₀)
    (run : RunFrom (system n timeout) (Alone none t₀ e) h₀ s₀ h s) : Spent job e t₀ h s := by
  refine run.invariant (Spent job e t₀) sp ?_
  rintro h s u ev - sp taken ⟨⟨c, none_, -⟩ | ⟨t, own, later⟩, -⟩
  · simp at none_
  · obtain ⟨en, rfl⟩ := step_iff.mp taken
    obtain rfl := sp.eq_of_worker own later en
    exact sp.worker own en

/-- Position of a caller of `ensure_running` beside the one task. -/
def State.Rewaking (s : State) (h : List Event) (reg : JobRegistration) (e : Endpoint) (t₀ : ℕ)
    (k : Call) : Prop :=
  k.Starting reg e ∧ s.tasks t₀ = none ∧ s.nextTask = t₀ ∨
    k.Waiting ∧ (k.Told → Spent reg.jobId e t₀ h s)

@[simp] lemma Call.waiting_deliver {w : ℕ} {msg : WakeResult} {k : Call} (waiting : k.Waiting) :
    (k.deliver w msg).Waiting := by
  cases k with
  | recv reg v inbox => cases inbox <;> simp [Call.deliver, Call.Waiting]
  | ensured => trivial
  | _ => simp [Call.Waiting] at waiting

lemma Call.told_deliver {w : ℕ} {msg : WakeResult} {k : Call} (told : (k.deliver w msg).Told) :
    k.Told ∨ ∃ jobId, msg = .jobNotFound jobId := by
  cases k with
  | recv reg v inbox =>
    cases inbox with
    | some => exact .inl told
    | none =>
      by_cases same : v = w
      · cases msg <;> simp_all [Call.deliver, Call.Told]
      · simp [Call.deliver, same, Call.Told] at told
  | spawn reg v inbox => cases inbox <;> simp [Call.deliver, Call.Told] at told
  | _ => exact .inl told

/-- What a step of a wake task does to a caller. -/
lemma calls_of_worker (own : ev.worker? = some t) :
    (ev.next s).calls c = s.calls c ∨
      ∃ w msg, (ev.next s).calls c = (s.calls c).map (Call.deliver w msg) ∧
        ((∃ ep, msg = .ready ep) ∨ ∃ reg, ev = .sendFailure t reg w msg) := by
  cases ev with
  | sendReady u reg w ep => exact .inr ⟨w, .ready ep, rfl, .inl ⟨ep, rfl⟩⟩
  | sendFailure u reg w why =>
    obtain rfl := Option.some.inj own
    exact .inr ⟨w, why, rfl, .inr ⟨reg, rfl⟩⟩
  | scaled | healthy =>
    left
    simp only [Event.next]
    split <;> rfl
  | pollReceivers =>
    left
    simp only [Event.next]
    split_ifs <;> rfl
  | acquire | publish | storeReady | storeDormant | removeEntry => exact .inl rfl
  | _ => simp [Event.worker?] at own

/-- A caller is told that the job is missing only after the task has failed. -/
lemma rewaking_worker {p : Call} (one : OneTask reg.jobId e t₀ h s) (at_ : s.calls c = some p)
    (pos : s.Rewaking h reg e t₀ p) (own : ev.worker? = some t₀) (en : ev.enabled s = true) :
    ∃ p, (ev.next s).calls c = some p ∧ (ev.next s).Rewaking (ev :: h) reg e t₀ p := by
  obtain ⟨k, hk, -⟩ := task_of_worker own en
  obtain ⟨-, none_, -⟩ | ⟨waiting, told⟩ := pos
  · simp [none_] at hk
  rcases calls_of_worker (s := s) (c := c) own with same | ⟨w, msg, sent, what⟩
  · exact ⟨p, same.trans at_, .inr ⟨waiting, fun ht => (told ht).worker own en⟩⟩
  · refine ⟨p.deliver w msg, by simp [sent, at_], .inr ⟨Call.waiting_deliver waiting, fun ht => ?_⟩⟩
    rcases Call.told_deliver ht with before | ⟨jobId, rfl⟩
    · exact (told before).worker own en
    rcases what with ⟨ep, no⟩ | ⟨r, rfl⟩
    · simp at no
    have early : ¬ Published reg.jobId e h :=
      one.early (by simp [show s.tasks t₀ = _ from of_decide_eq_true en, Task.early])
    refine ⟨one.worker own en, ?_, ?_⟩
    · simp [Event.next, Task.spent]
    · simpa [published_cons, Event.Publishes] using early

/-- A step of the caller. -/
lemma rewaking_caller {p : Call} (one : OneTask reg.jobId e t₀ h s) (at_ : s.calls c = some p)
    (pos : s.Rewaking h reg e t₀ p) (own : ev.caller? = some c) (denies : ev.Denies e)
    (en : ev.enabled s = true) :
    OneTask reg.jobId e t₀ (ev :: h) (ev.next s) ∧
      ∃ p, (ev.next s).calls c = some p ∧ (ev.next s).Rewaking (ev :: h) reg e t₀ p := by
  cases ev with
  | fastPath i r =>
    obtain rfl := Option.some.inj own
    obtain rfl : p = .fastPath r := Option.some.inj (at_.symm.trans (of_decide_eq_true en))
    obtain ⟨rfl, none_, next⟩ | ⟨no, -⟩ := pos
    · simp only [Event.next]
      split
      · exact ⟨one.of_eq id rfl rfl, _, Function.update_self .., .inr ⟨trivial, False.elim⟩⟩
      · exact ⟨one.of_eq id rfl rfl, _, Function.update_self .., .inl ⟨rfl, none_, next⟩⟩
    · exact no.elim
  | cached i r =>
    obtain rfl := Option.some.inj own
    obtain rfl : p = .cached r := Option.some.inj (at_.symm.trans (of_decide_eq_true en))
    obtain ⟨rfl, none_, next⟩ | ⟨no, -⟩ := pos
    · simp only [Event.next]
      split
      · exact ⟨one.of_eq id rfl rfl, _, Function.update_self .., .inr ⟨trivial, False.elim⟩⟩
      · exact ⟨one.of_eq id rfl rfl, _, Function.update_self .., .inl ⟨rfl, none_, next⟩⟩
    · exact no.elim
  | entry i r =>
    obtain rfl := Option.some.inj own
    obtain rfl : p = .entry r := Option.some.inj (at_.symm.trans (of_decide_eq_true en))
    obtain ⟨rfl, none_, next⟩ | ⟨no, -⟩ := pos
    · refine ⟨one.of_eq id (s.orInsert_tasks _) (s.orInsert_endpoints _), _,
        Function.update_self .., .inl ⟨rfl, ?_, (s.orInsert_nextTask _).trans next⟩⟩
      simpa [Event.next] using none_
    · exact no.elim
  | load i r w =>
    obtain rfl := Option.some.inj own
    obtain rfl : p = .load r w := Option.some.inj (at_.symm.trans (of_decide_eq_true en))
    obtain ⟨rfl, none_, next⟩ | ⟨no, -⟩ := pos
    · simp only [Event.next]
      split <;>
        exact ⟨one.of_eq id rfl rfl, _, Function.update_self .., .inl ⟨rfl, none_, next⟩⟩
    · exact no.elim
  | fetched i r answer =>
    obtain rfl := Option.some.inj own
    obtain rfl : p = .fetch r := Option.some.inj (at_.symm.trans (of_decide_eq_true en))
    obtain ⟨o, rfl, other⟩ := denies
    obtain ⟨rfl, none_, next⟩ | ⟨no, -⟩ := pos
    · cases o with
      | none => exact ⟨one.of_eq id rfl rfl, _, Function.update_self .., .inr ⟨trivial, False.elim⟩⟩
      | some ep =>
        exact ⟨one.of_eq id rfl rfl, _, Function.update_self ..,
          .inl ⟨⟨rfl, fun same => other (same ▸ rfl)⟩, none_, next⟩⟩
    · exact no.elim
  | store i r ep =>
    obtain rfl := Option.some.inj own
    obtain rfl : p = .store r ep := Option.some.inj (at_.symm.trans (of_decide_eq_true en))
    obtain ⟨⟨rfl, other⟩, none_, next⟩ | ⟨no, -⟩ := pos
    · have un : Untouched r.jobId e t₀ h s := by
        refine ⟨fun t later => ?_, next, one.early (by simp [none_])⟩
        rcases later.eq_or_lt with rfl | lt
        · exact none_
        · exact one.alone t lt
      have un' : Untouched r.jobId e t₀ (.store i r ep :: h) (Event.next s (.store i r ep)) :=
        un.of_eq id rfl rfl
      refine ⟨un'.oneTask ?_, _, Function.update_self .., .inr ⟨trivial, False.elim⟩⟩
      simpa [Event.next] using other
    · exact no.elim
  | subscribe i r w =>
    obtain rfl := Option.some.inj own
    obtain rfl : p = .subscribe r w := Option.some.inj (at_.symm.trans (of_decide_eq_true en))
    exact ⟨one.of_eq id rfl rfl, _, Function.update_self .., .inr ⟨trivial, False.elim⟩⟩
  | tryStart i r w =>
    obtain rfl := Option.some.inj own
    obtain rfl : p = .tryStart r w := Option.some.inj (at_.symm.trans (of_decide_eq_true en))
    obtain ⟨rfl, none_, next⟩ | ⟨no, -⟩ := pos
    · simp only [Event.next]
      split_ifs <;>
        exact ⟨one.of_eq id rfl rfl, _, Function.update_self .., .inl ⟨rfl, none_, next⟩⟩
    · exact no.elim
  | ownSubscribe i r w =>
    obtain rfl := Option.some.inj own
    obtain rfl : p = .ownSubscribe r w := Option.some.inj (at_.symm.trans (of_decide_eq_true en))
    obtain ⟨rfl, none_, next⟩ | ⟨no, -⟩ := pos
    · exact ⟨one.of_eq id rfl rfl, _, Function.update_self .., .inl ⟨⟨rfl, rfl⟩, none_, next⟩⟩
    · exact no.elim
  | spawn i r w inbox =>
    obtain rfl := Option.some.inj own
    obtain rfl : p = .spawn r w inbox := Option.some.inj (at_.symm.trans (of_decide_eq_true en))
    obtain ⟨⟨rfl, rfl⟩, none_, rfl⟩ | ⟨no, -⟩ := pos
    · refine ⟨⟨?_, ?_, ?_, ?_⟩, _, Function.update_self .., .inr ⟨trivial, False.elim⟩⟩
      · intro t later
        simpa [Event.next, later.ne'] using one.alone t later
      · intro k reg' hk hr
        obtain rfl : Task.acquire r w = k := by simpa [Event.next] using hk
        obtain rfl := Option.some.inj hr
        rfl
      · simpa [published_cons, Event.Publishes] using fun _ => one.early (by simp [none_])
      · simpa [Event.next, published_cons, Event.Publishes] using one.cached
    · exact no.elim
  | recv i r w msg =>
    obtain rfl := Option.some.inj own
    obtain rfl : p = .recv r w (some msg) := Option.some.inj (at_.symm.trans (of_decide_eq_true en))
    obtain ⟨no, -⟩ | ⟨-, told⟩ := pos
    · exact no.elim
    · refine ⟨one.of_eq id rfl rfl, _, Function.update_self .., .inr ⟨trivial, fun ht => ?_⟩⟩
      cases msg with
      | jobNotFound jobId => exact (told trivial).of_eq id rfl rfl
      | _ => exact ht.elim
  | timeout i r w =>
    obtain rfl := Option.some.inj own
    obtain rfl : p = .recv r w none := Option.some.inj (at_.symm.trans (of_decide_eq_true en))
    exact ⟨one.of_eq id rfl rfl, _, Function.update_self .., .inr ⟨trivial, False.elim⟩⟩
  | _ => simp_all [Event.caller?, Event.enabled, State.Rewaking, Call.Starting, Call.Waiting]

/-- `ensure_running` alone, after the endpoint was dropped. -/
lemma alone_rewake (un : Untouched reg.jobId e t₀ h₀ s₀) (gone : s₀.endpoints reg.jobId ≠ some e)
    (call : s₀.calls c = some (.fastPath reg))
    (run : RunFrom (system n timeout) (Alone (some c) t₀ e) h₀ s₀ h s) :
    OneTask reg.jobId e t₀ h s ∧ ∃ p, s.calls c = some p ∧ s.Rewaking h reg e t₀ p := by
  refine run.invariant (fun h s => OneTask reg.jobId e t₀ h s ∧
    ∃ p, s.calls c = some p ∧ s.Rewaking h reg e t₀ p) ⟨un.oneTask gone, _, call, .inl ?_⟩ ?_
  · exact ⟨rfl, un.idle t₀ le_rfl, un.nextTask⟩
  rintro h s u ev - ⟨one, p, at_, pos⟩ taken ⟨⟨i, awaited, own⟩ | ⟨t, own, later⟩, denies⟩
  all_goals obtain ⟨en, rfl⟩ := step_iff.mp taken
  · obtain rfl := Option.some.inj awaited
    exact rewaking_caller one at_ pos own denies en
  · obtain rfl := one.eq_of_worker own later en
    exact ⟨one.worker own en, rewaking_worker one at_ pos own en⟩

/-! ## Marking the job dormant -/

/-- Position of a caller of `mark_dormant`. -/
def Call.MarksDormant (job : JobId) : Call → Prop
  | .evict j by_ | .reset j by_ | .remove j by_ => j = job ∧ by_ = .markDormant
  | .cleared j => j = job
  | _ => False

lemma markDormant_caller {other : JobId} {p : Call} (sp : Spent job e t₀ h s)
    (at_ : s.calls c = some p) (pos : p.MarksDormant other) (own : ev.caller? = some c)
    (en : ev.enabled s = true) :
    Spent job e t₀ (ev :: h) (ev.next s) ∧
      ∃ p, (ev.next s).calls c = some p ∧ p.MarksDormant other := by
  cases ev with
  | evict i j by_ =>
    obtain rfl := Option.some.inj own
    obtain rfl : p = .evict j by_ := Option.some.inj (at_.symm.trans (of_decide_eq_true en))
    refine ⟨⟨⟨sp.alone, sp.own, ?_, ?_⟩, sp.spent, ?_⟩, _, Function.update_self .., pos⟩
    · simpa [published_cons, Event.Publishes] using fun _ => sp.unpublished
    · by_cases same : job = j
      · subst same
        simpa [Event.next, published_cons, Event.Publishes] using sp.unpublished
      · simpa [Event.next, same, published_cons, Event.Publishes] using sp.cached
    · simpa [published_cons, Event.Publishes] using sp.unpublished
  | reset i j by_ =>
    obtain rfl := Option.some.inj own
    obtain rfl : p = .reset j by_ := Option.some.inj (at_.symm.trans (of_decide_eq_true en))
    exact ⟨sp.of_eq id (s.storeStatus_tasks _ _) (s.storeStatus_endpoints _ _), _,
      Function.update_self .., pos⟩
  | remove i j by_ =>
    obtain rfl := Option.some.inj own
    obtain rfl : p = .remove j by_ := Option.some.inj (at_.symm.trans (of_decide_eq_true en))
    obtain ⟨rfl, rfl⟩ := pos
    exact ⟨sp.of_eq id rfl rfl, _, Function.update_self .., rfl⟩
  | _ => simp_all [Event.caller?, Event.enabled, Call.MarksDormant]

/-- `mark_dormant` alone, after the task has failed. -/
lemma alone_markDormant {other : JobId} (sp : Spent job e t₀ h₀ s₀)
    (call : s₀.calls c = some (.evict other .markDormant))
    (run : RunFrom (system n timeout) (Alone (some c) t₀ e) h₀ s₀ h s) : Spent job e t₀ h s := by
  have both : Spent job e t₀ h s ∧ ∃ p, s.calls c = some p ∧ p.MarksDormant other := by
    refine run.invariant (fun h s => Spent job e t₀ h s ∧
      ∃ p, s.calls c = some p ∧ p.MarksDormant other) ⟨sp, _, call, rfl, rfl⟩ ?_
    rintro h s u ev - ⟨sp, p, at_, pos⟩ taken ⟨⟨i, awaited, own⟩ | ⟨t, own, later⟩, -⟩
    all_goals obtain ⟨en, rfl⟩ := step_iff.mp taken
    · obtain rfl := Option.some.inj awaited
      exact markDormant_caller sp at_ pos own en
    · obtain rfl := sp.eq_of_worker own later en
      refine ⟨sp.worker own en, p, ?_, pos⟩
      rcases calls_of_worker (s := s) (c := c) own with same | ⟨w, msg, sent, -⟩
      · exact same.trans at_
      · rw [sent, at_]
        cases p <;> first | rfl | exact pos.elim
  exact both.1

end
end NScale.WakeCoordinator
