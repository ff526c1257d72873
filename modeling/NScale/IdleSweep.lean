import NScale.ExchangeGuard
import NScale.SweepMonitor

/-!
# Sweeps and the idleness of what they scale down

The list of a sweep is a snapshot of the activity store. A key of the list keeps an old score
for as long as nothing is recorded for it; what is recorded after the snapshot is not looked
at again before the job is scaled down.
-/
namespace NScale.Deployment
open Service Transition
open WakeCoordinator (echoReg)

variable {cfg : Config} {C : Condition State Event} {h : List Event} {s t : State} {e : Event}
  {i : ℕ} {key : JobId} {x : ℕ}

/-- What thread `i` has looked at in its sweep. -/
def sweepView (cfg : Config) (i : ℕ) (h : List Event) : SweepView :=
  observed (sweepMonitor cfg.idleThreshold) .start i h

def State.score (s : State) (key : JobId) : Option ℕ := s.activity.lookup key

/-- The scores after an event. -/
def Event.scores (f : JobId → Option ℕ) : Event → JobId → Option ℕ
  | .op _ (.zadd key score) (.ok _) => Function.update f key (some score)
  | .op _ (.zrem key) (.ok _) => Function.update f key none
  | _ => f

/-- The event gives thread `i` a new list of idle keys. -/
def Event.isSnapshot (i : ℕ) : Event → Bool
  | .op j (.zrangebyscore _) (.ok _) => j = i
  | _ => false

/-- The scores that have been recorded since the last snapshot of thread `i`. -/
def recordedSince (i : ℕ) : List Event → JobId → Option ℕ
  | [] => fun _ => none
  | e :: h => if e.isSnapshot i then fun _ => none else e.scores (recordedSince i h)

/-- A sweep scales down for a key only when its score is not newer than the idle threshold. -/
def OnlyIdle (cfg : Config) : Condition State Event := fun h s e =>
  match e with
  | .op i (.scaleDown _ _) _ => ∀ key x, (sweepView cfg i h).key = some key →
      s.score key = some x → x + cfg.idleThreshold ≤ s.time
  | _ => True

/-- What has been recorded for the key since the snapshot is older than the idle threshold. -/
def NothingRecorded (cfg : Config) : Condition State Event := fun h s e =>
  match e with
  | .op i (.scaleDown _ _) _ => ∀ key x, (sweepView cfg i h).key = some key →
      recordedSince i h key = some x → x + cfg.idleThreshold ≤ s.time
  | _ => True

/-! ## The activity store over a run -/

/-- An event sets the score of a key, whatever it was, or leaves it as it was. -/
lemma scores_cases (e : Event) (key : JobId) :
    (∃ score, ∀ f, e.scores f key = score) ∨ ∀ f, e.scores f key = f key := by
  unfold Event.scores
  split
  next key' score _ =>
    by_cases same : key = key'
    · subst same; exact .inl ⟨some score, fun f => by simp⟩
    · exact .inr fun f => by simp [same]
  next key' _ =>
    by_cases same : key = key'
    · subst same; exact .inl ⟨none, fun f => by simp⟩
    · exact .inr fun f => by simp [same]
  · exact .inr fun f => rfl

lemma scores_other (other : e.thread? = none) (f : JobId → Option ℕ) : e.scores f = f := by
  cases e with
  | op => cases other
  | _ => rfl

lemma guardDropped_activity (s : State) (r : ℕ) (guard : Option JobId) :
    (s.guardDropped r guard).activity = s.activity ∧ (s.guardDropped r guard).time = s.time := by
  cases guard <;> exact ⟨rfl, rfl⟩

/-- Only a record and a removal change the activity store. -/
lemma answer_activity {r : ℕ} {own : Own} {op : Op} {a : op.Answer}
    (record : ∀ key score, op ≠ .zadd key score) (removal : ∀ key, op ≠ .zrem key)
    (ht : s.answer r own op a = some t) : t.activity = s.activity ∧ t.time = s.time := by
  unfold State.answer at ht
  split at ht
  case h_4 => exact absurd rfl (record _ _)
  case h_6 => exact absurd rfl (removal _)
  case h_13 =>
    obtain rfl := Option.some.inj ht
    exact guardDropped_activity s r own.guard
  all_goals
    first
    | (cases ht; exact ⟨rfl, rfl⟩)
    | (split at ht <;> cases ht <;> first | exact ⟨rfl, rfl⟩ | (split <;> exact ⟨rfl, rfl⟩))

lemma score_eq (same : t.activity = s.activity) : t.score = s.score :=
  funext fun key => congrArg (AList.lookup key) same

lemma answer_score {r : ℕ} {own : Own} {op : Op} {a : op.Answer}
    (ht : s.answer r own op a = some t) :
    t.score = (Event.op i op a).scores s.score ∧ t.time = s.time := by
  cases op with
  | zadd key score =>
    cases a with
    | error e =>
      obtain rfl := Option.some.inj ht
      exact ⟨rfl, rfl⟩
    | ok _ =>
      obtain rfl := Option.some.inj ht
      refine ⟨funext fun k => ?_, rfl⟩
      by_cases same : k = key
      · subst same; simp [State.score, Event.scores]
      · simp [State.score, Event.scores, AList.lookup_insert_ne same, same]
  | zrem key =>
    cases a with
    | error e =>
      obtain rfl := Option.some.inj ht
      exact ⟨rfl, rfl⟩
    | ok _ =>
      obtain rfl := Option.some.inj ht
      refine ⟨funext fun k => ?_, rfl⟩
      by_cases same : k = key
      · subst same; simp [State.score, Event.scores]
      · simp [State.score, Event.scores, AList.lookup_erase_ne same, same]
  | _ =>
    obtain ⟨activity, time⟩ := answer_activity (by simp) (by simp) ht
    exact ⟨score_eq activity, time⟩

/-- The activity store follows the events, and the clock never goes back. -/
theorem step_score (taken : step cfg s e = some t) :
    t.score = e.scores s.score ∧ s.time ≤ t.time := by
  rcases step_shared taken with ⟨other, same⟩ | ⟨i, op, a, th, u, rfl, -, hu, same⟩ | ⟨millis, rfl, same⟩
  · have activity : t.activity = s.activity := congrArg Shared.activity same
    have time : t.time = s.time := congrArg Shared.time same
    exact ⟨(score_eq activity).trans (scores_other other _).symm, time.ge⟩
  · have activity : t.activity = u.activity := congrArg Shared.activity same
    have time : t.time = u.time := congrArg Shared.time same
    obtain ⟨score, later⟩ := answer_score (i := i) hu
    exact ⟨(score_eq activity).trans score, (time.trans later).ge⟩
  · have activity : t.activity = s.activity := congrArg Shared.activity same
    have time : t.time = s.time + millis := congrArg Shared.time same
    refine ⟨score_eq activity, ?_⟩
    rw [time]
    exact Nat.le_add_right _ _

/-! ## The list of a sweep -/

lemma mem_idle {cutoff : ℤ} :
    key ∈ s.idle cutoff ↔ ∃ x : ℕ, s.score key = some x ∧ (x : ℤ) ≤ cutoff := by
  rw [State.idle, List.mem_map]
  constructor
  · rintro ⟨entry, listed, rfl⟩
    rw [List.mem_insertionSort, List.mem_filter] at listed
    exact ⟨entry.2, AList.mem_lookup_iff.mpr listed.1, of_decide_eq_true listed.2⟩
  · rintro ⟨x, score, bound⟩
    refine ⟨⟨key, x⟩, ?_, rfl⟩
    rw [List.mem_insertionSort, List.mem_filter]
    exact ⟨AList.mem_lookup_iff.mp score, decide_eq_true bound⟩

lemma score_of_idle {cutoff : ℤ} (mem : key ∈ s.idle cutoff) (score : s.score key = some x) :
    (x : ℤ) ≤ cutoff := by
  obtain ⟨y, held, bound⟩ := mem_idle.mp mem
  obtain rfl : y = x := Option.some.inj (held.symm.trans score)
  exact bound

lemma required {op : Op} {a : op.Answer} (run : RunWhere (system cfg) C h s)
    (taken : step cfg s (.op i op a) = some t) :
    (sweepMonitor cfg.idleThreshold).requires (sweepView cfg i h) op :=
  required_of_step (fun _ entry => ScaleDownController.entry_meets entry)
    (fun _ _ _ _ _ _ _ _ _ => trivial) run taken

lemma time_of_now (cfg : Config) {time : ℕ} (taken : step cfg s (.op i .now time) = some t) : time = s.time := by
  obtain ⟨th, -, taken⟩ := Option.bind_eq_some_iff.mp taken
  obtain ⟨code, -, taken⟩ := Option.bind_eq_some_iff.mp taken
  obtain ⟨u, hu, -⟩ := Option.bind_eq_some_iff.mp taken
  by_contra other
  simp [State.answer, other] at hu

lemma next_now {v : SweepView} {op : Op} {a : op.Answer} {threshold : ℕ} (other : op ≠ .now) :
    ((sweepMonitor threshold).next v op a).now = v.now := by
  cases op with
  | now => exact absurd rfl other
  | zrangebyscore cutoff => cases a <;> rfl
  | _ => rfl

/-- The time that a sweep has read last has been reached. -/
lemma now_le (run : RunWhere (system cfg) C h s) : (sweepView cfg i h).now ≤ s.time := by
  apply run.invariant fun h s => (sweepView cfg i h).now ≤ s.time
  · exact Nat.zero_le _
  · intro h s t e prior ih taken _
    obtain ⟨-, later⟩ := step_score taken
    rcases observed_cases (sweepMonitor cfg.idleThreshold) .start i e h with
      ⟨op, a, rfl, view⟩ | ⟨-, view⟩
    · rw [sweepView, view]
      by_cases now : op = .now
      · subst now
        have read : a = s.time := time_of_now cfg taken
        exact read.trans_le later
      · rw [next_now now]
        exact ih.trans later
    · rw [sweepView, view]
      exact ih.trans later

lemma next_listed {v : SweepView} {op : Op} {a : op.Answer} {threshold : ℕ}
    (other : (Event.op i op a).isSnapshot i = false) :
    ((sweepMonitor threshold).next v op a).listed = v.listed := by
  cases op with
  | zrangebyscore cutoff =>
    cases a with
    | error e => rfl
    | ok keys => simp [Event.isSnapshot] at other
  | _ => rfl

/-- A sweep keeps its list until its next snapshot. -/
lemma listed_eq (other : e.isSnapshot i = false) :
    (sweepView cfg i (e :: h)).listed = (sweepView cfg i h).listed := by
  rcases observed_cases (sweepMonitor cfg.idleThreshold) .start i e h with
    ⟨op, a, rfl, view⟩ | ⟨-, view⟩
  · rw [sweepView, view]
    exact next_listed other
  · rw [sweepView, view, sweepView]

/-- A snapshot lists keys whose score is not newer than the idle threshold. -/
lemma listed_of_snapshot (run : RunWhere (system cfg) C h s) (snapshot : e.isSnapshot i = true)
    (taken : step cfg s e = some t) (mem : key ∈ (sweepView cfg i (e :: h)).listed)
    (score : t.score key = some x) : x + cfg.idleThreshold ≤ t.time := by
  unfold Event.isSnapshot at snapshot
  split at snapshot
  next j cutoff keys =>
    obtain rfl : j = i := of_decide_eq_true snapshot
    have asked : cutoff = ((sweepView cfg j h).now : ℤ) - cfg.idleThreshold := required run taken
    have time : (sweepView cfg j h).now ≤ s.time := now_le run
    obtain ⟨same, later⟩ := step_score taken
    have listed : (sweepView cfg j (.op j (.zrangebyscore cutoff) (.ok keys) :: h)).listed = keys := by
      simp [sweepView, observed, sweepMonitor]
    rw [listed] at mem
    rw [same] at score
    obtain ⟨th, -, taken⟩ := Option.bind_eq_some_iff.mp taken
    obtain ⟨code, -, taken⟩ := Option.bind_eq_some_iff.mp taken
    obtain ⟨u, hu, -⟩ := Option.bind_eq_some_iff.mp taken
    have answer : keys = s.idle cutoff := by
      by_contra other
      simp [State.answer, other] at hu
    have bound : (x : ℤ) ≤ cutoff := score_of_idle (answer ▸ mem) score
    omega
  next => cases snapshot

/-- What is known of the keys of a list: a recorded score is the current one, and a key for
which nothing has been recorded is as idle as it was in the snapshot. -/
structure Tracked (cfg : Config) (i : ℕ) (h : List Event) (s : State) : Prop where
  current : ∀ key x, recordedSince i h key = some x → s.score key = some x
  idle : ∀ key ∈ (sweepView cfg i h).listed, ∀ x, s.score key = some x →
    recordedSince i h key = some x ∨ x + cfg.idleThreshold ≤ s.time

theorem tracked_of_run (i : ℕ) (run : RunWhere (system cfg) C h s) : Tracked cfg i h s := by
  apply run.invariant fun h s => Tracked cfg i h s
  · refine ⟨?_, ?_⟩
    · intro key x recorded
      cases recorded
    · intro key mem
      cases mem
  · intro h s t e prior ok taken _
    obtain ⟨score, later⟩ := step_score taken
    cases snapshot : e.isSnapshot i with
    | true =>
      refine ⟨?_, ?_⟩
      · intro key x recorded
        simp [recordedSince, snapshot] at recorded
      · intro key mem x hx
        exact .inr (listed_of_snapshot prior snapshot taken mem hx)
    | false =>
      have recorded : recordedSince i (e :: h) = e.scores (recordedSince i h) := by
        simp [recordedSince, snapshot]
      refine ⟨?_, ?_⟩
      · intro key x hx
        rw [recorded] at hx
        rw [score]
        rcases scores_cases e key with ⟨set, all⟩ | kept
        · rw [all] at hx ⊢
          exact hx
        · rw [kept] at hx ⊢
          exact ok.current key x hx
      · intro key mem x hx
        rw [listed_eq snapshot] at mem
        rw [score] at hx
        rw [recorded]
        rcases scores_cases e key with ⟨set, all⟩ | kept
        · rw [all] at hx ⊢
          exact .inl hx
        · rw [kept] at hx ⊢
          exact (ok.idle key mem x hx).imp_right later.trans'

/-- The runs that scale down only what is idle are exactly those in which nothing recent is
recorded between the snapshot of a sweep and the scale-down of a key that it lists. -/
theorem onlyIdle_iff (cfg : Config) (h : List Event) (s : State) :
    RunWhere (system cfg) (OnlyIdle cfg) h s ↔ RunWhere (system cfg) (NothingRecorded cfg) h s := by
  constructor
  · apply RunFrom.mono
    intro h s t e prior taken idle
    unfold NothingRecorded
    split
    next i job group a =>
      intro key x worked recorded
      exact idle key x worked ((tracked_of_run i prior).current key x recorded)
    next => trivial
  · apply RunFrom.mono
    intro h s t e prior taken quiet
    unfold OnlyIdle
    split
    next i job group a =>
      intro key x worked score
      obtain ⟨-, listed, mem, same⟩ := required prior taken
      obtain rfl : listed = key := Option.some.inj (same.symm.trans worked)
      rcases (tracked_of_run i prior).idle listed mem x score with recorded | idle
      · exact quiet listed x worked recorded
      · exact idle
    next => trivial

/-- A request for the job arrives after the sweep has listed it and looked for requests. -/
def requestAfterSnapshot : List Event := echoRegistered ++
  [.advance 300000, .tick 0, .op 1 (.tryAcquireLock 60000) (.ok true), .op 1 .now 300000,
    .op 1 (.zrangebyscore 0) (.ok [echoJob]), .op 1 .cancelled false,
    .op 1 (.deferral echoJob) none, .op 1 (.hasInFlight echoJob) false,
    .op 1 (.store (.hget .byJob echoJob.val)) (.ok (some echoReg)),
    .arrive 0 ⟨some (some "echo-submit-job.localhost"), .get, "/", false⟩, .op 2 .now 300000,
    .op 2 (.zadd echoJob 300000) (.ok ())]

theorem active_scaled_down : ¬ ∀ cfg h s e t, Run (system cfg) h s → step cfg s e = some t →
    OnlyIdle cfg h s e := by
  intro all
  obtain ⟨h, s, run, score, time, worked, taken⟩ := exists_run (T := system echoConfig)
    (C := fun _ _ _ => True)
    (fun h s => s.score echoJob = some 300000 ∧ s.time = 300000 ∧
      (sweepView echoConfig 1 h).key = some echoJob ∧
      (step echoConfig s (.op 1 (.scaleDown echoJob "main") (.ok ()))).isSome)
    requestAfterSnapshot (by decide)
  obtain ⟨t, taken⟩ := Option.isSome_iff_exists.mp taken
  have idle : 300000 + echoConfig.idleThreshold ≤ s.time :=
    all echoConfig h s _ t run taken echoJob 300000 worked score
  rw [time] at idle
  exact absurd idle (by decide)

end NScale.Deployment
