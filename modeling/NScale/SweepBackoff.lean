import NScale.SweepThread

/-!
# Blocked and cancelled sweeps

A key whose scale-down is blocked by a deployment is left alone by the replica for the backoff, and
a replica that has been cancelled finishes the scale-down that it is at and begins no other.
-/
namespace NScale.Deployment
open Service Transition
open WakeCoordinator (echoReg)

variable {cfg : Config} {C : Condition State Event} {h : List Event} {s t : State} {e : Event}
  {i r since : ℕ} {key : JobId} {answer : Result Unit}

/-- The event is a scale-down by replica `r` for a key that its sweep works on. -/
def ScalesDown (cfg : Config) (h : List Event) (s : State) (r : ℕ) (key : JobId) (answer : Result Unit)
    (e : Event) : Prop :=
  ∃ i job group, e = .op i (.scaleDown job group) answer ∧ s.replicaOf i = some r ∧
    (sweepView cfg i h).key = some key

/-- The two views of a sweep speak of the same key. -/
lemma sweepView_key (i : ℕ) (h : List Event) (on : (turnView i h).turn.key? = some key) :
    (sweepView cfg i h).key = some key := by
  induction h generalizing key with
  | nil => cases on
  | cons e h ih =>
    rcases observed_cases (sweepMonitor cfg.idleThreshold) .start i e h with
      ⟨op, a, rfl, view⟩ | ⟨other, view⟩
    · rw [turnView_op] at on
      rw [sweepView, view]
      cases op with
      | now => exact ih (Turn.key_of_at_ on)
      | deferral k => cases a <;> exact on
      | scaleDown job group => exact ih (Turn.key_of_scaled on)
      | defer k until_ => cases on
      | zrangebyscore cutoff => cases a <;> exact ih on
      | _ => exact ih on
    · rw [turnView_other other] at on
      rw [sweepView, view]
      exact ih on

/-- A scale-down is done by the sweep of the replica, which has been told to go on and has found
that the key is due. -/
lemma ScalesDown.due (run : RunWhere (system cfg) C h s) (scales : ScalesDown cfg h s r key answer e)
    (taken : step cfg s e = some t) : ∃ i job group, e = .op i (.scaleDown job group) answer ∧
      (s.controller r).sweeper = some i ∧ turnView i h = ⟨.due key, true⟩ := by
  obtain ⟨i, job, group, rfl, own, works⟩ := scales
  obtain ⟨th, at_, sweeps, go, found, due⟩ := sweeper_of_turn run taken (by simp [Op.turns])
  rw [State.replicaOf, at_, Option.map_some] at own
  obtain rfl := Option.some.inj own
  have same : (sweepView cfg i h).key = some found := sweepView_key i h (by rw [due]; rfl)
  obtain rfl := Option.some.inj (works.symm.trans same)
  refine ⟨i, job, group, rfl, sweeps, ?_⟩
  rw [← go, ← due]

lemma answer_of_deferral {d : Option ℕ} {th : Thread}
    (taken : step cfg s (.op i (.deferral key) d) = some t) (at_ : s.threads i = some th) :
    d = (s.controller th.replica).deferred key := by
  obtain ⟨_, found, taken⟩ := Option.bind_eq_some_iff.mp taken
  obtain rfl := Option.some.inj (found.symm.trans at_)
  obtain ⟨code, -, taken⟩ := Option.bind_eq_some_iff.mp taken
  obtain ⟨u, hu, -⟩ := Option.bind_eq_some_iff.mp taken
  by_contra other
  exact absurd hu (by simp [State.answer, show d ≠ (s.replicas _).deferred key from other])

/-! ## The backoff -/

/-- The key is not due again before this time. -/
structure Rests (turn : Turn) (key : JobId) (until_ : ℕ) : Prop where
  due : turn ≠ .due key
  owing : turn.owing ≠ some key
  deferred : ∀ d, turn = .deferred key d → until_ ≤ d

/-- The key has been blocked, and is to be deferred from a time that has not been read before. -/
def Owes (turn : Turn) (key : JobId) (since : ℕ) : Prop :=
  turn = .blocked key ∨ ∃ now, turn = .noted key now ∧ since ≤ now

/-- The key is deferred or will be, and the sweep that runs does not scale it down before. -/
inductive Held (key : JobId) (since : ℕ) (deferred : Option ℕ) (turn : Turn) : Prop
  | owes (owes : Owes turn key since)
  | rests {d : ℕ} (set : deferred = some d) (late : since + deploymentBackoff ≤ d)
      (rests : Rests turn key (since + deploymentBackoff))

namespace Held
variable {deferred : Option ℕ} {turn : Turn} {time : ℕ}

lemma not_due (held : Held key since deferred turn) : turn ≠ .due key := by
  cases held with
  | owes owes =>
    rcases owes with rfl | ⟨now, rfl, -⟩ <;> simp
  | rests set late rests => exact rests.due

lemma idle {d : ℕ} (set : deferred = some d) (late : since + deploymentBackoff ≤ d) :
    Held key since deferred .idle :=
  .rests set late ⟨by simp, by simp [Turn.owing], by simp⟩

/-- The clock is read before the backoff is over. -/
lemma at_ (held : Held key since deferred turn) (after : since ≤ time)
    (early : time < since + deploymentBackoff) : Held key since deferred (turn.at_ time) := by
  cases held with
  | owes owes =>
    refine .owes ?_
    rcases owes with rfl | ⟨now, rfl, noted⟩
    · exact .inr ⟨time, rfl, after⟩
    · exact .inr ⟨now, rfl, noted⟩
  | rests set late rests =>
    cases turn with
    | deferred k until_ =>
      by_cases same : k = key
      · subst same
        have held := rests.deferred until_ rfl
        have waits : time < until_ := by omega
        simp only [Turn.at_, waits, if_true]
        exact idle set late
      · refine .rests set late ⟨?_, ?_, ?_⟩
        all_goals
          simp only [Turn.at_]
          split <;> simp [Turn.owing, same]
    | blocked k =>
      have other : k ≠ key := by simpa [Turn.owing] using rests.owing
      exact .rests set late ⟨by simp [Turn.at_], by simpa [Turn.at_, Turn.owing] using other,
        by simp [Turn.at_]⟩
    | idle | due | noted => exact .rests set late rests

/-- The next key is looked up. -/
lemma found (held : Held key since deferred turn) (k : JobId) (d : Option ℕ)
    (owed : turn.owing = none) (reads : k = key → d = deferred) :
    Held key since deferred (.found k d) := by
  cases held with
  | owes owes =>
    rcases owes with rfl | ⟨now, rfl, -⟩ <;> cases owed
  | @rests d' set late rests =>
    by_cases same : k = key
    · have held : d = some d' := (reads same).trans set
      subst held
      refine .rests set late ⟨nofun, nofun, ?_⟩
      intro d at_
      cases at_
      exact late
    · refine .rests set late ⟨?_, ?_, ?_⟩
      all_goals cases d <;> simp [Turn.found, Turn.owing, same]

/-- A scale-down is for another key. -/
lemma scaled {k : JobId} (held : Held key since deferred turn) (due : turn = .due k) (result : Result Unit) :
    Held key since deferred (turn.scaled result) := by
  subst due
  cases held with
  | owes owes => rcases owes with at_ | ⟨now, at_, -⟩ <;> cases at_
  | rests set late rests =>
    have other : k ≠ key := by simpa using rests.due
    unfold Turn.scaled
    split
    next at_ =>
      cases at_
      exact .rests set late ⟨nofun, by simpa [Turn.owing] using other, nofun⟩
    next => exact .rests set late rests

/-- The blocked key is deferred, or another one is. -/
lemma defer {k : JobId} {now : ℕ} (held : Held key since deferred turn) (noted : turn = .noted k now) :
    Held key since (Function.update (fun _ => deferred) k (some (now + deploymentBackoff)) key) .idle := by
  subst noted
  cases held with
  | owes owes =>
    rcases owes with at_ | ⟨now', at_, late⟩ <;> cases at_
    have set : Function.update (fun _ => deferred) key (some (now + deploymentBackoff)) key =
        some (now + deploymentBackoff) := by simp
    exact idle set (by omega)
  | rests set late rests =>
    have other : k ≠ key := by simpa [Turn.owing] using rests.owing
    exact idle (by simpa [other.symm] using set) late

/-- An operation of the sweep that runs. -/
lemma answered {op : Op} {a : op.Answer} {th : Thread} (run : RunWhere (system cfg) C h s)
    (taken : step cfg s (.op i op a) = some t) (at_ : s.threads i = some th)
    (held : Held key since ((s.controller th.replica).deferred key) (turnView i h).turn)
    (after : since ≤ s.time) (early : s.time < since + deploymentBackoff) :
    Held key since ((t.controller th.replica).deferred key) (turnView i (.op i op a :: h)).turn := by
  have kept (other : (Event.op i op a).defers? = none) :
      (t.controller th.replica).deferred = (s.controller th.replica).deferred :=
    deferred_kept taken fun _ _ => not_defers other
  rw [turnView_op]
  cases op with
  | now =>
    obtain rfl : a = s.time := time_of_now cfg taken
    rw [kept rfl]
    exact held.at_ after early
  | deferral k =>
    obtain ⟨-, -, -, owed⟩ := sweeper_of_turn run taken (by simp [Op.turns])
    rw [kept rfl]
    refine held.found k a owed ?_
    rintro rfl
    exact answer_of_deferral taken at_
  | scaleDown job group =>
    obtain ⟨-, -, -, -, k, due⟩ := sweeper_of_turn run taken (by simp [Op.turns])
    rw [kept rfl]
    exact held.scaled due a
  | defer k until_ =>
    obtain ⟨-, -, -, now, noted, rfl⟩ := sweeper_of_turn run taken (by simp [Op.turns])
    rw [deferred_set taken ⟨i, th, rfl, at_, rfl⟩]
    have next := held.defer noted
    change Held key since _ .idle
    by_cases same : key = k
    · subst same
      simpa using next
    · simpa [same] using next
  | dropDeferral k =>
    obtain ⟨-, -, -, due⟩ := sweeper_of_turn run taken (by simp [Op.turns])
    have other : key ≠ k := fun same => held.not_due (same ▸ due)
    rw [deferred_set taken ⟨i, th, rfl, at_, rfl⟩, Function.update_of_ne other]
    exact held
  | _ =>
    rw [kept rfl]
    exact held

end Held

/-- The key is held by the sweep of the replica that began last. -/
def HeldAt (r : ℕ) (key : JobId) (since : ℕ) (h : List Event) (s : State) : Prop :=
  ∃ i, (s.controller r).sweeper = some i ∧
    Held key since ((s.controller r).deferred key) (turnView i h).turn

/-- What one step preserves. -/
lemma HeldAt.step (run : RunWhere (system cfg) C h s) (held : HeldAt r key since h s)
    (taken : Deployment.step cfg s e = some t) (after : since ≤ s.time)
    (early : s.time < since + deploymentBackoff) : HeldAt r key since (e :: h) t := by
  obtain ⟨i, sweeps, held⟩ := held
  obtain ⟨th, at_, rfl⟩ := seated_of_run run r i sweeps
  rcases step_sweeper taken th.replica with same | ⟨rfl, done, new, kept⟩
  · refine ⟨i, same.trans sweeps, ?_⟩
    by_cases acts : e.thread? = some i
    · cases e with
      | op j op a =>
        obtain rfl := Option.some.inj acts
        exact held.answered run taken at_ after early
      | _ => cases acts
    · -- nobody else sets a deferral of this replica
      have other : ∀ key d, ¬ Defers s th.replica e key d := by
        rintro key' d ⟨j, th', sets, at_', own⟩
        have acting : e.thread? = some j ∧ ∃ op a, e = .op j op a ∧ ¬ Quiet op := by
          unfold Event.defers? at sets
          split at sets
          all_goals cases sets
          · exact ⟨rfl, _, _, rfl, by simp [Op.turns]⟩
          · exact ⟨rfl, _, _, rfl, by simp [Op.turns]⟩
        obtain ⟨acting, op, a, rfl, turns⟩ := acting
        obtain ⟨th'', at_'', sweeps', -⟩ := sweeper_of_turn run taken turns
        obtain rfl := Option.some.inj (at_'.symm.trans at_'')
        rw [own, sweeps] at sweeps'
        exact acts (acting.trans sweeps'.symm)
      rw [turnView_other acts, deferred_kept taken other]
      exact held
  · refine ⟨s.nextThread, new, ?_⟩
    rw [sweeps] at done
    have owed := owing_of_done (onTurn_of_run run at_) at_ done
    rw [turnView_fresh run taken, kept]
    cases held with
    | owes owes =>
      rcases owes with turn | ⟨now, turn, -⟩
      all_goals
        rw [turn] at owed
        cases owed
    | rests set late rests => exact .idle set late

/-- A key that a deployment has blocked is not scaled down again by the replica before the backoff
is over, whatever the replica and all others do meanwhile. -/
theorem backs_off (cfg : Config) (h h' : List Event) (s t u v : State) (e e' : Event) (r : ℕ)
    (key : JobId) (job operation : String) (answer : Result Unit) (run : Run (system cfg) h s)
    (taken : step cfg s e = some t)
    (blocked : ScalesDown cfg h s r key (.error (.deploymentInProgress job operation)) e)
    (later : RunFrom (system cfg) (fun _ _ _ => True) (e :: h) t h' u)
    (again : step cfg u e' = some v) (scales : ScalesDown cfg h' u r key answer e') :
    s.time + deploymentBackoff ≤ u.time := by
  have before : Run (system cfg) (e :: h) t := run.step taken trivial
  have begins : t.time = s.time ∧ HeldAt r key s.time (e :: h) t := by
    obtain ⟨i, job, group, rfl, sweeps, due⟩ := blocked.due run taken
    refine ⟨?_, i, ?_, .owes (.inl ?_)⟩
    · rcases step_time taken with same | ⟨millis, advance, -⟩
      · exact same
      · cases advance
    · rcases step_sweeper taken r with same | ⟨impossible, -⟩
      · exact same.trans sweeps
      · cases impossible
    · rw [turnView_op, due]
      rfl
  have held : s.time ≤ u.time ∧ (u.time < s.time + deploymentBackoff → HeldAt r key s.time h' u) := by
    refine later.invariant (fun h' u => s.time ≤ u.time ∧
      (u.time < s.time + deploymentBackoff → HeldAt r key s.time h' u)) ?_ ?_
    · exact ⟨begins.1.ge, fun _ => begins.2⟩
    · intro h' u w e prior ⟨after, held⟩ taken _
      have grows : u.time ≤ w.time := (step_score taken).2
      refine ⟨after.trans grows, fun early => ?_⟩
      have early' : u.time < s.time + deploymentBackoff := by omega
      exact (held early').step (before.append prior) taken after early'
  by_contra early
  obtain ⟨i, job, group, rfl, sweeps, due⟩ := scales.due (before.append later) again
  obtain ⟨j, sweeps', waits⟩ := held.2 (by omega)
  obtain rfl := Option.some.inj (sweeps.symm.trans sweeps')
  rw [due] at waits
  exact waits.not_due rfl

/-- The second sweep finds the key, since the activity could not be recorded. -/
def echoBlocked : List Event := echoSweeps ++
  [.op 1 .cancelled false, .op 1 (.deferral echoJob) none, .op 1 (.hasInFlight echoJob) false,
    .op 1 (.store (.hget .byJob echoJob.val)) (.ok (some echoReg))]

def echoDeferred : List Event :=
  [.op 1 (.clearNotFound echoJob) (.ok ()), .op 1 .now 300000, .op 1 (.defer echoJob 330000) (),
    .op 1 .now 300000, .op 1 (.zadd echoJob 300000) (.error (.http "")),
    .op 1 (.spawn .releaseLock) (), .op 2 .releaseLock (.ok ()), .advance 30000, .tick 0,
    .op 3 (.tryAcquireLock 60000) (.ok true), .op 3 .now 330000,
    .op 3 (.zrangebyscore 30000) (.ok [echoJob]), .op 3 .cancelled false,
    .op 3 (.deferral echoJob) (some 330000), .op 3 .now 330000, .op 3 (.dropDeferral echoJob) (),
    .op 3 (.hasInFlight echoJob) false, .op 3 (.store (.hget .byJob echoJob.val)) (.ok (some echoReg))]

def blockedEvent : Event :=
  .op 1 (.scaleDown echoJob "main") (.error (.deploymentInProgress "echo" "scale down"))

theorem echo_backs_off : ∃ s u : State, s.time = 300000 ∧ u.time = 330000 ∧
    s.time + deploymentBackoff ≤ u.time := by
  obtain ⟨h, s, run, time, own, works, taken, again⟩ := exists_run (T := system echoConfig)
    (C := fun _ _ _ => True)
    (fun h s => s.time = 300000 ∧ s.replicaOf 1 = some 0 ∧
      (sweepView echoConfig 1 h).key = some echoJob ∧ (step echoConfig s blockedEvent).isSome = true ∧
      ((step echoConfig s blockedEvent).bind fun t => replay (system echoConfig) (fun _ _ _ => True)
        (blockedEvent :: h) t echoDeferred).any (fun r => decide (r.2.time = 330000 ∧
          r.2.replicaOf 3 = some 0 ∧ (sweepView echoConfig 3 r.1).key = some echoJob ∧
          (step echoConfig r.2 (.op 3 (.scaleDown echoJob "main") (.ok ()))).isSome = true)) = true)
    echoBlocked (by decide +kernel)
  obtain ⟨t, taken⟩ := Option.isSome_iff_exists.mp taken
  rw [taken, Option.bind_some] at again
  obtain ⟨⟨h', u⟩, done, late⟩ := Option.any_eq_true _ _ |>.mp again
  obtain ⟨time', own', works', taken'⟩ := of_decide_eq_true late
  obtain ⟨v, taken'⟩ := Option.isSome_iff_exists.mp taken'
  exact ⟨s, u, time, time', backs_off echoConfig h h' s t u v _ _ 0 echoJob _ _ _ run taken
    ⟨1, _, _, rfl, own, works⟩ (RunFrom.nil.replay done) taken' ⟨3, _, _, rfl, own', works'⟩⟩

/-! ## The end of a replica -/

/-- The replica is cancelled, and its sweep has not been told to go on. -/
def Stopped (r : ℕ) (h : List Event) (s : State) : Prop :=
  (s.controller r).cancelled = true ∧
    ∀ i, (s.controller r).sweeper = some i → (turnView i h).go = false

lemma cancelled_stays (taken : step cfg s e = some t) (cancelled : (s.controller r).cancelled = true) :
    (t.controller r).cancelled = true := by
  have steers := step_controller taken r
  generalize t.controller r = c at steers ⊢
  cases steers with
  | cancel => rfl
  | same | tick | defers => exact cancelled

lemma answer_of_cancelled {stop : Bool} {th : Thread}
    (taken : step cfg s (.op i .cancelled stop) = some t) (at_ : s.threads i = some th) :
    stop = (s.controller th.replica).cancelled := by
  obtain ⟨_, found, taken⟩ := Option.bind_eq_some_iff.mp taken
  obtain rfl := Option.some.inj (found.symm.trans at_)
  obtain ⟨code, -, taken⟩ := Option.bind_eq_some_iff.mp taken
  obtain ⟨u, hu, -⟩ := Option.bind_eq_some_iff.mp taken
  by_contra other
  exact absurd hu (by simp [State.answer, show stop ≠ (s.replicas _).cancelled from other])

lemma Stopped.step (run : RunWhere (system cfg) C h s) (stopped : Stopped r h s)
    (taken : Deployment.step cfg s e = some t) : Stopped r (e :: h) t := by
  refine ⟨cancelled_stays taken stopped.1, fun i sweeps => ?_⟩
  rcases step_sweeper taken r with same | ⟨rfl, -, new, -⟩
  · rw [same] at sweeps
    have before := stopped.2 i sweeps
    obtain ⟨th, at_, rfl⟩ := seated_of_run run r i sweeps
    by_cases acts : e.thread? = some i
    · cases e with
      | op j op a =>
        obtain rfl := Option.some.inj acts
        rw [turnView_op]
        cases op with
        | cancelled =>
          have stop : a = true := (answer_of_cancelled taken at_).trans stopped.1
          subst stop
          rfl
        | scaleDown => rfl
        | _ => exact before
      | _ => cases acts
    · rw [turnView_other acts]
      exact before
  · obtain rfl := Option.some.inj (new.symm.trans sweeps)
    rw [turnView_fresh run taken]
    rfl

/-- Once a replica is cancelled, at most one more job is scaled down by it. -/
theorem stops (cfg : Config) (h h' h'' : List Event) (s t u v w : State) (e e' : Event) (r : ℕ)
    (key key' : JobId) (answer answer' : Result Unit) (run : Run (system cfg) h s)
    (cancelled : (s.replicas r).cancelled = true)
    (later : RunFrom (system cfg) (fun _ _ _ => True) h s h' t) (taken : step cfg t e = some u)
    (first : ScalesDown cfg h' t r key answer e)
    (rest : RunFrom (system cfg) (fun _ _ _ => True) (e :: h') u h'' v)
    (again : step cfg v e' = some w) : ¬ ScalesDown cfg h'' v r key' answer' e' := by
  intro second
  have reached : Run (system cfg) h' t := run.append later
  have before : Run (system cfg) (e :: h') u := reached.step taken trivial
  have still : (t.controller r).cancelled = true :=
    later.state_invariant (fun t => (t.controller r).cancelled = true) cancelled
      fun _ _ _ _ held taken _ => cancelled_stays taken held
  have spent : Stopped r (e :: h') u := by
    refine ⟨cancelled_stays taken still, fun i sweeps => ?_⟩
    obtain ⟨j, job, group, rfl, sweeps', -⟩ := first.due reached taken
    rcases step_sweeper taken r with same | ⟨impossible, -⟩
    · rw [same, sweeps'] at sweeps
      obtain rfl := Option.some.inj sweeps
      rw [turnView_op]
      rfl
    · cases impossible
  have stopped : Stopped r h'' v := by
    refine rest.invariant (fun h'' v => Stopped r h'' v) spent ?_
    intro h'' v w e prior stopped taken _
    exact stopped.step (before.append prior) taken
  obtain ⟨i, job, group, rfl, sweeps, due⟩ := second.due (before.append rest) again
  have go := stopped.2 i sweeps
  rw [due] at go
  cases go

/-- The replica is cancelled while its sweep scales the job down for the first of two keys. -/
def echoCancelled : List Event := echoRegistered ++
  [.arrive 0 ⟨some (some "echo-s2z.localhost"), .get, "/", false⟩, .op 1 .now 0,
    .op 1 (.zadd echoHost 0) (.ok ()), .advance 300000, .tick 0,
    .op 2 (.tryAcquireLock 60000) (.ok true), .op 2 .now 300000,
    .op 2 (.zrangebyscore 0) (.ok [echoHost, echoJob]), .op 2 .cancelled false,
    .op 2 (.deferral echoHost) none, .op 2 (.hasInFlight echoHost) false,
    .op 2 (.store (.hget .byJob echoHost.val)) (.ok none),
    .op 2 (.store (.hget .byService echoHost.val)) (.ok (some echoReg)), .cancel 0]

theorem echo_stops : ∃ h v, (v.replicas 0).cancelled = true ∧
    ¬ ScalesDown echoConfig h v 0 echoJob (.ok ()) (.op 2 .cancelled true) := by
  obtain ⟨h, s, run, cancelled, own, works, taken⟩ := exists_run (T := system echoConfig)
    (C := fun _ _ _ => True)
    (fun h s => (s.replicas 0).cancelled = true ∧ s.replicaOf 2 = some 0 ∧
      (sweepView echoConfig 2 h).key = some echoHost ∧
      ((step echoConfig s (.op 2 (.scaleDown echoJob "main") (.error (.nomad "500")))).any fun u =>
        (step echoConfig u (.op 2 .cancelled true)).isSome ∧ (u.replicas 0).cancelled) = true)
    echoCancelled (by decide +kernel)
  obtain ⟨u, taken, next⟩ := Option.any_eq_true _ _ |>.mp taken
  obtain ⟨again, still⟩ := of_decide_eq_true next
  obtain ⟨w, again⟩ := Option.isSome_iff_exists.mp again
  exact ⟨_, u, still, stops echoConfig h h _ s s u u w _ _ 0 echoHost echoJob _ _ run cancelled .nil
    taken ⟨2, _, _, rfl, own, works⟩ .nil again⟩

end NScale.Deployment
