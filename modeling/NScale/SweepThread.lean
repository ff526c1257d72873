import NScale.SweepLock
import NScale.SweepTurns

/-!
# The sweeps of one replica

A replica runs one tick after the other, and what it keeps for its sweeps is touched by the tick
that runs, and by no other task.
-/
namespace NScale.Deployment
open Service Transition ScaleDownController

variable {cfg : Config} {C : Condition State Event} {h : List Event} {s t : State} {e : Event}
  {i r : ℕ} {th next : Thread} {key : JobId}

/-- Where the sweep of thread `i` stands. -/
def turnView (i : ℕ) (h : List Event) : TurnView := observed turnMonitor .start i h

/-! ## What a replica keeps for its sweeps -/

structure Controller where
  deferred : JobId → Option ℕ
  cancelled : Bool
  sweeper : Option ℕ

def Replica.controller (p : Replica) : Controller := ⟨p.deferred, p.cancelled, p.sweeper⟩

def State.controller (s : State) (r : ℕ) : Controller := (s.replicas r).controller

lemma setReplica_controller {p : Replica} (same : p.controller = s.controller r) :
    (s.setReplica r p).controller = s.controller := by
  funext q
  by_cases at_ : q = r
  · subst at_
    simpa [State.controller] using same
  · simp [State.controller, at_]

lemma setReplica_self {p : Replica} : (s.setReplica r p).controller r = p.controller := by
  simp [State.controller]

lemma setReplica_other {p : Replica} {q : ℕ} (other : q ≠ r) :
    (s.setReplica r p).controller q = s.controller q := by
  simp [State.controller, other]

lemma guardDropped_controller (s : State) (r : ℕ) (guard : Option JobId) :
    (s.guardDropped r guard).controller = s.controller := by
  cases guard with
  | none => rfl
  | some job => exact setReplica_controller rfl

/-- Only the operations on deferrals change it. -/
lemma answer_controller {own : Own} {op : Op} {a : op.Answer}
    (drop : ∀ key, op ≠ .dropDeferral key) (defer : ∀ key until_, op ≠ .defer key until_)
    (ht : s.answer r own op a = some t) : t.controller = s.controller := by
  unfold State.answer at ht
  split at ht
  case h_13 =>
    obtain rfl := Option.some.inj ht
    exact guardDropped_controller s r own.guard
  case h_20 => exact absurd rfl (drop _)
  case h_21 => exact absurd rfl (defer _ _)
  all_goals
    first
    | (cases ht; rfl)
    | (cases ht; exact setReplica_controller rfl)
    | (split at ht <;> cases ht <;> first
        | rfl
        | exact setReplica_controller rfl
        | (split <;> rfl))

lemma dropped_controller {op : Op} (ht : s.dropped r op = some t) : t.controller = s.controller := by
  unfold State.dropped at ht
  split at ht
  · obtain ⟨c, -, rfl⟩ := Option.map_eq_some_iff.mp ht
    exact setReplica_controller rfl
  · obtain ⟨c, -, rfl⟩ := Option.map_eq_some_iff.mp ht
    exact setReplica_controller rfl
  · split at ht
    · obtain rfl := Option.some.inj ht
      rfl
    · cases ht

lemma startedAll_controller (s : State) (new : Option Thread) :
    (s.startedAll new).controller = s.controller := by
  cases new <;> rfl

/-- What the event sets a deferral to. -/
def Event.defers? : Event → Option (ℕ × JobId × Option ℕ)
  | .op i (.dropDeferral key) _ => some (i, key, none)
  | .op i (.defer key until_) _ => some (i, key, some until_)
  | _ => none

@[simps] def Controller.setDeferral (c : Controller) (key : JobId) (d : Option ℕ) : Controller :=
  { c with deferred := Function.update c.deferred key d }

/-- A thread of the replica sets a deferral. -/
def Defers (s : State) (r : ℕ) (e : Event) (key : JobId) (d : Option ℕ) : Prop :=
  ∃ i th, e.defers? = some (i, key, d) ∧ s.threads i = some th ∧ th.replica = r

/-- What a step does to what replica `r` keeps for its sweeps. -/
inductive Steers (cfg : Config) (s : State) (r : ℕ) : Event → Controller → Prop
  | same {e : Event} (other : ∀ key d, ¬ Defers s r e key d) : Steers cfg s r e (s.controller r)
  | tick (done : s.isDone (s.controller r).sweeper = true) :
      Steers cfg s r (.tick r) { s.controller r with sweeper := some s.nextThread }
  | cancel : Steers cfg s r (.cancel r) { s.controller r with cancelled := true }
  | defers {e : Event} {key : JobId} {d : Option ℕ} (sets : Defers s r e key d) :
      Steers cfg s r e ((s.controller r).setDeferral key d)

lemma not_defers {d : Option ℕ} (other : e.defers? = none) : ¬ Defers s r e key d := by
  rintro ⟨i, th, sets, -⟩
  rw [other] at sets
  cases sets

lemma Steers.of_eq (same : t.controller = s.controller) (other : e.defers? = none) :
    Steers cfg s r e (t.controller r) := by
  rw [same]
  exact .same fun _ _ => not_defers other

lemma Steers.of_other {i : ℕ} {d : Option ℕ} (sets : e.defers? = some (i, key, d))
    (at_ : s.threads i = some th) (other : r ≠ th.replica) : Steers cfg s r e (s.controller r) := by
  refine .same fun key' d' => ?_
  rintro ⟨j, th', sets', at_', own⟩
  obtain ⟨rfl, -⟩ := Prod.mk.inj (Option.some.inj (sets.symm.trans sets'))
  obtain rfl := Option.some.inj (at_.symm.trans at_')
  exact other own.symm

theorem step_controller (taken : step cfg s e = some t) (r : ℕ) : Steers cfg s r e (t.controller r) := by
  cases e with
  | arrive | admin | advance =>
    obtain rfl := Option.some.inj taken
    exact .of_eq rfl rfl
  | tick q =>
    simp only [step] at taken
    split at taken
    next done =>
      obtain rfl := Option.some.inj taken
      by_cases own : r = q
      · subst own
        have new := setReplica_self (s := s) (r := r)
          (p := { s.replicas r with sweeper := some s.nextThread })
        exact (congrArg (Steers cfg s r (.tick r)) new).mpr (.tick done)
      · have kept := setReplica_other (s := s) (p := { s.replicas q with sweeper := some s.nextThread }) own
        exact (congrArg (Steers cfg s r (.tick q)) kept).mpr (.same fun _ _ => not_defers rfl)
    next => cases taken
  | allocation q a =>
    simp only [step] at taken
    split at taken
    · obtain rfl := Option.some.inj taken
      exact .of_eq (s := s) (setReplica_controller rfl) rfl
    · cases taken
  | op i op a =>
    obtain ⟨th, at_, taken⟩ := Option.bind_eq_some_iff.mp taken
    obtain ⟨code, -, taken⟩ := Option.bind_eq_some_iff.mp taken
    obtain ⟨u, hu, taken⟩ := Option.bind_eq_some_iff.mp taken
    obtain rfl := Option.some.inj taken
    rw [startedAll_controller]
    change Steers cfg s r _ (u.controller r)
    cases op with
    | dropDeferral key =>
      obtain rfl := Option.some.inj hu
      by_cases own : r = th.replica
      · subst own
        rw [setReplica_self]
        exact .defers ⟨i, th, rfl, at_, rfl⟩
      · rw [setReplica_other own]
        exact .of_other rfl at_ own
    | defer key until_ =>
      obtain rfl := Option.some.inj hu
      by_cases own : r = th.replica
      · subst own
        rw [setReplica_self]
        exact .defers ⟨i, th, rfl, at_, rfl⟩
      · rw [setReplica_other own]
        exact .of_other rfl at_ own
    | _ => exact .of_eq (answer_controller (by simp) (by simp) hu) rfl
  | coord q e =>
    simp only [step] at taken
    split at taken
    · obtain rfl := Option.some.inj taken
      exact .of_eq (setReplica_controller rfl) rfl
    · cases taken
  | beat i =>
    obtain ⟨th, -, taken⟩ := Option.bind_eq_some_iff.mp taken
    obtain ⟨job, -, taken⟩ := Option.bind_eq_some_iff.mp taken
    obtain rfl := Option.some.inj taken
    exact .of_eq rfl rfl
  | relayed i =>
    simp only [step] at taken
    split at taken
    · split at taken
      · obtain rfl := Option.some.inj taken
        exact .of_eq (s := s) rfl rfl
      · cases taken
    · cases taken
  | disconnect i =>
    simp only [step] at taken
    split at taken
    next q op rest own at_ =>
      obtain ⟨u, hu, taken⟩ := Option.bind_eq_some_iff.mp taken
      obtain rfl := Option.some.inj taken
      exact .of_eq ((guardDropped_controller u q own.guard).trans (dropped_controller hu)) rfl
    next => cases taken
  | cancel q =>
    obtain rfl := Option.some.inj taken
    by_cases own : r = q
    · subst own
      rw [setReplica_self]
      exact .cancel
    · rw [setReplica_other own]
      exact .same fun _ _ => not_defers rfl

/-- The sweeper changes with a tick only, and a tick starts when the one before is over. -/
lemma step_sweeper (taken : step cfg s e = some t) (r : ℕ) :
    (t.controller r).sweeper = (s.controller r).sweeper ∨
      (e = .tick r ∧ s.isDone (s.controller r).sweeper = true ∧
        (t.controller r).sweeper = some s.nextThread ∧
        (t.controller r).deferred = (s.controller r).deferred) := by
  have steers := step_controller taken r
  generalize t.controller r = c at steers ⊢
  cases steers with
  | tick done => exact .inr ⟨rfl, done, rfl, rfl⟩
  | same | cancel | defers => exact .inl rfl

lemma deferred_kept (taken : step cfg s e = some t) (other : ∀ key d, ¬ Defers s r e key d) :
    (t.controller r).deferred = (s.controller r).deferred := by
  have steers := step_controller taken r
  generalize t.controller r = c at steers ⊢
  cases steers with
  | defers sets => exact absurd sets (other _ _)
  | same | tick | cancel => rfl

lemma deferred_set {d : Option ℕ} (taken : step cfg s e = some t) (sets : Defers s r e key d) :
    (t.controller r).deferred = Function.update (s.controller r).deferred key d := by
  have steers := step_controller taken r
  generalize t.controller r = c at steers ⊢
  obtain ⟨i, th, own, at_⟩ := sets
  cases steers with
  | same other => exact absurd ⟨i, th, own, at_⟩ (other key d)
  | tick | cancel => cases own
  | defers sets' =>
    obtain ⟨j, th', own', -⟩ := sets'
    cases own.symm.trans own'
    rfl

lemma tick_sweeper (taken : step cfg s (.tick r) = some t) :
    (t.controller r).sweeper = some s.nextThread := by
  simp only [step] at taken
  split at taken
  · obtain rfl := Option.some.inj taken
    exact congrArg Controller.sweeper setReplica_self
  · cases taken

/-! ## The thread of a sweep -/

/-- A thread is there for good. -/
lemma thread_stays (taken : step cfg s e = some t) (at_ : s.threads i = some th) :
    ∃ next, t.threads i = some next := by
  have stays (u : State) (new : Option Thread) (there : ∃ next, u.threads i = some next) :
      ∃ next, (u.startedAll new).threads i = some next := by
    cases new with
    | none => exact there
    | some th =>
      by_cases fresh : i = u.nextThread
      · exact ⟨th, by simp [State.startedAll, fresh]⟩
      · simpa [State.startedAll, fresh] using there
  have sets (u : State) (j : ℕ) (new : Thread) (there : ∃ next, u.threads i = some next) :
      ∃ next, (u.setThread j new).threads i = some next := by
    by_cases own : i = j
    · exact ⟨new, by simp [own]⟩
    · simpa [own] using there
  cases e with
  | arrive | admin =>
    obtain rfl := Option.some.inj taken
    exact stays s (some _) ⟨th, at_⟩
  | tick | allocation =>
    simp only [step] at taken
    split at taken
    · obtain rfl := Option.some.inj taken
      exact stays _ (some _) ⟨th, at_⟩
    · cases taken
  | op j op a =>
    obtain ⟨acting, -, taken⟩ := Option.bind_eq_some_iff.mp taken
    obtain ⟨code, -, taken⟩ := Option.bind_eq_some_iff.mp taken
    obtain ⟨u, hu, taken⟩ := Option.bind_eq_some_iff.mp taken
    obtain rfl := Option.some.inj taken
    exact stays _ _ (sets u j _ ⟨th, by rw [(answer_threads hu).1, at_]⟩)
  | coord =>
    simp only [step] at taken
    split at taken
    · obtain rfl := Option.some.inj taken
      exact ⟨th, at_⟩
    · cases taken
  | beat j =>
    obtain ⟨acting, -, taken⟩ := Option.bind_eq_some_iff.mp taken
    obtain ⟨job, -, taken⟩ := Option.bind_eq_some_iff.mp taken
    obtain rfl := Option.some.inj taken
    exact stays s (some _) ⟨th, at_⟩
  | relayed j =>
    simp only [step] at taken
    split at taken
    · split at taken
      · obtain rfl := Option.some.inj taken
        exact sets s j _ ⟨th, at_⟩
      · cases taken
    · cases taken
  | disconnect j =>
    simp only [step] at taken
    split at taken
    next r op rest own _ =>
      obtain ⟨u, hu, taken⟩ := Option.bind_eq_some_iff.mp taken
      obtain rfl := Option.some.inj taken
      refine sets _ j _ ⟨th, ?_⟩
      rw [(guardDropped_threads u r own.guard).1, (dropped_threads hu).1, at_]
    next => cases taken
  | advance | cancel =>
    obtain rfl := Option.some.inj taken
    exact ⟨th, at_⟩

/-- The sweeper of a replica is one of its threads. -/
def Seated (s : State) : Prop :=
  ∀ r i, (s.controller r).sweeper = some i → ∃ th, s.threads i = some th ∧ th.replica = r

lemma seated_of_run (run : RunWhere (system cfg) C h s) : Seated s := by
  apply run.invariant fun _ s => Seated s
  · intro r i sweeps
    cases sweeps
  · intro h s t e prior seated taken _ r i sweeps
    rcases step_sweeper taken r with same | ⟨rfl, -, new, -⟩
    · obtain ⟨th, at_, own⟩ := seated r i (same.symm.trans sweeps)
      obtain ⟨next, there⟩ := thread_stays taken at_
      refine ⟨next, there, ?_⟩
      rcases thread_cases taken there with ⟨th', old, moved⟩ | ⟨rfl, -⟩
      · obtain rfl := Option.some.inj (old.symm.trans at_)
        rw [moved.replica, own]
      · exact absurd (thread_lt prior at_) (lt_irrefl _)
    · obtain rfl := Option.some.inj (new.symm.trans sweeps)
      have ticks : step cfg s (.tick r) = some t := taken
      simp only [step] at ticks
      split at ticks
      · obtain rfl := Option.some.inj ticks
        exact ⟨⟨r, tick cfg, .nothing, false⟩, by simp, rfl⟩
      · cases ticks

/-- A new thread is quiet, or the tick of its replica. -/
lemma starts_quiet (started : starts cfg s e = some th) :
    th.code.Uses Quiet ∨ (e = .tick th.replica ∧ th.code = tick cfg ∧ th.client = false) := by
  cases e with
  | arrive r req =>
    obtain rfl := Option.some.inj started
    exact .inl (quiet_of_names req (activityService_names req .nothing))
  | tick r =>
    obtain rfl := Option.some.inj started
    exact .inr ⟨rfl, rfl, rfl⟩
  | allocation r a =>
    obtain rfl := Option.some.inj started
    exact .inl (quiet_of_names anyRequest (processAllocationEvent_names a .nothing))
  | admin r reg =>
    obtain rfl := Option.some.inj started
    exact .inl (adminRegister_quiet reg)
  | op j op a =>
    obtain ⟨parent, -, hs⟩ := Option.bind_eq_some_iff.mp started
    cases op with
    | spawn task =>
      have code : th.code = task.code := by
        cases task <;> obtain rfl := Option.some.inj hs <;> rfl
      exact .inl (code ▸ task_quiet task)
    | _ => simp [spawned] at hs
  | beat j =>
    obtain ⟨parent, -, hs⟩ := Option.bind_eq_some_iff.mp started
    obtain ⟨job, -, rfl⟩ := Option.map_eq_some_iff.mp hs
    exact .inl (task_quiet (.recordActivity job))
  | _ => simp [starts] at started

/-- A thread is quiet, or the sweep of its replica. -/
inductive OnTurn (h : List Event) (s : State) (i : ℕ) (th : Thread) : Prop
  | quiet (uses : th.code.Uses Quiet) (owed : (turnView i h).turn.owing = none)
  | sweeps (own : (s.controller th.replica).sweeper = some i) (stays : th.client = false)
      (settles : Settles th.code (turnView i h))

lemma turnView_other (other : e.thread? ≠ some i) : turnView i (e :: h) = turnView i h :=
  observed_other other

lemma turnView_op (i : ℕ) (op : Op) (a : op.Answer) (h : List Event) :
    turnView i (.op i op a :: h) = turnMonitor.next (turnView i h) op a := if_pos rfl

lemma turnView_fresh (run : RunWhere (system cfg) C h s) (taken : step cfg s e = some t) :
    turnView s.nextThread (e :: h) = .start := by
  rw [turnView, observed_other, observed_fresh run le_rfl]
  intro acts
  exact (acting_lt run taken acts).false

lemma client_of_disconnect (taken : step cfg s (.disconnect i) = some t) (at_ : s.threads i = some th) :
    th.client = true := by
  simp only [step] at taken
  split at taken
  next found =>
    obtain rfl := Option.some.inj (at_.symm.trans found)
    rfl
  next => cases taken

/-- A sweep that is over owes nothing. -/
lemma owing_of_done (on : OnTurn h s i th) (at_ : s.threads i = some th)
    (done : s.isDone (some i) = true) : (turnView i h).turn.owing = none := by
  cases on with
  | quiet uses owed => exact owed
  | sweeps own stays settles =>
    obtain ⟨r, code, o, client⟩ := th
    cases code with
    | pure _ => exact settles
    | perform op rest => simp [State.isDone, at_] at done

lemma OnTurn.move (on : OnTurn h s i th) (at_ : s.threads i = some th)
    (taken : step cfg s e = some t) (moved : Moved i th e next) : OnTurn (e :: h) t i next := by
  have steers := step_sweeper taken th.replica
  cases moved with
  | same other =>
    cases on with
    | quiet uses owed => exact .quiet uses (by rw [turnView_other other, owed])
    | sweeps own stays settles =>
      rcases steers with same | ⟨rfl, done, -⟩
      · exact .sweeps (same.trans own) stays (by rwa [turnView_other other])
      · -- the next tick has begun, since this one is over
        rw [own] at done
        have owed := owing_of_done (.sweeps own stays settles) at_ done
        refine .quiet ?_ (by rw [turnView_other other, owed])
        obtain ⟨r, code, o, client⟩ := th
        cases code with
        | pure _ => trivial
        | perform op rest => simp [State.isDone, at_] at done
  | @answered op a code done =>
    cases on with
    | quiet uses owed =>
      obtain ⟨rest, performs, rfl⟩ := Program.answered?_eq_some.mp done
      rw [performs] at uses
      refine .quiet (uses.2 a) ?_
      rw [turnView_op]
      rcases next_of_quiet (v := turnView i h) uses.1 a with same | ⟨time, rfl, read⟩
      · rw [same]
        exact owed
      · rw [read]
        exact Turn.at_owing.trans owed
    | sweeps own stays settles =>
      rcases steers with same | ⟨impossible, -⟩
      · refine .sweeps (same.trans own) stays ?_
        rw [turnView_op]
        exact (settles.answered done).2 trivial
      · cases impossible
  | relayed done =>
    have other : (Event.relayed i).thread? ≠ some i := by simp [Event.thread?]
    cases on with
    | quiet uses owed => exact .quiet uses (by rw [turnView_other other, owed])
    | sweeps own stays settles =>
      rcases steers with same | ⟨impossible, -⟩
      · exact .sweeps (same.trans own) stays (by rwa [turnView_other other])
      · cases impossible
  | dropped =>
    have other : (Event.disconnect i).thread? ≠ some i := by simp [Event.thread?]
    cases on with
    | quiet uses owed => exact .quiet trivial (by rw [turnView_other other, owed])
    | sweeps own stays settles =>
      rw [client_of_disconnect taken at_] at stays
      cases stays

theorem onTurn_of_run (run : RunWhere (system cfg) C h s) (at_ : s.threads i = some th) :
    OnTurn h s i th := by
  have all : ∀ i th, s.threads i = some th → OnTurn h s i th := by
    apply run.invariant fun h s => ∀ i th, s.threads i = some th → OnTurn h s i th
    · intro i th at_
      simp [system, initial] at at_
    · intro h s t e prior ih taken _ i next at_
      rcases thread_cases taken at_ with ⟨th, old, moved⟩ | ⟨rfl, started⟩
      · exact (ih i th old).move old taken moved
      · have fresh : turnView s.nextThread (e :: h) = .start := turnView_fresh prior taken
        rcases starts_quiet started with uses | ⟨rfl, code, client⟩
        · exact .quiet uses (by rw [fresh]; rfl)
        · refine .sweeps (tick_sweeper taken) client ?_
          rw [fresh, code]
          exact tick_settles
  exact all i th at_

/-- What is not quiet is done by the sweep of the replica that runs. -/
lemma sweeper_of_turn {op : Op} {a : op.Answer} (run : RunWhere (system cfg) C h s)
    (taken : step cfg s (.op i op a) = some t) (turns : ¬ Quiet op) : ∃ th, s.threads i = some th ∧
      (s.controller th.replica).sweeper = some i ∧ turnMonitor.requires (turnView i h) op := by
  obtain ⟨th, at_, taken⟩ := Option.bind_eq_some_iff.mp taken
  obtain ⟨code, done, -⟩ := Option.bind_eq_some_iff.mp taken
  refine ⟨th, at_, ?_⟩
  cases onTurn_of_run run at_ with
  | quiet uses owed =>
    obtain ⟨rest, performs, -⟩ := Program.answered?_eq_some.mp done
    rw [performs] at uses
    exact absurd uses.1 turns
  | sweeps own stays settles => exact ⟨own, (settles.answered done).1⟩

end NScale.Deployment
