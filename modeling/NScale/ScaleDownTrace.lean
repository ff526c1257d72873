import NScale.EndpointPinning
import NScale.ExchangeGuard

/-!
# What a scale-down leaves of a job

The sweep of one replica against the state of the deployment, when nothing else happens: the
operations of `scale_down_job` are answered one after the other, and the coordinator only runs
the call that is awaited.
-/
namespace NScale.ScaleDownTrace
open Transition Program Service Deployment
open WakeCoordinator (echoReg)

/-- What a replica and the activity store keep under the name of a job. -/
@[ext] structure Records where
  endpoint : Option Endpoint
  activity : Option ℕ
  deferral : Option ℕ
  baseline : Option ℕ

section Trace
variable (cfg : Config) (r : ℕ) (job : JobId) (s : State)

/-- There are baselines only where there is a traffic probe. -/
@[simps] def records : Records where
  endpoint := (s.coordinator r).endpoints job
  activity := s.activity.lookup job
  deferral := (s.replicas r).deferred job
  baseline := if cfg.trafficProbe then (s.replicas r).lastCounts job else none

/-- `WakeCoordinator::is_ready`. -/
def isReady : Bool := ((s.coordinator r).endpoints job).isSome

/-- No live trace of the job. -/
structure Traceless : Prop where
  ready : isReady r job s = false
  activity : s.activity.lookup job = none
  deferral : (s.replicas r).deferred job = none
  baseline : cfg.trafficProbe = true → (s.replicas r).lastCounts job = none

end Trace

/-- The deployment, and the job that Nomad has scaled down. -/
structure World where
  state : State
  scaled : Option JobId

/-- The commands to Redis and the requests to etcd succeed. -/
def Succeeds : (op : Op) → op.Answer → Prop
  | .store _, .error _ | .zadd .., .error _ | .zrem _, .error _ => False
  | .incrementNotFound _, .error _ | .clearNotFound _, .error _ => False
  | _, _ => True

/-- The coordinator runs the call that the operation awaits, and no other. -/
def Awaits (cfg : Config) (op : Op) (s t : WakeCoordinator.State) : Prop :=
  ∃ h, RunFrom (WakeCoordinator.system cfg.nomadConcurrency cfg.wakeTimeout)
    (fun _ _ e => ∃ c, EndpointPinning.awaited? op = some c ∧ e.caller? = some c) [] s h t

/-- An operation of the sweep of replica `r`. -/
def Alone (cfg : Config) (r : ℕ) (op : Op) (w : World) (a : op.Answer) (u : World) : Prop :=
  Succeeds op a ∧ (∃ c, Awaits cfg op (w.state.coordinator r) c ∧
    (w.state.setCoordinator r c).answer r .nothing op a = some u.state) ∧
  u.scaled = match op, a with
    | .scaleDown job _, .ok () => some job
    | _, _ => w.scaled

variable {cfg : Config} {r : ℕ} {key job : JobId} {s t : State} {w u : World}

lemma traceless_iff : Traceless cfg r job s ↔ records cfg r job s = ⟨none, none, none, none⟩ := by
  rw [Records.ext_iff]
  simp only [records_endpoint, records_activity, records_deferral, records_baseline]
  constructor
  · rintro ⟨ready, activity, deferral, baseline⟩
    refine ⟨by simpa [isReady] using ready, activity, deferral, ?_⟩
    split_ifs with probe
    · exact baseline probe
    · rfl
  · rintro ⟨endpoint, activity, deferral, baseline⟩
    exact ⟨by simp [isReady, endpoint], activity, deferral, fun probe => by simpa [probe] using baseline⟩

/-! ## What the operations do to the records -/

/-- The record of a job after an operation that succeeds. -/
def effect (cfg : Config) (op : Op) (job : JobId) (rec : Records) : Records :=
  match op with
  | .zadd k score => if job = k then { rec with activity := some score } else rec
  | .zrem k => if job = k then { rec with activity := none } else rec
  | .dropDeferral k => if job = k then { rec with deferral := none } else rec
  | .defer k until_ => if job = k then { rec with deferral := some until_ } else rec
  | .clearBaseline k => if job = k then { rec with baseline := none } else rec
  | .replaceCount k total =>
    if job = k then { rec with baseline := if cfg.trafficProbe then some total else none } else rec
  | _ => rec

/-- A record is read from the replica and from the activity store. -/
lemma records_eq {replica : Replica} (same : t.replicas r = replica) (job : JobId) :
    records cfg r job t = ⟨replica.coordinator.endpoints job, t.activity.lookup job,
      replica.deferred job, if cfg.trafficProbe then replica.lastCounts job else none⟩ := by
  subst same
  rfl

lemma setReplica_self (s : State) (r : ℕ) (replica : Replica) :
    (s.setReplica r replica).replicas r = replica := Function.update_self ..

lemma records_guardDropped (guard : Option JobId) (job : JobId) :
    records cfg r job (s.guardDropped r guard) = records cfg r job s := by
  cases guard with
  | none => rfl
  | some j => exact records_eq (setReplica_self ..) job

lemma records_answer {own : Own} {op : Op} {a : op.Answer} (succeeds : Succeeds op a)
    (answered : s.answer r own op a = some t) (job : JobId) :
    records cfg r job t = effect cfg op job (records cfg r job s) := by
  cases op with
  | track j =>
    obtain rfl := Option.some.inj answered
    exact records_eq (setReplica_self ..) job
  | dropGuard =>
    obtain rfl := Option.some.inj answered
    exact records_guardDropped own.guard job
  | zadd k score =>
    cases a with
    | error e => exact succeeds.elim
    | ok _ =>
      obtain rfl := Option.some.inj answered
      by_cases own : job = k
      · subst own
        simp [effect, records, State.coordinator]
      · simp [effect, records, State.coordinator, own, AList.lookup_insert_ne own]
  | zrem k =>
    cases a with
    | error e => exact succeeds.elim
    | ok _ =>
      obtain rfl := Option.some.inj answered
      by_cases own : job = k
      · subst own
        simp [effect, records, State.coordinator, AList.lookup_erase]
      · simp [effect, records, State.coordinator, own, AList.lookup_erase_ne own]
  | dropDeferral k | defer k _ | clearBaseline k =>
    obtain rfl := Option.some.inj answered
    rw [records_eq (setReplica_self ..)]
    by_cases own : job = k <;> simp [effect, records, State.coordinator, own]
  | replaceCount k total =>
    simp only [State.answer] at answered
    split at answered
    · obtain rfl := Option.some.inj answered
      rw [records_eq (setReplica_self ..)]
      by_cases own : job = k <;> simp [effect, records, State.coordinator, own]
    · cases answered
  | call | seeRunning =>
    simp only [State.answer] at answered
    split at answered
    · obtain rfl := Option.some.inj answered
      exact records_eq (setReplica_self ..) job
    · cases answered
  | forgetRunning alloc =>
    obtain rfl := Option.some.inj answered
    exact records_eq (setReplica_self ..) job
  | store o =>
    cases a with
    | error e => exact succeeds.elim
    | ok v =>
      simp only [State.answer] at answered
      split at answered
      · obtain rfl := Option.some.inj answered
        rfl
      · cases answered
  | now | cancelled | hasInFlight | ensured | refreshed | cleared | deferral =>
    simp only [State.answer] at answered
    split at answered
    · obtain rfl := Option.some.inj answered
      rfl
    · cases answered
  | incrementNotFound j | zrangebyscore | tryAcquireLock =>
    cases a with
    | error e => first | exact succeeds.elim | (obtain rfl := Option.some.inj answered; rfl)
    | ok n =>
      simp only [State.answer] at answered
      split at answered
      · obtain rfl := Option.some.inj answered
        first | rfl | (split <;> rfl)
      · cases answered
  | clearNotFound j =>
    cases a with
    | error e => exact succeeds.elim
    | ok _ =>
      obtain rfl := Option.some.inj answered
      rfl
  | releaseLock =>
    cases a with
    | error e =>
      obtain rfl := Option.some.inj answered
      rfl
    | ok _ =>
      simp only [State.answer] at answered
      split at answered
      · obtain rfl := Option.some.inj answered
        split <;> rfl
      · obtain rfl := Option.some.inj answered
        rfl
  | connect | response | upgradeResponse =>
    cases a with
    | ok _ =>
      obtain rfl := Option.some.inj answered
      rfl
    | error e =>
      simp only [State.answer] at answered
      split at answered <;> cases answered <;> rfl
  | _ =>
    obtain rfl := Option.some.inj answered
    rfl

/-! ## The call of the coordinator -/

lemma records_setCoordinator (s : State) (c : WakeCoordinator.State) (job : JobId) :
    records cfg r job (s.setCoordinator r c) =
      { records cfg r job s with endpoint := c.endpoints job } :=
  records_eq (setReplica_self ..) job

/-- Nothing is awaited, so that the coordinator stands still. -/
lemma Awaits.still {op : Op} {c d : WakeCoordinator.State} (awaits : Awaits cfg op c d)
    (none_ : EndpointPinning.awaited? op = none) : d = c := by
  obtain ⟨h, run⟩ := awaits
  cases run with
  | nil => rfl
  | step prior taken cond =>
    obtain ⟨k, awaited, -⟩ := cond
    rw [none_] at awaited
    cases awaited

/-- Where a call of `mark_dormant` is, and what it has done. -/
def Marking (key : JobId) (k : ℕ) (e₀ : JobId → Option Endpoint) (c : WakeCoordinator.State) : Prop :=
  ∃ p, c.calls k = some p ∧ match p with
    | .evict j .markDormant => j = key ∧ c.endpoints = e₀
    | .reset j .markDormant | .remove j .markDormant | .cleared j =>
      j = key ∧ c.endpoints = Function.update e₀ key none
    | _ => False

lemma Marking.next {k : ℕ} {e₀ : JobId → Option Endpoint} {c : WakeCoordinator.State}
    {e : WakeCoordinator.Event} (marking : Marking key k e₀ c) (own : e.caller? = some k)
    (en : e.enabled c = true) : Marking key k e₀ (e.next c) := by
  obtain ⟨p, at_, pos⟩ := marking
  cases e with
  | evict i j by_ =>
    obtain rfl := Option.some.inj own
    obtain rfl := Option.some.inj (at_.symm.trans (of_decide_eq_true en))
    cases by_ with
    | markDormant =>
      obtain ⟨rfl, rfl⟩ := pos
      exact ⟨.reset j .markDormant, by simp [WakeCoordinator.Event.next], rfl, rfl⟩
    | invalidate | refresh => exact pos.elim
  | reset i j by_ =>
    obtain rfl := Option.some.inj own
    obtain rfl := Option.some.inj (at_.symm.trans (of_decide_eq_true en))
    cases by_ with
    | markDormant =>
      obtain ⟨rfl, done⟩ := pos
      exact ⟨.remove j .markDormant, by simp [WakeCoordinator.Event.next], rfl,
        (WakeCoordinator.State.storeStatus_endpoints ..).trans done⟩
    | invalidate | refresh => exact pos.elim
  | remove i j by_ =>
    obtain rfl := Option.some.inj own
    obtain rfl := Option.some.inj (at_.symm.trans (of_decide_eq_true en))
    cases by_ with
    | markDormant =>
      obtain ⟨rfl, done⟩ := pos
      exact ⟨.cleared j, by simp [WakeCoordinator.Event.next, WakeCoordinator.Reset.finish], rfl, done⟩
    | invalidate | refresh => exact pos.elim
  | fastPath | entry | load | cached | fetched | store | subscribe | tryStart | ownSubscribe | spawn
  | recv | timeout | queried | refreshStore | refreshReady =>
    obtain rfl := Option.some.inj own
    obtain rfl := Option.some.inj (at_.symm.trans (of_decide_eq_true en))
    exact pos.elim
  | _ => cases own

/-- A call of `mark_dormant` that returns has evicted the endpoint of its job, and no other. -/
lemma markDormant_endpoints {c d : WakeCoordinator.State} {k : ℕ}
    (called : c.calls k = some (.evict key .markDormant)) (awaits : Awaits cfg (.cleared key k) c d)
    (returned : d.calls k = some (.cleared key)) :
    d.endpoints = Function.update c.endpoints key none := by
  obtain ⟨h, run⟩ := awaits
  have marking : Marking key k c.endpoints d := by
    refine run.state_invariant (Marking key k c.endpoints) ⟨_, called, rfl, rfl⟩ ?_
    rintro h s t e marking taken ⟨i, awaited, own⟩
    obtain rfl := Option.some.inj awaited
    obtain ⟨en, rfl⟩ := WakeCoordinator.step_iff.mp taken
    exact marking.next own en
  obtain ⟨p, at_, pos⟩ := marking
  obtain rfl := Option.some.inj (at_.symm.trans returned)
  exact pos.2

/-! ## What is left after each part of a scale-down -/

/-- Other jobs have the records that they had, the job that is scaled down has such a record. -/
structure Left (cfg : Config) (r : ℕ) (key : JobId) (s₀ : State) (E : Records → Prop)
    (scaled : Option JobId) (w : World) : Prop where
  apart : ∀ job, job ≠ key → records cfg r job w.state = records cfg r job s₀
  own : E (records cfg r key w.state)
  scaled : w.scaled = scaled

/-- The operation changes the records of one job only, and neither awaits a call nor scales. -/
structure About (key : JobId) (op : Op) : Prop where
  apart : ∀ cfg job rec, job ≠ key → effect cfg op job rec = rec
  still : EndpointPinning.awaited? op = none
  unscaled : ∀ job group, op ≠ .scaleDown job group

variable {s₀ : State} {E E' : Records → Prop} {scaled : Option JobId}

lemma Left.answered (left : Left cfg r key s₀ E scaled w) {op : Op} {a : op.Answer}
    (apart : ∀ cfg job rec, job ≠ key → effect cfg op job rec = rec)
    (still : EndpointPinning.awaited? op = none) (alone : Alone cfg r op w a u)
    (imp : ∀ rec, E rec → E' (effect cfg op key rec)) : Left cfg r key s₀ E' u.scaled u := by
  obtain ⟨succeeds, ⟨c, awaits, answered⟩, -⟩ := alone
  obtain rfl := awaits.still still
  have unchanged (job : JobId) : records cfg r job (w.state.setCoordinator r (w.state.coordinator r)) =
      records cfg r job w.state := records_setCoordinator ..
  refine ⟨fun job other => ?_, ?_, rfl⟩
  · rw [records_answer succeeds answered, apart _ _ _ other, unchanged, left.apart job other]
  · rw [records_answer succeeds answered, unchanged]
    exact imp _ left.own

lemma scaled_of_about {op : Op} {a : op.Answer} (about : About key op) (alone : Alone cfg r op w a u) :
    u.scaled = w.scaled := by
  have kept := alone.2.2
  split at kept
  next job group => exact absurd rfl (about.unscaled job group)
  next => exact kept

lemma triple_perform {op : Op} (about : About key op)
    (imp : ∀ rec, E rec → E' (effect cfg op key rec)) :
    Triple (Alone cfg r) (Left cfg r key s₀ E scaled) (perform op)
      fun _ => Left cfg r key s₀ E' scaled := by
  refine .call fun w a u left alone => ?_
  have after := left.answered about.apart about.still alone imp
  rwa [scaled_of_about about alone, left.scaled] at after

lemma triple_uses {α : Type} {p : Code α} (uses : p.Uses (About key)) :
    Triple (Alone cfg r) (Left cfg r key s₀ (fun _ => True) scaled) p
      fun _ => Left cfg r key s₀ (fun _ => True) scaled := by
  refine .of_uses _ uses fun op w a u about left alone => ?_
  have after : Left cfg r key s₀ (fun _ => True) u.scaled u :=
    left.answered about.apart about.still alone fun _ _ => trivial
  rwa [scaled_of_about about alone, left.scaled] at after

/-- `mark_dormant` evicts the endpoint of its job. -/
lemma triple_markDormant (imp : ∀ rec, E rec → E' { rec with endpoint := none }) :
    Triple (Alone cfg r) (Left cfg r key s₀ E scaled) (markDormant key)
      fun _ => Left cfg r key s₀ E' scaled := by
  have begins : Triple (Alone cfg r) (Left cfg r key s₀ E scaled)
      (perform (.call (.markDormant key))) fun k w => Left cfg r key s₀ E scaled w ∧
        (w.state.coordinator r).calls k = some (.evict key .markDormant) := by
    refine .call fun w k u left alone => ?_
    have after : Left cfg r key s₀ E u.scaled u :=
      left.answered (fun _ _ _ _ => rfl) rfl alone fun _ holds => holds
    obtain ⟨-, ⟨c, awaits, answered⟩, same⟩ := alone
    obtain rfl := awaits.still rfl
    rw [same.trans left.scaled] at after
    refine ⟨after, ?_⟩
    simp only [State.answer] at answered
    split at answered
    next numbered =>
      rw [numbered, ← Option.some.inj answered]
      simp [State.coordinator, State.setCoordinator, WakeCoordinator.Event.next,
        WakeCoordinator.Operation.call]
    next => cases answered
  refine .bind begins fun k => .call fun w _ u both alone => ?_
  obtain ⟨left, called⟩ := both
  obtain ⟨-, ⟨c, awaits, answered⟩, same⟩ := alone
  simp only [State.answer] at answered
  split at answered
  next returned =>
    have returned : c.calls k = some (.cleared key) := by
      simpa [State.coordinator, State.setCoordinator] using returned
    have evicted := markDormant_endpoints called awaits returned
    have state : u.state = w.state.setCoordinator r c := (Option.some.inj answered).symm
    refine ⟨fun job other => ?_, ?_, same.trans left.scaled⟩
    · rw [state, records_setCoordinator, evicted, Function.update_of_ne other]
      exact left.apart job other
    · rw [state, records_setCoordinator, evicted, Function.update_self]
      exact imp _ left.own
  next => cases answered

/-! ## The code of a scale-down -/

/-- An operation that is not about any record. -/
lemma About.of_plain {op : Op} (plain : ∀ cfg job rec, effect cfg op job rec = rec)
    (still : EndpointPinning.awaited? op = none) (unscaled : ∀ job group, op ≠ .scaleDown job group) :
    About key op := ⟨fun cfg job rec _ => plain cfg job rec, still, unscaled⟩

lemma about_zrem : About key (.zrem key) := ⟨fun _ _ _ other => if_neg other, rfl, nofun⟩

lemma about_dropDeferral : About key (.dropDeferral key) :=
  ⟨fun _ _ _ other => if_neg other, rfl, nofun⟩

lemma about_clearBaseline : About key (.clearBaseline key) :=
  ⟨fun _ _ _ other => if_neg other, rfl, nofun⟩

lemma perform_about {op : Op} (about : About key op) : (perform op).Uses (About key) :=
  ⟨about, fun _ => trivial⟩

lemma registry_about {α : Type} (x : JobRegistry.Action α) : (registry x).Uses (About key) :=
  .lift ((Uses.all x.run).mono fun _ _ => .of_plain (fun _ _ _ => rfl) rfl nofun)

lemma recordActivity_about : (recordActivity key).Uses (About key) :=
  ⟨.of_plain (fun _ _ _ => rfl) rfl nofun, fun _ =>
    perform_about ⟨fun _ _ _ other => if_neg other, rfl, nofun⟩⟩

lemma clearMissingJobCounter_about : (clearMissingJobCounter cfg key).Uses (About key) := by
  unfold clearMissingJobCounter
  split_ifs
  · exact ⟨.of_plain (fun _ _ _ => rfl) rfl nofun, fun _ => trivial⟩
  · trivial

lemma hasActiveTraffic_about : (hasActiveTraffic key).Uses (About key) := by
  refine ⟨.of_plain (fun _ _ _ => rfl) rfl nofun, fun total => ?_⟩
  cases total with
  | error e => trivial
  | ok total =>
    refine ⟨⟨fun _ _ _ other => if_neg other, rfl, nofun⟩, fun prev => ?_⟩
    cases prev <;> trivial

lemma clearBaseline_about :
    (ScaleDownController.clearBaseline cfg key).Uses (About key) := by
  unfold ScaleDownController.clearBaseline
  split_ifs
  · exact perform_about about_clearBaseline
  · trivial

/-- Without a traffic probe there is no baseline. -/
lemma Left.unprobed (left : Left cfg r key s₀ E scaled w) :
    Left cfg r key s₀ (fun rec => cfg.trafficProbe = false → rec.baseline = none) scaled w :=
  ⟨left.apart, fun off => by simp [off], left.scaled⟩

lemma triple_clearBaseline (probed : ∀ rec, E rec → E' { rec with baseline := none })
    (unprobed : ∀ rec, cfg.trafficProbe = false → E rec → E' rec) :
    Triple (Alone cfg r) (Left cfg r key s₀ E scaled) (ScaleDownController.clearBaseline cfg key)
      fun _ => Left cfg r key s₀ E' scaled := by
  unfold ScaleDownController.clearBaseline
  split_ifs with probe
  · exact triple_perform about_clearBaseline fun rec holds => by
      simpa [effect] using probed rec holds
  · exact .pure fun w left => ⟨left.apart, unprobed _ (by simpa using probe) left.own, left.scaled⟩

/-- After a scale-down that succeeded nothing is recorded of the key. -/
lemma triple_scaledDown : Triple (Alone cfg r) (Left cfg r key s₀ (fun _ => True) scaled)
    (ScaleDownController.handleScaleDownResult cfg key (.ok ()))
      fun _ => Left cfg r key s₀ (fun rec => rec = ⟨none, none, none, none⟩) scaled := by
  have dormant : Triple (Alone cfg r)
      (Left cfg r key s₀ (fun rec => cfg.trafficProbe = false → rec.baseline = none) scaled)
      (markDormant key) fun _ => Left cfg r key s₀ (fun rec => rec.endpoint = none ∧
        (cfg.trafficProbe = false → rec.baseline = none)) scaled :=
    triple_markDormant fun rec holds => ⟨rfl, holds⟩
  have removed : Triple (Alone cfg r) (Left cfg r key s₀ (fun rec => rec.endpoint = none ∧
        (cfg.trafficProbe = false → rec.baseline = none)) scaled) (perform (.zrem key))
      fun _ => Left cfg r key s₀ (fun rec => rec.endpoint = none ∧ rec.activity = none ∧
        (cfg.trafficProbe = false → rec.baseline = none)) scaled :=
    triple_perform about_zrem fun rec ⟨endpoint, holds⟩ => by
      simpa [effect] using ⟨endpoint, holds⟩
  have cleared : Triple (Alone cfg r) (Left cfg r key s₀ (fun rec => rec.endpoint = none ∧
        rec.activity = none ∧ (cfg.trafficProbe = false → rec.baseline = none)) scaled)
      (ScaleDownController.clearBaseline cfg key) fun _ => Left cfg r key s₀ (fun rec =>
        rec.endpoint = none ∧ rec.activity = none ∧ rec.baseline = none) scaled :=
    triple_clearBaseline (fun rec ⟨endpoint, activity, _⟩ => ⟨endpoint, activity, rfl⟩)
      fun rec off ⟨endpoint, activity, holds⟩ => ⟨endpoint, activity, holds off⟩
  have undeferred : Triple (Alone cfg r) (Left cfg r key s₀ (fun rec => rec.endpoint = none ∧
        rec.activity = none ∧ rec.baseline = none) scaled) (perform (.dropDeferral key))
      fun _ => Left cfg r key s₀ (fun rec => rec = ⟨none, none, none, none⟩) scaled :=
    triple_perform about_dropDeferral fun rec ⟨endpoint, activity, baseline⟩ => by
      simp [effect, endpoint, activity, baseline]
  exact .mono (.bind dormant fun _ => .bind removed fun _ => .bind cleared fun _ => undeferred)
    (fun w left => left.unprobed) fun _ _ left => left

/-- The code changes the records of the key only. -/
abbrev Keeps {α : Type} (cfg : Config) (r : ℕ) (key : JobId) (s₀ : State) (p : Code α) : Prop :=
  Triple (Alone cfg r) (Left cfg r key s₀ (fun _ => True) none) p
    fun _ => Left cfg r key s₀ (fun _ => True) none

lemma keeps_cleanup : Keeps cfg r key s₀ (ScaleDownController.cleanupMissingJobState cfg key) := by
  refine .bind (triple_markDormant fun _ _ => trivial) fun _ => triple_uses ?_
  apply Uses.bind (perform_about about_zrem)
  intro _
  apply Uses.bind (perform_about about_dropDeferral)
  intro _
  apply Uses.bind clearBaseline_about
  intro _
  apply Uses.bind (registry_about _)
  intro result
  cases result with
  | error e => trivial
  | ok _ => exact .bind (perform_about (.of_plain (fun _ _ _ => rfl) rfl nofun)) fun _ => trivial

lemma keeps_handleMissingJob :
    Keeps cfg r key s₀ (ScaleDownController.handleMissingJob cfg key) := by
  unfold ScaleDownController.handleMissingJob
  split_ifs
  · exact .pure fun _ left => left
  · refine .bind (triple_uses (perform_about (.of_plain (fun _ _ _ => rfl) rfl nofun))) fun count => ?_
    cases count with
    | error e => exact .pure fun _ left => left
    | ok count =>
      dsimp only
      split_ifs
      · exact .bind keeps_cleanup fun _ => .pure fun _ left => left
      · exact .pure fun _ left => left

lemma handleScaleDownError_about (e : NscaleError) :
    (ScaleDownController.handleScaleDownResult cfg key (.error e)).Uses (About key) := by
  unfold ScaleDownController.handleScaleDownResult
  split
  next wrong => cases wrong
  · refine Uses.bind (perform_about (.of_plain (fun _ _ _ => rfl) rfl nofun)) fun now => ?_
    refine Uses.bind (perform_about ⟨fun _ _ _ other => if_neg other, rfl, nofun⟩) fun _ => ?_
    exact .bind recordActivity_about fun _ => trivial
  · trivial

/-- The job that was scaled down, if there is one, has left no trace under the key. -/
def Settled (cfg : Config) (r : ℕ) (key : JobId) (s₀ : State) (w : World) : Prop :=
  ∃ scaled, Left cfg r key s₀ (fun rec => scaled = none ∨ rec = ⟨none, none, none, none⟩) scaled w

lemma Left.settled (left : Left cfg r key s₀ E none w) : Settled cfg r key s₀ w :=
  ⟨none, left.apart, .inl rfl, left.scaled⟩

lemma Keeps.settles {α : Type} {p : Code α} (keeps : Keeps cfg r key s₀ p) :
    Triple (Alone cfg r) (Left cfg r key s₀ (fun _ => True) none) p
      fun _ => Settled cfg r key s₀ := keeps.mono (fun _ left => left) fun _ _ left => left.settled

lemma settles_afterScaleDown (job : JobId) (result : Result Unit) : Triple (Alone cfg r)
    (Left cfg r key s₀ (fun _ => True) (if result = .ok () then some job else none))
    (ScaleDownController.afterScaleDown cfg key result) fun _ => Settled cfg r key s₀ := by
  cases result with
  | ok _ =>
    refine .bind (triple_uses clearMissingJobCounter_about) fun _ => ?_
    exact triple_scaledDown.mono (fun _ left => left) fun _ w left =>
      ⟨_, left.apart, .inr left.own, left.scaled⟩
  | error e =>
    cases e with
    | jobNotFound j => exact keeps_handleMissingJob.settles
    | deploymentInProgress j operation =>
      exact Keeps.settles (.bind (triple_uses clearMissingJobCounter_about) fun _ =>
        triple_uses (handleScaleDownError_about _))
    | _ => exact .pure fun _ left => left.settled

lemma settles_registered : Triple (Alone cfg r) (Left cfg r key s₀ (fun _ => True) none)
    (ScaleDownController.scaleDownRegistered cfg key) fun _ => Settled cfg r key s₀ := by
  refine .bind (triple_uses (registry_about _)) fun found => ?_
  match found with
  | .error e => exact .pure fun _ left => left.settled
  | .ok none =>
    exact Keeps.settles (.bind (triple_uses (perform_about about_zrem)) fun _ =>
      .pure fun _ left => left)
  | .ok (some reg) =>
    have scales : Triple (Alone cfg r) (Left cfg r key s₀ (fun _ => True) none)
        (perform (.scaleDown reg.jobId reg.nomadGroup)) fun result =>
          Left cfg r key s₀ (fun _ => True) (if result = .ok () then some reg.jobId else none) := by
      refine .call fun w result u left alone => ?_
      have after : Left cfg r key s₀ (fun _ => True) u.scaled u :=
        left.answered (fun _ _ _ _ => rfl) rfl alone fun _ _ => trivial
      have same := alone.2.2
      cases result with
      | ok _ => exact (show u.scaled = some reg.jobId from same) ▸ after
      | error e => exact (show u.scaled = none from same.trans left.scaled) ▸ after
    exact .bind scales fun result => settles_afterScaleDown reg.jobId result

lemma settles_scaleDownJob : Triple (Alone cfg r) (Left cfg r key s₀ (fun _ => True) none)
    (ScaleDownController.scaleDownJob cfg key) fun _ => Settled cfg r key s₀ := by
  have activity : Keeps cfg r key s₀ (do
      let _ ← recordActivity key
      return ()) :=
    .bind (triple_uses recordActivity_about) fun _ => .pure fun _ left => left
  have traffic : Triple (Alone cfg r) (Left cfg r key s₀ (fun _ => True) none)
      (ScaleDownController.unlessTraffic cfg key) fun _ => Settled cfg r key s₀ := by
    unfold ScaleDownController.unlessTraffic
    split_ifs
    · refine .bind (triple_uses hasActiveTraffic_about) fun active => ?_
      match active with
      | .error e => exact .pure fun _ left => left.settled
      | .ok true => exact activity.settles
      | .ok false => exact settles_registered
    · exact settles_registered
  have inFlight : Triple (Alone cfg r) (Left cfg r key s₀ (fun _ => True) none)
      (ScaleDownController.unlessInFlight cfg key) fun _ => Settled cfg r key s₀ := by
    refine .bind (triple_uses (perform_about (.of_plain (fun _ _ _ => rfl) rfl nofun))) fun busy => ?_
    cases busy with
    | true => exact activity.settles
    | false => exact traffic
  refine .bind (triple_uses (perform_about (.of_plain (fun _ _ _ => rfl) rfl nofun))) fun deferral => ?_
  cases deferral with
  | none => exact inFlight
  | some until_ =>
    refine .bind (triple_uses (perform_about (.of_plain (fun _ _ _ => rfl) rfl nofun))) fun now => ?_
    split_ifs
    · exact .pure fun _ left => left.settled
    · exact .bind (triple_uses (perform_about about_dropDeferral)) fun _ => inFlight

/-- A scale-down that succeeded leaves no trace of the job exactly when the key that the sweep
found is the id of the job, or there was no trace of the job before. -/
theorem scaleDownJob_traceless_iff (cfg : Config) (r : ℕ) (key job : JobId) (s t : State)
    (run : (ScaleDownController.scaleDownJob cfg key).Runs (Alone cfg r) ⟨s, none⟩ () ⟨t, some job⟩) :
    Traceless cfg r job t ↔ job = key ∨ Traceless cfg r job s := by
  have begins : Left cfg r key s (fun _ => True) none ⟨s, none⟩ := ⟨fun _ _ => rfl, trivial, rfl⟩
  obtain ⟨scaled, left⟩ := settles_scaleDownJob ⟨s, none⟩ () ⟨t, some job⟩ begins run
  obtain rfl : some job = scaled := left.scaled
  rw [traceless_iff, traceless_iff]
  by_cases own : job = key
  · subst own
    exact iff_of_true (left.own.resolve_left nofun) (.inl rfl)
  · rw [left.apart job own, or_iff_right own]

/-! ## A job that is swept under its name and under its service -/

instance (op : Op) (a : op.Answer) : Decidable (Succeeds op a) := by
  induction op using Op.casesOn with
  | store | zadd | zrem | incrementNotFound | clearNotFound =>
    exact match a with
      | .ok _ => isTrue trivial
      | .error _ => isFalse id
  | _ => exact isTrue trivial

instance (op : Op) (e : WakeCoordinator.Event) :
    Decidable (∃ c, EndpointPinning.awaited? op = some c ∧ e.caller? = some c) :=
  inferInstanceAs (Decidable (∃ c ∈ EndpointPinning.awaited? op, e.caller? = some c))

def act (cfg : Config) (r : ℕ) (turn : EndpointPinning.Turn) (w : World) :
    Option ((op : Op) × op.Answer × World) := do
  let (_, c) ← replay (WakeCoordinator.system cfg.nomadConcurrency cfg.wakeTimeout)
    (fun _ _ e => ∃ c, EndpointPinning.awaited? turn.1 = some c ∧ e.caller? = some c) []
    (w.state.coordinator r) turn.2.2
  let t ← (w.state.setCoordinator r c).answer r .nothing turn.1 turn.2.1
  let scaled := match turn.1, turn.2.1 with
    | .scaleDown job _, .ok () => some job
    | _, _ => w.scaled
  if Succeeds turn.1 turn.2.1 then return ⟨turn.1, turn.2.1, t, scaled⟩ else none

lemma alone_of_act (turn : EndpointPinning.Turn) (w : World) (op : Op) (a : op.Answer) (u : World)
    (acted : act cfg r turn w = some ⟨op, a, u⟩) : Alone cfg r op w a u := by
  obtain ⟨⟨h, c⟩, done, rest⟩ := Option.bind_eq_some_iff.mp acted
  obtain ⟨t, answered, rest⟩ := Option.bind_eq_some_iff.mp rest
  dsimp only at rest
  split_ifs at rest with succeeds
  cases rest
  exact ⟨succeeds, ⟨c, ⟨h, RunFrom.nil.replay done⟩, answered⟩, rfl⟩

/-- The request of `echoForwarded` has been answered. -/
def echoServed : List Event := echoForwarded ++
  [.op 1 .response (.ok ⟨204, false⟩), .op 1 .cancelHeartbeat (), .op 1 .dropGuard ()]

/-- The key is swept, and Nomad scales the job down. -/
def echoSweep (key : JobId) (lookups : List EndpointPinning.Turn) : List EndpointPinning.Turn :=
  [⟨.deferral key, none, []⟩, ⟨.hasInFlight key, false, []⟩] ++ lookups ++
    [⟨.scaleDown echoJob echoReg.nomadGroup, .ok (), []⟩, ⟨.clearNotFound key, .ok (), []⟩,
      ⟨.call (.markDormant key), 1, []⟩,
      ⟨.cleared key 1, (), [.evict 1 key .markDormant, .reset 1 key .markDormant,
        .remove 1 key .markDormant]⟩,
      ⟨.zrem key, .ok (), []⟩, ⟨.dropDeferral key, (), []⟩]

/-- The state that the sweep leaves, if it scales the job down. -/
def echoSwept (key : JobId) (lookups : List EndpointPinning.Turn) (s : State) : Option State :=
  ((ScaleDownController.scaleDownJob echoConfig key).follow (act echoConfig 0) (echoSweep key lookups)
    ⟨s, none⟩).bind fun r => if r.2.scaled = some echoJob then some r.2.state else none

lemma runs_of_echoSwept {lookups : List EndpointPinning.Turn} (swept : echoSwept key lookups s = some t) :
    (ScaleDownController.scaleDownJob echoConfig key).Runs (Alone echoConfig 0) ⟨s, none⟩ ()
      ⟨t, some echoJob⟩ := by
  obtain ⟨⟨_, u, scaled⟩, done, rest⟩ := Option.bind_eq_some_iff.mp swept
  dsimp only at rest
  split_ifs at rest with own
  cases rest
  exact own ▸ Runs.of_follow alone_of_act done

/-- After a sweep of the job id nothing is left. -/
theorem echoJob_traceless : ∃ t, Traceless echoConfig 0 echoJob t := by
  obtain ⟨h, s, -, swept⟩ := exists_run (T := system echoConfig) (C := fun _ _ _ => True)
    (fun _ s => (echoSwept echoJob
      [⟨.store (.hget .byJob echoJob.val), .ok (some echoReg), []⟩] s).isSome = true)
    echoServed (by decide +kernel)
  obtain ⟨t, swept⟩ := Option.isSome_iff_exists.mp swept
  exact ⟨t, (scaleDownJob_traceless_iff echoConfig 0 echoJob echoJob s t
    (runs_of_echoSwept swept)).mpr (.inl rfl)⟩

/-- After a sweep of the service name the endpoint and the activity of the job are left. -/
theorem echoHost_traced : ∃ h s t, Run (system echoConfig) h s ∧ echoHost ∈ s.activity ∧
    (ScaleDownController.scaleDownJob echoConfig echoHost).Runs (Alone echoConfig 0) ⟨s, none⟩ ()
      ⟨t, some echoJob⟩ ∧
    isReady 0 echoJob t = true ∧ t.activity.lookup echoJob ≠ none := by
  obtain ⟨h, s, run, active, swept⟩ := exists_run (T := system echoConfig) (C := fun _ _ _ => True)
    (fun _ s => echoHost ∈ s.activity ∧ (echoSwept echoHost
      [⟨.store (.hget .byJob echoHost.val), .ok none, []⟩,
        ⟨.store (.hget .byService echoHost.val), .ok (some echoReg), []⟩] s).any
      (fun t => decide (isReady 0 echoJob t = true ∧ t.activity.lookup echoJob ≠ none)) = true)
    echoServed (by decide +kernel)
  obtain ⟨t, swept, left⟩ := Option.any_eq_true _ _ |>.mp swept
  exact ⟨h, s, t, run, active, runs_of_echoSwept swept, of_decide_eq_true left⟩

end NScale.ScaleDownTrace
