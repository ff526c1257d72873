import NScale.Census
import NScale.Footprint
import NScale.WakeBackend

/-!
# The in-flight guard and the exchange it stands for

The guard of a request is counted from `track` to its drop. Where it is dropped is decided
by who owns it: the tunnel task keeps the guard of an upgraded exchange to the end, while
the handler of an ordinary request drops it when it returns the response, whose body may
still be on its way.
-/
namespace NScale.Service

open Deployment (Own)

variable {cfg : Config} {own : Own} {op : Op} {j : JobId} {g : Option JobId} {α : Type}

/-- The answer leaves nothing of an exchange to be relayed, or a tunnel that relays it. -/
def Relayed : (op : Op) → op.Answer → Prop
  | .response, .ok resp => resp.hasBody = false
  | .upgradeResponse, .ok resp => resp.status = switchingProtocols ∨ resp.hasBody = false
  | _, _ => True

instance (op : Op) (a : op.Answer) : Decidable (Relayed op a) := by
  unfold Relayed; split <;> infer_instance

/-- A request is sent under the guard of its job, and the guard is dropped after the exchange. -/
def guardMonitor : Monitor Ops Own where
  requires own
    | .track _ => own.guard = none
    | .send job _ _ _ => own.guard = some job
    | .dropGuard => own.exchange = none
    | _ => True
  assumes _ := Relayed
  next := Own.after

/-- No exchange has begun, under this guard. -/
def Resting (g : Option JobId) (own : Own) : Prop := own.guard = g ∧ own.exchange = none

/-- Code that keeps to the guard, and how it leaves what it owns. -/
abbrev Guarding (p : Code α) (g : Option JobId) (own : Own) : Prop :=
  p.Meets guardMonitor (fun _ own => Resting g own) own

lemma after_quiet (own : Own) (a : op.Answer) (quiet : op.area ≠ .exchange) :
    (own.after op a).guard = own.guard ∧ (own.after op a).exchange = own.exchange := by
  cases op with
  | spawn task => cases task <;> first | exact ⟨rfl, rfl⟩ | exact absurd rfl quiet
  | track | dropGuard | send | response | upgradeResponse | tunnelClosed => exact absurd rfl quiet
  | _ => exact ⟨rfl, rfl⟩

lemma requires_quiet (quiet : op.area ≠ .exchange) : guardMonitor.requires own op := by
  cases op with
  | track | dropGuard | send => exact absurd rfl quiet
  | _ => trivial

lemma quiet_meets {areas : List Area} {p : Code α} (uses : p.Uses (Within areas))
    (quiet : .exchange ∉ areas) (at_ : Resting g own) : Guarding p g own := by
  apply Program.Meets.of_uses (Resting g) uses _ at_
  intro op own within resting
  have outside : op.area ≠ .exchange := fun h => quiet (h ▸ within)
  refine ⟨requires_quiet outside, fun a _ => ?_⟩
  obtain ⟨guard, exchange⟩ := after_quiet own a outside
  exact ⟨guard.trans resting.1, exchange.trans resting.2⟩

/-- An ordinary response ends the exchange, or it was an error. -/
lemma resting_response {result : Forwarded} (relayed : Relayed .response result)
    (guard : own.guard = g) : Resting g (own.after .response result) := by
  cases result with
  | error e => exact ⟨guard, rfl⟩
  | ok resp =>
    have done : resp.hasBody = false := relayed
    simp [Own.after, Own.onResponse, done, Resting, guard]

lemma forwardRequest_meets (ep : Endpoint) (method : Method) (uri : String)
    (at_ : Resting (some j) own) : Guarding (forwardRequest j ep method uri) (some j) own := by
  apply Program.Meets.perform at_.1
  intro _ _
  apply Program.Meets.perform trivial
  intro result relayed
  exact resting_response relayed at_.1

lemma dropLifecycle_meets (at_ : Resting g own) : Guarding dropLifecycle none own := by
  apply Program.Meets.perform at_.2
  intro _ _
  apply Program.Meets.perform trivial
  intro _ _
  exact ⟨rfl, at_.2⟩

lemma forwardWebsocketUpgrade_meets (ep : Endpoint) (req : Request) (at_ : Resting (some j) own) :
    Guarding (forwardWebsocketUpgrade j ep req) none own := by
  apply Program.Meets.perform trivial
  intro connected _
  cases connected with
  | error e => exact .bind (dropLifecycle_meets at_) fun _ _ resting => resting
  | ok _ =>
    apply Program.Meets.perform at_.1
    intro _ _
    apply Program.Meets.perform trivial
    intro result relayed
    cases result with
    | error e =>
      have resting : Resting (some j) (Own.onUpgradeResponse { own with exchange := some j } (.error e)) :=
        ⟨at_.1, rfl⟩
      exact .bind (dropLifecycle_meets resting) fun _ _ resting => resting
    | ok resp =>
      dsimp only
      split
      · -- the tunnel takes over the guard and the exchange
        apply Program.Meets.perform trivial
        intro _ _
        exact ⟨rfl, rfl⟩
      next tunnel =>
        have done : resp.hasBody = false := relayed.resolve_left tunnel
        have resting : Resting (some j) (Own.onUpgradeResponse { own with exchange := some j } (.ok resp)) := by
          simp [Own.onUpgradeResponse, Own.onResponse, tunnel, done, Resting, at_.1]
        exact .bind (dropLifecycle_meets resting) fun _ _ resting => resting

lemma retry_meets (ep : Endpoint) (method : Method) (uri : String) (delays : List ℕ)
    (err : ForwardRequestError) (at_ : Resting (some j) own) :
    Guarding (retry j ep method uri err delays) (some j) own := by
  induction delays generalizing err own with
  | nil => exact at_
  | cons millis delays ih =>
    apply Program.Meets.perform trivial
    intro _ _
    apply Program.Meets.bind (forwardRequest_meets ep method uri at_)
    intro result own resting
    cases result with
    | ok resp => exact resting
    | error e =>
      dsimp only
      split
      · exact ih e resting
      · exact resting

lemma rewake_meets (reg : JobRegistration) (method : Method) (uri : String)
    (at_ : Resting (some reg.jobId) own) : Guarding (rewake cfg reg method uri) (some reg.jobId) own := by
  apply Program.Meets.bind (quiet_meets (ensureRunning_within reg) (by simp) at_)
  intro woken own resting
  have missing (own : Own) (resting : Resting (some reg.jobId) own) :
      Guarding (do perform .cancelHeartbeat; handleMissingJob cfg reg.jobId "rewake")
        (some reg.jobId) own := by
    apply Program.Meets.perform trivial
    intro _ _
    exact quiet_meets (handleMissingJob_within _ _) (by simp) resting
  split
  · apply Program.Meets.bind (quiet_meets (clearMissingJobCounter_within _) (by simp) resting)
    intro _ own resting
    exact .bind (forwardRequest_meets _ method uri resting) fun _ _ resting => resting
  · exact missing own resting
  · exact resting

lemma refreshAndRetry_meets (reg : JobRegistration) (ep : Endpoint) (method : Method)
    (uri : String) (err : ForwardRequestError) (at_ : Resting (some reg.jobId) own) :
    Guarding (refreshAndRetry cfg reg ep method uri err) (some reg.jobId) own := by
  apply Program.Meets.bind (quiet_meets (refreshEndpoint_within reg ep) (by simp) at_)
  intro refreshed own resting
  have cleared : Guarding (clearMissingJobCounter cfg reg.jobId) (some reg.jobId) own :=
    quiet_meets (clearMissingJobCounter_within _) (by simp) resting
  split
  · exact .bind cleared fun _ _ resting => resting
  · apply Program.Meets.bind cleared
    intro _ own resting
    exact .bind (forwardRequest_meets _ method uri resting) fun _ _ resting => resting
  · exact rewake_meets reg method uri resting
  · apply Program.Meets.perform trivial
    intro _ _
    exact quiet_meets (handleMissingJob_within _ _) (by simp) resting
  · exact resting

lemma serveOrdinary_meets (req : Request) (reg : JobRegistration) (ep : Endpoint)
    (at_ : Resting (some reg.jobId) own) :
    Guarding (serveOrdinary cfg req reg ep) (some reg.jobId) own := by
  apply Program.Meets.bind (forwardRequest_meets ep req.method req.uri at_)
  intro result own resting
  cases result with
  | ok resp => exact resting
  | error err =>
    dsimp only
    split
    · exact resting
    · cases replayableMethod req.method with
      | none => exact resting
      | some method =>
        apply Program.Meets.bind (retry_meets ep method req.uri _ err resting)
        intro retried own resting
        cases retried with
        | ok resp => exact resting
        | error err => exact refreshAndRetry_meets reg ep method req.uri err resting

/-- The handler starts without a guard and ends without one. -/
lemma serve_meets (req : Request) (reg : JobRegistration) (ep : Endpoint) (at_ : Resting none own) :
    Guarding (serve cfg req reg ep) none own := by
  apply Program.Meets.perform at_.1
  intro _ _
  apply Program.Meets.perform trivial
  intro _ _
  have tracked : Resting (some reg.jobId)
      ((own.after (.track reg.jobId) ()).after (.startHeartbeat reg.jobId) ()) := ⟨rfl, at_.2⟩
  split
  · exact .bind (forwardWebsocketUpgrade_meets ep req tracked) fun _ _ resting => resting
  · apply Program.Meets.bind (serveOrdinary_meets req reg ep tracked)
    intro resp own resting
    apply Program.Meets.perform trivial
    intro _ _
    apply Program.Meets.perform resting.2
    intro _ _
    exact ⟨rfl, resting.2⟩

lemma wakeAndServe_meets (req : Request) (reg : JobRegistration) (at_ : Resting none own) :
    Guarding (wakeAndServe cfg req reg) none own := by
  apply Program.Meets.bind (quiet_meets (ensureRunning_within reg) (by simp) at_)
  intro woken own resting
  split
  · apply Program.Meets.bind (quiet_meets (clearMissingJobCounter_within _) (by simp) resting)
    intro _ own resting
    exact serve_meets req reg _ resting
  · exact quiet_meets (handleMissingJob_within _ _) (by simp) resting
  · exact resting

lemma proxyHandler_meets (req : Request) (at_ : Resting none own) :
    Guarding (proxyHandler cfg req) none own := by
  unfold proxyHandler
  cases req.host with
  | none => exact at_
  | some host =>
    apply Program.Meets.bind (quiet_meets (registryGet_within _ _) (by simp) at_)
    intro found own resting
    match found with
    | .error e => exact resting
    | .ok none => exact resting
    | .ok (some reg) => exact wakeAndServe_meets req reg resting

lemma activityService_meets (req : Request) (at_ : Resting none own) :
    Guarding (activityService cfg req) none own := by
  unfold activityService
  cases extractJobId req.host with
  | none => exact .bind (proxyHandler_meets req at_) fun _ _ resting => resting
  | some key =>
    apply Program.Meets.bind (quiet_meets (recordActivity_within key) (by simp) at_)
    intro _ own resting
    apply Program.Meets.bind (proxyHandler_meets req resting)
    intro _ own resting
    exact Program.Meets.perform trivial fun _ _ => resting

/-- A tunnel that closes ends its exchange, whatever it was handed, and then drops the guard. -/
lemma tunnel_meets : Guarding (Task.code .tunnel) none own := by
  apply Program.Meets.perform trivial
  intro _ _
  apply Program.Meets.perform rfl
  intro _ _
  apply Program.Meets.perform trivial
  intro _ _
  exact ⟨rfl, rfl⟩

end NScale.Service

namespace NScale.Deployment
open Service Transition Census
open WakeCoordinator (echoReg echoReady)

variable {cfg : Config} {C : Condition State Event} {h : List Event} {s t : State} {e : Event}
  {i r : ℕ} {j : JobId} {th next : Thread}

def Thread.Guards (r : ℕ) (j : JobId) (th : Thread) : Prop :=
  th.replica = r ∧ th.own.guard = some j

/-- A request of the task has been forwarded for the job, and its response has not been
relayed to the end, or its tunnel has not closed. -/
def Thread.Exchanges (r : ℕ) (j : JobId) (th : Thread) : Prop :=
  th.replica = r ∧ th.own.exchange = some j

/-- The in-flight count of a job is at least the number of its exchanges. -/
def Covered (s : State) : Prop :=
  ∀ r j, (members s.threads (Thread.Exchanges r j)).encard ≤ s.inFlight r j

/-- No response leaves a body to be relayed behind the handler. -/
def RelayedAtOnce : Condition State Event := fun _ _ e =>
  match e with
  | .op _ op a => Relayed op a
  | _ => True

instance (h : List Event) (s : State) (e : Event) : Decidable (RelayedAtOnce h s e) := by
  unfold RelayedAtOnce; split <;> infer_instance

/-! ## Every task keeps to its guard -/

/-- A new task owns nothing, or it is a tunnel with all that its parent owned. -/
lemma starts_own (started : starts cfg s e = some th) :
    (Entry cfg th.code ∧ th.own = .nothing) ∨
      (th.code = Task.code .tunnel ∧ ∃ i parent, s.threads i = some parent ∧ th.own = parent.own) := by
  have entry := starts_entry started
  cases e with
  | arrive | tick | allocation | admin =>
    obtain rfl := Option.some.inj started
    exact .inl ⟨entry, rfl⟩
  | op i op a =>
    obtain ⟨parent, at_, spawned⟩ := Option.bind_eq_some_iff.mp started
    cases op with
    | spawn task =>
      cases task with
      | tunnel =>
        obtain rfl := Option.some.inj spawned
        exact .inr ⟨rfl, i, parent, at_, rfl⟩
      | recordActivity | releaseLock =>
        obtain rfl := Option.some.inj spawned
        exact .inl ⟨entry, rfl⟩
    | _ => cases spawned
  | beat i =>
    obtain ⟨parent, -, beating⟩ := Option.bind_eq_some_iff.mp started
    obtain ⟨job, -, rfl⟩ := Option.map_eq_some_iff.mp beating
    exact .inl ⟨entry, rfl⟩
  | coord | relayed | disconnect | advance | cancel => cases started

lemma entry_guarding {c : Code Unit} (entry : Entry cfg c) : Guarding c none Own.nothing := by
  have resting : Resting none Own.nothing := ⟨rfl, rfl⟩
  cases entry with
  | request req => exact activityService_meets req resting
  | tick => exact quiet_meets ScaleDownController.tick_within (by simp) resting
  | allocation a => exact quiet_meets (processAllocationEvent_within a) (by simp) resting
  | admin reg => exact quiet_meets (adminRegister_within reg) (by simp) resting
  | task task =>
    cases task with
    | recordActivity key =>
      exact .bind (quiet_meets (recordActivity_within key) (by simp) resting) fun _ _ rest => rest
    | releaseLock => exact Program.Meets.perform trivial fun _ _ => resting
    | tunnel => exact tunnel_meets

/-- An exchange is under the guard of its task. -/
def Own.Guarded (own : Own) : Prop := ∀ j, own.exchange = some j → own.guard = some j

lemma Own.Guarded.relayed {own : Own} : Own.Guarded { own with exchange := none } := by
  intro j hj
  cases hj

lemma Own.Guarded.after {own : Own} {op : Op} {a : op.Answer} (ok : own.Guarded)
    (permitted : guardMonitor.requires own op) : (own.after op a).Guarded := by
  intro j exchange
  cases op with
  | track job =>
    have : own.guard = some j := ok j exchange
    have : own.guard = none := permitted
    simp_all
  | dropGuard =>
    have : own.exchange = none := permitted
    have : own.exchange = some j := exchange
    simp_all
  | send job ep method uri =>
    obtain rfl := Option.some.inj exchange
    exact permitted
  | response | upgradeResponse =>
    cases a with
    | error e => cases exchange
    | ok resp =>
      simp only [Own.after, Own.onResponse, Own.onUpgradeResponse] at exchange ⊢
      split_ifs at exchange ⊢ <;> exact ok j exchange
  | tunnelClosed => cases exchange
  | spawn task =>
    cases task with
    | tunnel => cases exchange
    | recordActivity | releaseLock => exact ok j exchange
  | _ => exact ok j exchange

/-- What holds of every task while all responses are relayed at once. -/
def Thread.Careful (th : Thread) : Prop :=
  th.code.Meets guardMonitor (fun _ _ => True) th.own ∧ th.own.Guarded

theorem careful_of_run (run : RunWhere (system cfg) RelayedAtOnce h s)
    (ht : s.threads i = some th) : th.Careful := by
  apply threads_of_run (fun _ _ th => th.Careful) _ _ run ht
  · intro h s t e th prior taken cond all started
    rcases starts_own started with ⟨entry, own⟩ | ⟨code, i, parent, at_, own⟩
    · refine ⟨?_, ?_⟩
      · rw [own]
        exact (entry_guarding entry).mono fun _ _ _ => trivial
      · rw [own]
        intro j hj
        cases hj
    · refine ⟨?_, ?_⟩
      · rw [code]
        exact tunnel_meets.mono fun _ _ _ => trivial
      · rw [own]
        exact (all i parent at_).2
  · intro h s t e i th next prior taken cond at_ ok moved
    cases moved with
    | same other => exact ok
    | answered done =>
      obtain ⟨permitted, rest⟩ := ok.1.answered done
      exact ⟨rest cond, ok.2.after permitted⟩
    | relayed done =>
      refine ⟨?_, .relayed⟩
      rw [done]
      trivial
    | dropped =>
      refine ⟨trivial, ?_⟩
      intro j hj
      cases hj

/-! ## The in-flight count is the number of guards -/

def Counted (s : State) : Prop :=
  ∀ r j, (members s.threads (Thread.Guards r j)).encard = s.inFlight r j

lemma inFlight_setReplica {replica : Replica} (same : replica.inFlight = (s.replicas r).inFlight) :
    (s.setReplica r replica).inFlight = s.inFlight := by
  funext q j
  by_cases hq : q = r
  · subst hq; simp [State.inFlight, same]
  · simp [State.inFlight, hq]

lemma inFlight_setInFlight (s : State) (r : ℕ) (j : JobId) (n : ℕ) (q : ℕ) (k : JobId) :
    (s.setInFlight r j n).inFlight q k = if q = r ∧ k = j then n else s.inFlight q k := by
  by_cases hq : q = r
  · subst hq
    by_cases hk : k = j
    · subst hk; simp [State.setInFlight, State.inFlight]
    · simp [State.setInFlight, State.inFlight, hk]
  · simp [State.setInFlight, State.inFlight, hq]

/-- The operations by which a task takes, drops or hands over its guard. -/
def Op.movesGuard : Op → Bool
  | .track _ | .dropGuard | .spawn .tunnel => true
  | _ => false

lemma answer_inFlight {own : Own} {op : Op} {a : op.Answer} (still : Op.movesGuard op = false)
    (ht : s.answer r own op a = some t) : t.inFlight = s.inFlight := by
  unfold State.answer at ht
  split at ht
  case h_12 => cases still
  case h_13 => cases still
  all_goals
    first
    | (cases ht; first | rfl | exact inFlight_setReplica rfl)
    | (split at ht <;> cases ht <;>
        first | rfl | exact inFlight_setReplica rfl | (split <;> rfl))

lemma dropped_inFlight {op : Op} (ht : s.dropped r op = some t) : t.inFlight = s.inFlight := by
  unfold State.dropped at ht
  split at ht
  · obtain ⟨c, -, rfl⟩ := Option.map_eq_some_iff.mp ht
    exact inFlight_setReplica rfl
  · obtain ⟨c, -, rfl⟩ := Option.map_eq_some_iff.mp ht
    exact inFlight_setReplica rfl
  · split at ht
    · cases ht; rfl
    · cases ht

lemma after_guard (own : Own) {op : Op} (a : op.Answer) (still : Op.movesGuard op = false) :
    (own.after op a).guard = own.guard := by
  cases op with
  | track | dropGuard => cases still
  | spawn task =>
    cases task with
    | tunnel => cases still
    | recordActivity | releaseLock => rfl
  | response | upgradeResponse =>
    cases a with
    | error e => rfl
    | ok resp =>
      simp only [Own.after, Own.onResponse, Own.onUpgradeResponse]
      split_ifs <;> rfl
  | _ => rfl

lemma threads_fresh (run : RunWhere (system cfg) C h s) : s.threads s.nextThread = none := by
  rw [Option.eq_none_iff_forall_not_mem]
  intro th ht
  exact (thread_lt run ht).false

/-- One less than a number, in extended arithmetic. -/
lemma eq_pred_of_add_one {c : ℕ∞} {n : ℕ} (total : c + 1 = n) : c = ((n - 1 : ℕ) : ℕ∞) := by
  have bound : c ≠ ⊤ := by
    rintro rfl
    simp at total
  lift c to ℕ using bound
  have : c + 1 = n := by exact_mod_cast total
  have : c = n - 1 := by omega
  exact_mod_cast this

namespace Counted

lemma of_eq (ok : Counted s) (threads : t.threads = s.threads) (inFlight : t.inFlight = s.inFlight) :
    Counted t := by
  intro r j
  rw [threads, inFlight]
  exact ok r j

lemma setReplica {replica : Replica} (ok : Counted s)
    (same : replica.inFlight = (s.replicas r).inFlight) : Counted (s.setReplica r replica) :=
  ok.of_eq rfl (inFlight_setReplica same)

lemma setThread (ok : Counted s) (at_ : s.threads i = some th)
    (same : ∀ r j, next.Guards r j ↔ th.Guards r j) : Counted (s.setThread i next) := by
  intro r j
  have census : members (s.setThread i next).threads (Thread.Guards r j) =
      members s.threads (Thread.Guards r j) := members_same at_ (same r j)
  rw [census]
  exact ok r j

/-- A new task without a guard. -/
lemma started (ok : Counted s) (fresh : s.threads s.nextThread = none)
    (free : th.own.guard = none) : Counted (s.started th) := by
  intro r j
  have census : members (s.started th).threads (Thread.Guards r j) =
      members s.threads (Thread.Guards r j) :=
    members_fresh fresh (by simp [Thread.Guards, free])
  rw [census]
  exact ok r j

lemma tracked (ok : Counted s) (at_ : s.threads i = some th) (free : th.own.guard = none)
    (replica : next.replica = th.replica) (guard : next.own.guard = some j) :
    Counted ((s.setInFlight th.replica j (s.inFlight th.replica j + 1)).setThread i next) := by
  intro r k
  have outside : i ∉ members s.threads (Thread.Guards r k) := by
    rw [mem_iff at_]
    simp [Thread.Guards, free]
  change (members (Function.update s.threads i (some next)) _).encard =
    ((s.setInFlight th.replica j (s.inFlight th.replica j + 1)).inFlight r k : ℕ∞)
  rw [inFlight_setInFlight]
  by_cases own : r = th.replica ∧ k = j
  · obtain ⟨rfl, rfl⟩ := own
    rw [encard_enter outside ⟨replica, guard⟩, ok, if_pos ⟨rfl, rfl⟩]
    push_cast
    rfl
  · have other : ¬ next.Guards r k := by
      rintro ⟨hr, hk⟩
      rw [guard] at hk
      exact own ⟨hr.symm.trans replica, (Option.some.inj hk).symm⟩
    have none_ : ¬ th.Guards r k := by simp [Thread.Guards, free]
    rw [members_same at_ (iff_of_false other none_), ok, if_neg own]

lemma dropped (ok : Counted s) (at_ : s.threads i = some th) (free : next.own.guard = none) :
    Counted ((s.guardDropped th.replica th.own.guard).setThread i next) := by
  have lacks (r : ℕ) (k : JobId) : ¬ next.Guards r k := by simp [Thread.Guards, free]
  cases held : th.own.guard with
  | none =>
    apply ok.setThread at_
    intro r k
    exact iff_of_false (lacks r k) (by simp [Thread.Guards, held])
  | some j =>
    intro r k
    change (members (Function.update s.threads i (some next)) _).encard =
      ((s.setInFlight th.replica j (s.inFlight th.replica j - 1)).inFlight r k : ℕ∞)
    rw [inFlight_setInFlight]
    by_cases own : r = th.replica ∧ k = j
    · obtain ⟨rfl, rfl⟩ := own
      have leave := encard_leave at_ (⟨rfl, held⟩ : th.Guards th.replica k) (lacks th.replica k)
      rw [ok] at leave
      rw [if_pos ⟨rfl, rfl⟩]
      exact eq_pred_of_add_one leave
    · have other : ¬ th.Guards r k := by
        rintro ⟨rfl, hk⟩
        rw [held] at hk
        exact own ⟨rfl, (Option.some.inj hk).symm⟩
      rw [members_same at_ (iff_of_false (lacks r k) other), ok, if_neg own]

/-- The guard moves to a new task of the same replica. -/
lemma handedOver {child : Thread} (ok : Counted s) (at_ : s.threads i = some th)
    (fresh : s.threads s.nextThread = none) (free : next.own.guard = none)
    (same : ∀ r j, child.Guards r j ↔ th.Guards r j) :
    Counted ((s.setThread i next).started child) := by
  intro r j
  have lacks : ¬ next.Guards r j := by simp [Thread.Guards, free]
  have apart : s.nextThread ≠ i := by
    rintro rfl
    simp [fresh] at at_
  have unborn : (s.setThread i next).threads s.nextThread = none := by
    simpa [apart] using fresh
  change (members (Function.update (s.setThread i next).threads s.nextThread (some child)) _).encard =
    (s.inFlight r j : ℕ∞)
  rw [← ok r j]
  by_cases held : th.Guards r j
  · rw [encard_enter (not_mem_of_none unborn) ((same r j).mpr held)]
    exact encard_leave at_ held lacks
  · rw [members_fresh unborn fun h => held ((same r j).mp h)]
    exact congrArg _ (members_same at_ (iff_of_false lacks held))

/-- A task moves on without touching its guard. -/
lemma answered {op : Op} {a : op.Answer} {code : Code Unit} {u : State} (ok : Counted s)
    (at_ : s.threads i = some th) (fresh : s.threads s.nextThread = none)
    (still : Op.movesGuard op = false) (hu : s.answer th.replica th.own op a = some u) :
    Counted ((u.setThread i { th with code := code, own := th.own.after op a }).startedAll
      (spawned th op)) := by
  obtain ⟨threads, nextThread⟩ := answer_threads hu
  have counted : Counted u := ok.of_eq threads (answer_inFlight still hu)
  have moved : Counted (u.setThread i { th with code := code, own := th.own.after op a }) := by
    apply counted.setThread (threads ▸ at_)
    intro r j
    simp [Thread.Guards, after_guard th.own a still]
  cases child : spawned th op with
  | none => exact moved
  | some new =>
    have apart : s.nextThread ≠ i := by
      rintro rfl
      simp [fresh] at at_
    apply moved.started
    · simpa [nextThread, apart, threads] using fresh
    · cases op with
      | spawn task =>
        cases task with
        | tunnel => cases still
        | recordActivity | releaseLock => cases child; rfl
      | _ => cases child

theorem step (ok : Counted s) (careful : ∀ i th, s.threads i = some th → th.Careful)
    (fresh : s.threads s.nextThread = none) (taken : Deployment.step cfg s e = some t) :
    Counted t := by
  cases e with
  | arrive r req | admin r reg =>
    obtain rfl := Option.some.inj taken
    exact ok.started fresh rfl
  | tick r | allocation r a =>
    simp only [Deployment.step] at taken
    split at taken
    · obtain rfl := Option.some.inj taken
      refine Counted.started (ok.setReplica ?_) fresh ?_ <;> rfl
    · cases taken
  | op i op a =>
    obtain ⟨th, at_, taken⟩ := Option.bind_eq_some_iff.mp taken
    obtain ⟨code, done, taken⟩ := Option.bind_eq_some_iff.mp taken
    obtain ⟨u, hu, taken⟩ := Option.bind_eq_some_iff.mp taken
    obtain rfl := Option.some.inj taken
    cases still : Op.movesGuard op with
    | false => exact ok.answered at_ fresh still hu
    | true =>
      cases op with
      | track job =>
        obtain rfl := Option.some.inj hu
        have free : th.own.guard = none := ((careful i th at_).1.answered done).1
        exact ok.tracked at_ free rfl rfl
      | dropGuard =>
        obtain rfl := Option.some.inj hu
        exact ok.dropped at_ rfl
      | spawn task =>
        cases task with
        | tunnel =>
          obtain rfl := Option.some.inj hu
          exact ok.handedOver at_ fresh rfl fun _ _ => Iff.rfl
        | recordActivity | releaseLock => cases still
      | _ => cases still
  | coord r e =>
    simp only [Deployment.step] at taken
    split at taken
    · obtain rfl := Option.some.inj taken
      exact ok.setReplica rfl
    · cases taken
  | beat i =>
    obtain ⟨th, at_, taken⟩ := Option.bind_eq_some_iff.mp taken
    obtain ⟨job, beats, taken⟩ := Option.bind_eq_some_iff.mp taken
    obtain rfl := Option.some.inj taken
    exact ok.started fresh rfl
  | relayed i =>
    simp only [Deployment.step] at taken
    split at taken
    next r own client at_ =>
      split at taken
      · obtain rfl := Option.some.inj taken
        exact ok.setThread at_ fun _ _ => Iff.rfl
      · cases taken
    next => cases taken
  | disconnect i =>
    simp only [Deployment.step] at taken
    split at taken
    next r op rest own at_ =>
      obtain ⟨u, hu, taken⟩ := Option.bind_eq_some_iff.mp taken
      obtain rfl := Option.some.inj taken
      obtain ⟨threads, -⟩ := dropped_threads hu
      have counted : Counted u := ok.of_eq threads (dropped_inFlight hu)
      have at_ : u.threads i = some ⟨r, .perform op rest, own, true⟩ := threads ▸ at_
      exact counted.dropped at_ rfl
    next => cases taken
  | advance millis =>
    obtain rfl := Option.some.inj taken
    exact ok.of_eq rfl rfl
  | cancel r =>
    obtain rfl := Option.some.inj taken
    exact ok.setReplica rfl

end Counted

lemma counted_initial (cfg : Config) : Counted (initial cfg) := by
  intro r j
  have none_ : members (initial cfg).threads (Thread.Guards r j) = ∅ :=
    members_empty fun _ _ h => by cases h
  rw [none_]
  simp [State.inFlight, initial]

theorem counted_of_run (run : RunWhere (system cfg) RelayedAtOnce h s) : Counted s := by
  apply run.invariant fun _ s => Counted s
  · exact counted_initial cfg
  · intro h s t e prior ok taken _
    exact ok.step (fun i th at_ => careful_of_run prior at_) (threads_fresh prior) taken

theorem covered_of_run (cfg : Config) (h : List Event) (s : State)
    (run : RunWhere (system cfg) RelayedAtOnce h s) : Covered s := by
  intro r j
  have guarded : members s.threads (Thread.Exchanges r j) ⊆ members s.threads (Thread.Guards r j) :=
    members_mono fun i th at_ ⟨replica, exchange⟩ =>
      ⟨replica, (careful_of_run run at_).2 j exchange⟩
  calc (members s.threads (Thread.Exchanges r j)).encard
      ≤ (members s.threads (Thread.Guards r j)).encard := Set.encard_le_encard guarded
    _ = s.inFlight r j := counted_of_run run r j

def echoConfig : Config where
  nomadConcurrency := 50
  wakeTimeout := 60
  durable := false
  autoDeregisterEnabled := true
  autoDeregisterThreshold := 2
  idleThreshold := 300000
  lockTtl := 60000
  trafficProbe := false

def echoJob : JobId := echoReg.jobId

/-- The service name of the job, which the hosts of requests carry. -/
def echoHost : JobId := ⟨echoReg.serviceName.val⟩

/-- An admin registers the job. -/
def echoRegistered : List Event :=
  [.admin 0 echoReg, .op 0 (.store (.hset .byJob echoJob.val echoReg)) (.ok ()),
    .op 0 (.store (.hset .byService echoHost.val echoReg)) (.ok ()), .op 0 .now 0,
    .op 0 (.zadd echoJob 0) (.ok ())]

/-- A request arrives for the service, and its handler finds the registration. -/
def echoArrived : List Event := echoRegistered ++
  [.arrive 0 ⟨some (some "echo-s2z.localhost"), .get, "/", false⟩, .op 1 .now 0,
    .op 1 (.zadd echoHost 0) (.ok ()), .op 1 (.store (.hget .byJob echoHost.val)) (.ok none),
    .op 1 (.store (.hget .byService echoHost.val)) (.ok (some echoReg)),
    .op 1 (.call (.ensureRunning echoReg)) 0]

/-- The request wakes the job and is forwarded to it. -/
def echoForwarded : List Event := echoArrived ++
  [.coord 0 (.fastPath 0 echoReg), .coord 0 (.entry 0 echoReg), .coord 0 (.load 0 echoReg 0),
    .coord 0 (.tryStart 0 echoReg 0), .coord 0 (.ownSubscribe 0 echoReg 0),
    .coord 0 (.spawn 0 echoReg 0 none), .coord 0 (.acquire 0 echoReg 0),
    .coord 0 (.scaled 0 echoReg 0 (.ok ())), .coord 0 (.healthy 0 echoReg 0 false (.ok echoReady)),
    .coord 0 (.publish 0 echoReg 0 echoReady), .coord 0 (.storeReady 0 echoReg 0 echoReady),
    .coord 0 (.sendReady 0 echoReg 0 echoReady), .coord 0 (.recv 0 echoReg 0 (.ready echoReady)),
    .op 1 (.ensured echoReg 0) (.ok echoReady), .op 1 (.clearNotFound echoJob) (.ok ()),
    .op 1 (.track echoJob) (), .op 1 (.startHeartbeat echoJob) (),
    .op 1 (.send echoJob echoReady .get "/") ()]

theorem echoForwarded_covered : ∃ h s, RunWhere (system echoConfig) RelayedAtOnce h s ∧
    s.inFlight 0 echoJob = 1 ∧ Covered s := by
  obtain ⟨h, s, run, count⟩ := exists_run (T := system echoConfig) (C := RelayedAtOnce)
    (fun _ s => s.inFlight 0 echoJob = 1)
    (echoForwarded ++ [.op 1 .response (.ok ⟨204, false⟩)]) (by decide)
  exact ⟨h, s, run, count, covered_of_run echoConfig h s run⟩

/-- The head of the response arrives, and the handler returns while the body is on its way. -/
def bodyOnItsWay : List Event := echoForwarded ++
  [.op 1 .response (.ok ⟨200, true⟩), .op 1 .cancelHeartbeat (), .op 1 .dropGuard ()]

theorem body_uncovered : ¬ ∀ cfg h s, Run (system cfg) h s → Covered s := by
  intro all
  obtain ⟨h, s, run, count, relaying⟩ := exists_run (T := system echoConfig) (C := fun _ _ _ => True)
    (fun _ s => s.inFlight 0 echoJob = 0 ∧
      ((s.threads 1).map fun th => (th.replica, th.own.exchange)) = some (0, some echoJob))
    bodyOnItsWay (by decide)
  have none_ : members s.threads (Thread.Exchanges 0 echoJob) = ∅ := by
    have covered := all echoConfig h s run 0 echoJob
    rw [count] at covered
    simpa using covered
  obtain ⟨th, at_, owned⟩ := Option.map_eq_some_iff.mp relaying
  obtain ⟨replica, exchange⟩ := Prod.mk.inj owned
  have member : 1 ∈ members s.threads (Thread.Exchanges 0 echoJob) := ⟨th, at_, replica, exchange⟩
  simp [none_] at member

end NScale.Deployment
