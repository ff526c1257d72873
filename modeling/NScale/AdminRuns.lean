import NScale.AdminApi
import NScale.ProgramLift

/-!
# The runs of a handler

What the code of the replica does in the run of a handler: calls of the registry leave the rest
of the deployment alone, a command is carried out or reports an error, and a job that is marked
dormant has no endpoint.
-/
namespace NScale.Admin
open Transition Program Service JobRegistry RegistryFailures
open ScaleDownTrace (Awaits)

variable {cfg : Config} {r : ℕ} {job : JobId} {s t : Deployment.State} {w u : World} {α : Type}

/-! ## What the code of the replica does -/

lemma setCoordinator_self (s : Deployment.State) (r : ℕ) : s.setCoordinator r (s.coordinator r) = s := by
  simp [Deployment.State.setCoordinator, Deployment.State.setReplica, Deployment.State.coordinator]

lemma coordinator_setCoordinator (s : Deployment.State) (r : ℕ) (c : WakeCoordinator.State) :
    (s.setCoordinator r c).coordinator r = c := by
  simp [Deployment.State.setCoordinator, Deployment.State.setReplica, Deployment.State.coordinator]

lemma setCoordinator_setCoordinator (s : Deployment.State) (r : ℕ) (c d : WakeCoordinator.State) :
    (s.setCoordinator r c).setCoordinator r d = s.setCoordinator r d := by
  simp [Deployment.State.setCoordinator, Deployment.State.setReplica]

lemma runs_service {p : Service.Code α} {a : α} (run : (service p).Runs (Answers cfg r) w a u) :
    p.Runs (Replies cfg r) w.state a u.state ∧ u = { w with state := u.state } := by
  refine Runs.within (S := Ops) (T := AdminOps) World.state (fun s w => { w with state := s })
    (fun _ => rfl) (fun _ _ _ => rfl) ?_ run
  rintro op w a u ⟨t, replied, rfl⟩
  exact ⟨replied, rfl⟩

/-- An operation that awaits no call of the coordinator is answered where the replica stands. -/
lemma answer_of_replies {op : Op} {a : op.Answer} (replied : Replies cfg r op s a t)
    (still : EndpointPinning.awaited? op = none) :
    ∃ b, s.answer r .nothing op b = some t ∧ (b = a ∨ Fails op a) := by
  obtain ⟨c, b, awaits, answered, same⟩ := replied
  rw [awaits.still still, setCoordinator_self] at answered
  exact ⟨b, answered, same⟩

lemma responds_of_replies {op : StoreOp} {result : Result op.Value}
    (replied : Replies cfg r (.store op) s result t) :
    Responds op s.store result t.store ∧ t = { s with store := t.store } := by
  obtain ⟨b, answered, same⟩ := answer_of_replies replied rfl
  cases b with
  | error e =>
    obtain rfl := Option.some.inj answered
    refine ⟨?_, rfl⟩
    cases result with
    | error e' => exact ⟨false, rfl⟩
    | ok v => exact (same.elim nofun id).elim
  | ok v =>
    simp only [Deployment.State.answer] at answered
    split at answered
    next told =>
      obtain rfl := Option.some.inj answered
      refine ⟨?_, rfl⟩
      cases result with
      | error e => exact ⟨true, rfl⟩
      | ok v' =>
        obtain rfl : v = v' := same.elim Except.ok.inj False.elim
        exact ⟨true, if_pos told⟩
    next => cases answered

lemma runs_registry {x : Action α} {result : Result α}
    (run : (registry x).Runs (Replies cfg r) s result t) :
    RegistryFailures.Returns x s.store result t.store ∧ t = { s with store := t.store } :=
  Runs.within (S := StoreOps) (T := Ops) (R := Responds) Deployment.State.store
    (fun store s => { s with store := store }) (fun _ => rfl) (fun _ _ _ => rfl)
    (fun _ _ _ _ replied => responds_of_replies replied) run

/-- A command that is carried out, or one that reports an error. -/
lemma replies_zrem {result : Result Unit} (replied : Replies cfg r (.zrem job) s result t) :
    t = { s with activity := s.activity.erase job } ∨ t = s ∧ ∃ e, result = .error e := by
  obtain ⟨b, answered, same⟩ := answer_of_replies replied rfl
  cases b with
  | ok _ => exact .inl (Option.some.inj answered).symm
  | error e =>
    refine .inr ⟨(Option.some.inj answered).symm, ?_⟩
    cases result with
    | error e' => exact ⟨e', rfl⟩
    | ok _ => exact (same.elim nofun id).elim

lemma replies_clearNotFound {result : Result Unit} (replied : Replies cfg r (.clearNotFound job) s result t) :
    t = { s with missing := Function.update s.missing job 0 } ∨ t = s ∧ ∃ e, result = .error e := by
  obtain ⟨b, answered, same⟩ := answer_of_replies replied rfl
  cases b with
  | ok _ => exact .inl (Option.some.inj answered).symm
  | error e =>
    refine .inr ⟨(Option.some.inj answered).symm, ?_⟩
    cases result with
    | error e' => exact ⟨e', rfl⟩
    | ok _ => exact (same.elim nofun id).elim

/-- A call of `mark_dormant` evicts the endpoint of its job and touches nothing but the
coordinator. -/
lemma runs_markDormant (run : (markDormant job).Runs (Replies cfg r) s () t) :
    ∃ c, t = s.setCoordinator r c ∧
      c.endpoints = Function.update (s.coordinator r).endpoints job none := by
  obtain ⟨k, v, begun, rest⟩ := runs_bind.mp run
  obtain ⟨b, answered, same⟩ := answer_of_replies (runs_call.mp begun) rfl
  obtain rfl : b = k := same.elim id False.elim
  simp only [Deployment.State.answer] at answered
  split at answered
  next numbered =>
    obtain rfl := Option.some.inj answered
    obtain ⟨c, b', awaits, answered, -⟩ := runs_call.mp rest
    have called : ((s.setCoordinator r (WakeCoordinator.Event.next (s.coordinator r)
        (.begin (.markDormant job)))).coordinator r).calls b = some (.evict job .markDormant) := by
      simp [Deployment.State.coordinator, Deployment.State.setCoordinator,
        WakeCoordinator.Event.next, WakeCoordinator.Operation.call, numbered]
    simp only [Deployment.State.answer] at answered
    split at answered
    next returned =>
      obtain rfl := Option.some.inj answered
      have done : c.calls b = some (.cleared job) := by
        simpa [Deployment.State.coordinator, Deployment.State.setCoordinator] using returned
      refine ⟨c, ?_, ?_⟩
      · simp [Deployment.State.setCoordinator, Deployment.State.setReplica]
      · rw [ScaleDownTrace.markDormant_endpoints called awaits done]
        have kept : (WakeCoordinator.Event.next (s.coordinator r)
            (.begin (.markDormant job))).endpoints = (s.coordinator r).endpoints := rfl
        simp only [Deployment.State.coordinator] at kept
        simp only [Deployment.State.coordinator, Deployment.State.setCoordinator,
          ScaleDownTrace.setReplica_self, kept]
    next => cases answered
  next => cases answered

/-! ## Runs that there are -/

lemma service_runs {p : Service.Code α} {a : α} (run : p.Runs (Replies cfg r) w.state a t) :
    (service p).Runs (Answers cfg r) w a { w with state := t } :=
  Runs.lifted (S := Ops) (T := AdminOps) World.state (fun s w => { w with state := s })
    (fun _ _ => rfl) (fun _ => rfl) (fun _ _ _ => rfl)
    (fun _ _ a s replied => ⟨a, rfl, s, replied, rfl⟩) run

/-- An operation that awaits no call is answered at once. -/
lemma replies_of_answer {op : Op} {a : op.Answer} (answered : s.answer r .nothing op a = some t) :
    Replies cfg r op s a t :=
  ⟨s.coordinator r, a, ⟨[], .nil⟩, by rwa [setCoordinator_self], .inl rfl⟩

lemma registry_runs {x : Action α} {result : Result α} {store : Store}
    (run : RegistryFailures.Returns x s.store result store) :
    (registry x).Runs (Replies cfg r) s result { s with store := store } := by
  refine Runs.lifted (S := StoreOps) (T := Ops) (R := Responds) Deployment.State.store
    (fun store s => { s with store := store }) (fun _ _ => rfl) (fun _ => rfl) (fun _ _ _ => rfl)
    ?_ run
  rintro op s result store ⟨applied, responded⟩
  have carriedOut : s.answer r .nothing (.store op) (.ok (s.store.answer op).1) =
      some { s with store := (s.store.answer op).2 } := if_pos rfl
  refine ⟨result, rfl, ?_⟩
  cases result with
  | ok v =>
    simp only [respond] at responded
    split at responded
    next told =>
      obtain rfl := Option.some.inj responded
      exact told ▸ replies_of_answer carriedOut
    next => cases responded
  | error e =>
    obtain rfl := Option.some.inj responded
    cases applied with
    | false => exact replies_of_answer rfl
    | true => exact ⟨_, _, ⟨[], .nil⟩, by rw [setCoordinator_self]; exact carriedOut, .inr trivial⟩

lemma markDormant_runs (cfg : Config) (r : ℕ) (job : JobId) (s : Deployment.State) :
    ∃ c, (markDormant job).Runs (Replies cfg r) s () (s.setCoordinator r c) := by
  -- the call is made, and the coordinator carries out its three statements
  let k := (s.coordinator r).nextCall
  let begun := WakeCoordinator.Event.next (s.coordinator r) (.begin (.markDormant job))
  let evicted := WakeCoordinator.Event.next begun (.evict k job .markDormant)
  let reset := WakeCoordinator.Event.next evicted (.reset k job .markDormant)
  let removed := WakeCoordinator.Event.next reset (.remove k job .markDormant)
  have called : begun.calls k = some (.evict job .markDormant) := by
    simp [begun, k, WakeCoordinator.Event.next, WakeCoordinator.Operation.call]
  have resets : evicted.calls k = some (.reset job .markDormant) := by
    simp [evicted, WakeCoordinator.Event.next]
  have removes : reset.calls k = some (.remove job .markDormant) := by
    simp [reset, WakeCoordinator.Event.next]
  have returned : removed.calls k = some (.cleared job) := by
    simp [removed, WakeCoordinator.Event.next, WakeCoordinator.Reset.finish]
  have taken {c : WakeCoordinator.State} {e : WakeCoordinator.Event} (en : e.enabled c) :
      (WakeCoordinator.system cfg.nomadConcurrency cfg.wakeTimeout).step c e = some (e.next c) :=
    WakeCoordinator.step_iff.mpr ⟨en, rfl⟩
  have taken₁ := taken (c := begun) (e := .evict k job .markDormant) (decide_eq_true called)
  have taken₂ := taken (c := evicted) (e := .reset k job .markDormant) (decide_eq_true resets)
  have taken₃ := taken (c := reset) (e := .remove k job .markDormant) (decide_eq_true removes)
  have awaits : Awaits cfg (.cleared job k) begun removed :=
    ⟨_, .step (.step (.step .nil taken₁ ⟨k, rfl, rfl⟩) taken₂ ⟨k, rfl, rfl⟩) taken₃ ⟨k, rfl, rfl⟩⟩
  refine ⟨removed, runs_bind.mpr ⟨k, s.setCoordinator r begun, ?_, ?_⟩⟩
  · exact runs_call.mpr (replies_of_answer (if_pos rfl))
  · refine runs_call.mpr ⟨removed, (), ?_, ?_, .inl rfl⟩
    · rwa [coordinator_setCoordinator]
    · rw [setCoordinator_setCoordinator]
      exact if_pos (by rwa [coordinator_setCoordinator])

end NScale.Admin
