import NScale.AutoDeregister
import NScale.IdleSweep
import NScale.MissingEvidence

/-!
# A clean-up of a missing job that fails

The activity record of the job goes before the registration, which may then stay: the sweep lists
a job by its record only.
-/
namespace NScale.CleanupRetry
open Transition Program Service Deployment

/-- The two copies of `cleanup_missing_job_state`. -/
inductive Cleanup (cfg : Config) (key : JobId) : Code (Result Unit) → Prop
  | scaler : Cleanup cfg key (ScaleDownController.cleanupMissingJobState cfg key)
  | proxy : Cleanup cfg key (cleanupMissingJobState cfg key)

/-- An operation of the clean-up on replica `r`, before which other tasks may have done anything
but touch the record of the job. Whether Redis carries out the removal of the record is given; if
it does, its reply may still be lost. -/
def Answers (key : JobId) (r : ℕ) (carried : Bool) (op : Op) (s : State) (a : op.Answer)
    (t : State) : Prop :=
  ∃ v : State, v.score key = s.score key ∧ match op, a with
    | .zrem k, result =>
      if carried then t = { v with activity := v.activity.erase k } else t = v ∧ result ≠ .ok ()
    | op, a => v.answer r .nothing op a = some t

/-- Every sweep from some time on lists the key. -/
def Listed (key : JobId) (s : State) : Prop :=
  ∃ millis : ℤ, ∀ cutoff, millis ≤ cutoff → key ∈ s.idle cutoff

variable {cfg : Config} {key : JobId} {r : ℕ} {carried : Bool} {s t : State} {α : Type}

lemma listed_iff : Listed key s ↔ ∃ x, s.score key = some x := by
  constructor
  · rintro ⟨millis, lists⟩
    obtain ⟨x, score, -⟩ := mem_idle.mp (lists millis le_rfl)
    exact ⟨x, score⟩
  · rintro ⟨x, score⟩
    exact ⟨x, fun cutoff bound => mem_idle.mpr ⟨x, score, bound⟩⟩

/-- Neither a write nor a removal of a record. -/
def Quiet (op : Op) : Prop := (∀ key score, op ≠ .zadd key score) ∧ ∀ key, op ≠ .zrem key

lemma score_of_quiet {op : Op} {a : op.Answer} (quiet : Quiet op)
    (answered : Answers key r carried op s a t) : t.score key = s.score key := by
  obtain ⟨v, same, answered⟩ := answered
  have kept : v.answer r .nothing op a = some t := by
    cases op with
    | zrem k => exact absurd rfl (quiet.2 k)
    | _ => exact answered
  rw [score_eq (answer_activity quiet.1 quiet.2 kept).1, same]

lemma score_of_uses {p : Code α} {a : α} (uses : p.Uses Quiet)
    (run : p.Runs (Answers key r carried) s a t) : t.score key = s.score key :=
  Triple.of_uses (R := Answers key r carried) (fun u => u.score key = s.score key) uses
    (fun _ _ _ _ quiet same answered => (score_of_quiet quiet answered).trans same) s a t rfl run

lemma quiet_registry (x : JobRegistry.Action α) : (registry x).Uses Quiet :=
  .lift ((Uses.all x.run).mono fun _ _ => ⟨by simp, by simp⟩)

/-- What both copies do after the registration has been removed. -/
def afterRemoval (key : JobId) : Result Unit → Code (Result Unit)
  | .error e => return .error e
  | .ok () => do
    let _ ← perform (.clearNotFound key)
    return .ok ()

/-- Both copies make the job dormant, remove its record, and go on without touching it. -/
lemma Cleanup.shape {p : Code (Result Unit)} (copy : Cleanup cfg key p) :
    ∃ rest : Code (Result Unit), rest.Uses Quiet ∧
      p = markDormant key >>= fun _ => perform (.zrem key) >>= fun _ => rest := by
  have removal (result : Result Unit) : (afterRemoval key result).Uses Quiet := by
    cases result with
    | error e => trivial
    | ok _ => exact ⟨⟨by simp, by simp⟩, fun _ => trivial⟩
  cases copy with
  | scaler =>
    refine ⟨_, ?_, rfl⟩
    apply Uses.perform ⟨by simp, by simp⟩
    intro _
    have baseline : (ScaleDownController.clearBaseline cfg key).Uses Quiet := by
      unfold ScaleDownController.clearBaseline
      split_ifs
      · exact ⟨⟨by simp, by simp⟩, fun _ => trivial⟩
      · trivial
    exact baseline.bind fun _ => (quiet_registry _).bind removal
  | proxy => exact ⟨_, (quiet_registry _).bind removal, rfl⟩

/-- After a clean-up that returned an error, the sweep lists the job again exactly when it
listed it before and Redis did not carry out the removal of its record. -/
theorem relisted_iff (cfg : Config) (key : JobId) (r : ℕ) (carried : Bool) (s t : State)
    (p : Code (Result Unit)) (e : NscaleError) (copy : Cleanup cfg key p)
    (failed : p.Runs (Answers key r carried) s (.error e) t) :
    Listed key t ↔ Listed key s ∧ carried = false := by
  obtain ⟨rest, quiet, rfl⟩ := copy.shape
  obtain ⟨_, s₁, dormant, failed⟩ := runs_bind.mp failed
  obtain ⟨result, s₂, removed, failed⟩ := runs_bind.mp failed
  have marked : (markDormant key).Uses Quiet :=
    ⟨⟨by simp, by simp⟩, fun _ => ⟨⟨by simp, by simp⟩, fun _ => trivial⟩⟩
  have before := score_of_uses marked dormant
  have after := score_of_uses quiet failed
  obtain ⟨v, same, removal⟩ := runs_call.mp removed
  rw [listed_iff, listed_iff, after]
  cases carried with
  | true =>
    obtain rfl : s₂ = { v with activity := v.activity.erase key } := removal
    simp [State.score, AList.lookup_erase]
  | false =>
    obtain ⟨rfl, -⟩ : s₂ = v ∧ _ := removal
    rw [same, before]
    simp

/-! ## Redis fails -/

def down : NscaleError := .store "down"

/-- The job has a record. -/
def echoActive : State := { initial echoConfig with activity := (∅ : AList _).insert echoJob 0 }

/-- Redis refuses what it is asked; the coordinator runs the call. -/
def refused (op : Op) (s : State) : Option ((op : Op) × op.Answer × State) :=
  match op with
  | .call op => (s.answer 0 .nothing (.call op) (s.coordinator 0).nextCall).map fun t =>
      ⟨.call op, (s.coordinator 0).nextCall, t⟩
  | .cleared job c => some ⟨.cleared job c, (), s.setCoordinator 0 { s.coordinator 0 with
      calls := Function.update (s.coordinator 0).calls c (some (.cleared job)) }⟩
  | .zrem k => some ⟨.zrem k, .error down, s⟩
  | .store op => some ⟨.store op, .error down, s⟩
  | _ => none

lemma answers_of_refused (o : Op) (s : State) (op : Op) (a : op.Answer) (t : State)
    (done : refused o s = some ⟨op, a, t⟩) : Answers key 0 false op s a t := by
  cases o with
  | call o =>
    obtain ⟨u, answered, same⟩ := Option.map_eq_some_iff.mp done
    cases same
    exact ⟨s, rfl, answered⟩
  | cleared job c =>
    cases done
    refine ⟨s.setCoordinator 0 { s.coordinator 0 with
      calls := Function.update (s.coordinator 0).calls c (some (.cleared job)) }, rfl, ?_⟩
    simp [State.answer, State.coordinator, State.setCoordinator]
  | zrem k =>
    cases done
    exact ⟨s, rfl, rfl, by simp⟩
  | store o =>
    cases done
    exact ⟨s, rfl, rfl⟩
  | _ => cases done

theorem echoActive_relisted : ∃ t,
    (cleanupMissingJobState echoConfig echoJob).Runs (Answers echoJob 0 false) echoActive
      (.error down) t ∧ (Listed echoJob t ↔ Listed echoJob echoActive ∧ false = false) := by
  obtain ⟨result, t, run, rfl⟩ := exists_runs (S := Ops) (R := Answers echoJob 0 false)
    answers_of_refused (fun (result : Result Unit) (_ : State) => result = .error down)
    [.call (.markDormant echoJob), .cleared echoJob 0, .zrem echoJob,
      .store (.hget .byJob echoJob.val)] (cleanupMissingJobState echoConfig echoJob) echoActive
    (by decide +kernel)
  exact ⟨t, run, relisted_iff echoConfig echoJob 0 false echoActive t _ down .proxy run⟩

/-- The second not-found response starts a clean-up, which has made the job dormant. -/
def echoCleaned : List Deployment.Event := echoRegistered ++
  echoRequested 1 0 ++ echoStarts 0 0 ++ echoFails 0 0 ++ echoCounts 1 0 0 1 ++
  echoRequested 2 1 ++ echoStarts 1 1 ++ echoFails 1 1 ++ echoCounts 2 1 1 2 ++
  (echoRemoved 2 2).take 5

/-- The record of the job is removed, and the first command of the deregistration fails. -/
theorem record_lost : ∃ h s u t, Run (system echoConfig) h s ∧ Listed echoJob s ∧
    step echoConfig s (.op 2 (.zrem echoJob) (.ok ())) = some u ∧
    step echoConfig u (.op 2 (.store (.hget .byJob echoJob.val)) (.error down)) = some t ∧
    (exec JobRegistry.Store.handle (JobRegistry.get false echoJob) t.store).1 =
      .ok (some WakeCoordinator.echoReg) ∧
    ¬ Listed echoJob t := by
  obtain ⟨h, s, run, listed, fails⟩ := exists_run (T := system echoConfig)
    (C := fun _ _ _ => True)
    (fun _ s => (s.score echoJob).isSome ∧
      ((step echoConfig s (.op 2 (.zrem echoJob) (.ok ()))).any fun u =>
        (step echoConfig u (.op 2 (.store (.hget .byJob echoJob.val)) (.error down))).any fun t =>
          decide ((exec JobRegistry.Store.handle (JobRegistry.get false echoJob) t.store).1 =
            .ok (some WakeCoordinator.echoReg)) && decide (t.score echoJob = none)) = true)
    echoCleaned (by decide +kernel)
  obtain ⟨u, removed, fails⟩ := (Option.any_eq_true _ _).mp fails
  obtain ⟨t, failed, left_⟩ := (Option.any_eq_true _ _).mp fails
  simp only [Bool.and_eq_true, decide_eq_true_eq] at left_
  obtain ⟨found, gone⟩ := left_
  refine ⟨h, s, u, t, run, listed_iff.mpr (Option.isSome_iff_exists.mp listed), removed, failed,
    found, fun lists => ?_⟩
  obtain ⟨x, score⟩ := listed_iff.mp lists
  cases gone.symm.trans score

end NScale.CleanupRetry
