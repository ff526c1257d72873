import NScale.Census
import NScale.WakeInvariant

/-!
# Permits of the wake semaphore

A wake task holds a permit from its acquisition to the answer of `scale_up`, and no longer.
-/
namespace NScale.WakeCoordinator
open Transition Census

def Task.HoldsPermit : Task → Prop
  | .scaleUp _ _ => True
  | _ => False

/-- The tasks in their scale-up phase, counted together with the free permits, are `n`. -/
def PermitsAre (n : ℕ) (s : State) : Prop :=
  (members s.tasks Task.HoldsPermit).encard + s.permits = n

lemma permitsAre_initial (n timeout : ℕ) : PermitsAre n (initial n timeout) := by
  have idle : members (initial n timeout).tasks Task.HoldsPermit = ∅ :=
    members_empty fun _ _ h => by cases h
  rw [PermitsAre, idle]
  simp [initial]

namespace PermitsAre
variable {n : ℕ} {s s' : State} {t : ℕ} {k k' : Task}

lemma of_eq (ok : PermitsAre n s) (tasks : s'.tasks = s.tasks) (permits : s'.permits = s.permits) :
    PermitsAre n s' := by
  simpa only [PermitsAre, tasks, permits] using ok

/-- A task that neither takes nor returns a permit. -/
lemma setTask (ok : PermitsAre n s) (at_ : s.tasks t = some k) (same : k'.HoldsPermit ↔ k.HoldsPermit) :
    PermitsAre n (s.setTask t k') := by
  have census : members (s.setTask t k').tasks Task.HoldsPermit = members s.tasks Task.HoldsPermit :=
    members_same at_ same
  rw [PermitsAre, census]
  exact ok

lemma acquire (ok : PermitsAre n s) (at_ : s.tasks t = some k) (free : 0 < s.permits)
    (idle : ¬ k.HoldsPermit) (takes : k'.HoldsPermit) :
    PermitsAre n ((s.setPermits (s.permits - 1)).setTask t k') := by
  have census : (members ((s.setPermits (s.permits - 1)).setTask t k').tasks
      Task.HoldsPermit).encard = (members s.tasks Task.HoldsPermit).encard + 1 :=
    encard_enter (fun h => idle ((mem_iff at_).mp h)) takes
  obtain ⟨m, hm⟩ := Nat.exists_eq_add_of_le' free
  have total : (members s.tasks Task.HoldsPermit).encard + (s.permits : ℕ∞) = n := ok
  rw [PermitsAre, census, State.setTask_permits, State.setPermits_permits, ← total, hm]
  push_cast
  rw [add_assoc, add_comm (1 : ℕ∞)]

lemma release (ok : PermitsAre n s) (at_ : s.tasks t = some k) (holds : k.HoldsPermit)
    (idle : ¬ k'.HoldsPermit) : PermitsAre n ((s.setPermits (s.permits + 1)).setTask t k') := by
  have census : (members ((s.setPermits (s.permits + 1)).setTask t k').tasks
      Task.HoldsPermit).encard + 1 = (members s.tasks Task.HoldsPermit).encard :=
    encard_leave at_ holds idle
  have total : (members s.tasks Task.HoldsPermit).encard + (s.permits : ℕ∞) = n := ok
  rw [PermitsAre, State.setTask_permits, State.setPermits_permits, ← total, ← census]
  push_cast
  rw [add_assoc, add_comm (1 : ℕ∞)]

lemma spawn (ok : PermitsAre n s) (wf : WellFormed s) {i w : ℕ} {reg : JobRegistration}
    {inbox : Option WakeResult} : PermitsAre n (Event.next s (.spawn i reg w inbox)) := by
  have fresh : s.tasks s.nextTask = none :=
    Option.eq_none_iff_forall_not_mem.mpr fun k hk => (wf.tasks hk).false
  have census : members (Event.next s (.spawn i reg w inbox)).tasks Task.HoldsPermit =
      members s.tasks Task.HoldsPermit := members_fresh fresh id
  rw [PermitsAre, census]
  exact ok

theorem next {e : Event} (ok : PermitsAre n s) (wf : WellFormed s) (en : e.enabled s = true) :
    PermitsAre n (e.next s) := by
  cases e with
  | acquire t reg w =>
    have en := of_decide_eq_true en
    exact ok.acquire en.1 en.2 id trivial
  | scaled t reg w answer =>
    simp only [Event.next]
    split <;> exact ok.release (of_decide_eq_true en) trivial id
  | spawn i reg w inbox => exact ok.spawn wf
  | healthy =>
    simp only [Event.next]
    split <;> exact ok.setTask (of_decide_eq_true en) Iff.rfl
  | pollReceivers t reg w saw =>
    simp only [Event.next]
    split_ifs <;> exact ok.setTask (of_decide_eq_true en) Iff.rfl
  | publish | storeReady | sendReady | storeDormant | sendFailure | removeEntry =>
    exact ok.setTask (of_decide_eq_true en) Iff.rfl
  | entry => exact ok.of_eq (s.orInsert_tasks _) (s.orInsert_permits _)
  | reset | refreshReady => exact ok.of_eq (s.storeStatus_tasks _ _) (s.storeStatus_permits _ _)
  | fastPath | load | cached | fetched | tryStart | queried =>
    simp only [Event.next]
    split <;> exact ok.of_eq rfl rfl
  | begin | store | subscribe | ownSubscribe | recv | timeout | dropFetch | dropRecv | dropQuery
  | evict | remove | refreshStore => exact ok.of_eq rfl rfl

end PermitsAre

theorem permitsAre_of_run {n timeout : ℕ} {C : Condition State Event} {h : List Event} {s : State}
    (run : RunWhere (system n timeout) C h s) : PermitsAre n s := by
  apply run.invariant fun _ s => PermitsAre n s
  · exact permitsAre_initial n timeout
  · intro h s t e prior ok taken _
    obtain ⟨en, rfl⟩ := step_iff.mp taken
    exact ok.next (wellFormed_of_run prior) en

end NScale.WakeCoordinator
