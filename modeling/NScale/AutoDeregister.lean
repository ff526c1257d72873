import NScale.RegistryRemoval
import NScale.ScaleDownController

/-!
# A missing job that is deregistered

`cleanup_missing_job_state` deregisters the activity key it is handed. The key is a lookup
string, which may be the name of a service; the registration that was found under it belongs
to a job that may have another name.
-/
namespace NScale.AutoDeregister
open Transition Program JobRegistry RegistryFailures Service

/-- What an operation of the service does to the registry when nobody else uses it. -/
def Alone (op : Op) (s : Store) (r : op.Answer) (t : Store) : Prop :=
  match op, r with
  | .store op, result => Responds op s result t
  | _, _ => t = s

/-- A lookup finds nothing. -/
def Forgotten (durable : Bool) (lookup : JobId) (s : Store) : Prop :=
  (exec Store.handle (get durable lookup) s).1 = .ok none

/-- No other job has a service that is named like the key. -/
def Unshared (durable : Bool) (key : JobId) (s : Store) : Prop :=
  ∀ r, s.byService.lookup key.val = some r ∨
    durable = true ∧ s.services.lookup key.val = some r → r.jobId = key

variable {cfg : Config} {key job : JobId} {durable : Bool} {s t u : Store} {reg : JobRegistration}

/-! ## What the clean-up does to the registry -/

def Elsewhere : Op → Prop
  | .store _ => False
  | _ => True

lemma leaves_of_uses {α : Type} {p : Code α} {a : α} (uses : p.Uses Elsewhere)
    (run : p.Runs Alone s a t) : t = s := by
  refine Triple.of_uses (R := Alone) (· = s) uses (fun op u r v other same moved => ?_) s a t rfl run
  cases op with
  | store o => exact other.elim
  | _ => exact moved.trans same

lemma returns_of_registry {α : Type} {x : Action α} {result : Result α}
    (run : (registry x).Runs Alone s result t) : Returns x s result t :=
  Runs.of_lift (S := StoreOps) (T := Ops) (f := Op.store) (g := fun _ r => r) (p := x.run)
    (R := Responds) (Q := Alone) (fun _ _ _ _ answered => answered) run

lemma clearBaseline_elsewhere :
    (ScaleDownController.clearBaseline cfg key).Uses Elsewhere := by
  unfold ScaleDownController.clearBaseline
  split_ifs
  · exact ⟨trivial, fun _ => trivial⟩
  · trivial

/-- A clean-up that returned `Ok` has deregistered its key. -/
lemma deregistered_of_cleanup
    (cleaned : (ScaleDownController.cleanupMissingJobState cfg key).Runs Alone s (.ok ()) t) :
    Returns (deregister cfg.durable key) s (.ok ()) t := by
  obtain ⟨_, s₁, dormant, cleaned⟩ := runs_bind.mp cleaned
  obtain ⟨_, s₂, removed, cleaned⟩ := runs_bind.mp cleaned
  obtain ⟨_, s₃, undeferred, cleaned⟩ := runs_bind.mp cleaned
  obtain ⟨_, s₄, cleared, cleaned⟩ := runs_bind.mp cleaned
  obtain ⟨result, s₅, deregistered, rest⟩ := runs_bind.mp cleaned
  have marked : (markDormant key).Uses Elsewhere := ⟨trivial, fun _ => ⟨trivial, fun _ => trivial⟩⟩
  obtain rfl := leaves_of_uses marked dormant
  obtain rfl : s₂ = s₁ := runs_call.mp removed
  obtain rfl : s₃ = s₂ := runs_call.mp undeferred
  obtain rfl := leaves_of_uses clearBaseline_elsewhere cleared
  cases result with
  | error e => exact absurd rest.1 (by simp)
  | ok _ =>
    obtain ⟨_, s₆, counted, -, rfl⟩ := runs_bind.mp rest
    obtain rfl : s₆ = s₅ := runs_call.mp counted
    exact returns_of_registry deregistered

/-! ## What can be looked up afterwards -/

lemma forgotten_iff : Forgotten durable key s ↔ s.answers durable key = none := by
  rw [Forgotten, exec_get_answers]
  exact ⟨Except.ok.inj, congrArg Except.ok⟩

/-- A lookup that finds something leaves the store as it is, or has read it from etcd. -/
lemma looked_cases (answered : s.answers durable key = some reg) :
    (s.found key.val = some reg ∧ s.looked durable key = s) ∨
      (s.found key.val = none ∧ s.source key.val = some reg ∧ s.looked durable key = s.cached reg) := by
  cases durable with
  | false => exact .inl ⟨answered, rfl⟩
  | true =>
    have read : (s.found key.val).or (s.source key.val) = some reg := answered
    cases hit : s.found key.val with
    | some r =>
      rw [hit, Option.some_or] at read
      exact .inl ⟨read, by simp [Store.looked, Store.refills, hit, Store.cachedAll]⟩
    | none =>
      rw [hit, Option.none_or] at read
      exact .inr ⟨rfl, read, by simp [Store.looked, Store.refills, hit, read, Store.cachedAll]⟩

/-- What a lookup has found is in Redis when it returns. -/
lemma found_looked (placed : s.Placed) (answered : s.answers durable key = some reg) :
    (s.looked durable key).found key.val = some reg := by
  rcases looked_cases answered with ⟨hit, same⟩ | ⟨missed, read, filled⟩
  · rw [same, hit]
  · rw [filled]
    obtain ⟨noJob, -⟩ := Option.or_eq_none_iff.mp missed
    by_cases own : key.val = reg.jobId.val
    · rw [Store.found, Store.cached, own, Table.lookup_insert_self, Option.some_or]
    · have named : key.val = reg.serviceName.val := by
        rcases Option.or_eq_some_iff.mp read with job | ⟨-, service⟩
        · exact absurd (placed.jobs job) own
        · exact placed.services service
      rw [Store.found, Store.cached, Table.lookup_insert_other own, noJob, Option.none_or, named,
        Table.lookup_insert_self]

lemma looked_of_found (hit : s.found key.val = some reg) : s.looked durable key = s := by
  cases durable with
  | false => rfl
  | true => simp [Store.looked, Store.refills, hit, Store.cachedAll]

lemma kept_eq_none_iff {before after : Table}
    (kept : ∀ {k r}, after.lookup k = some r ↔ before.lookup k = some r ∧ r.jobId ≠ key) (k : String) :
    after.lookup k = none ↔ ∀ r, before.lookup k = some r → r.jobId = key := by
  rw [Option.eq_none_iff_forall_ne_some]
  refine forall_congr' fun r => ?_
  rw [ne_eq, kept, not_and_not_right]

/-- Nothing is found under a key that was deregistered, unless another job has a service of
that name. -/
lemma answers_removed (gone : s.Removed durable key t) (same : s.looked durable key = s) :
    t.answers durable key = none ↔ Unshared durable key s := by
  have service := kept_eq_none_iff gone.byService key.val
  have job : t.byJob.lookup key.val = none := by rw [gone.byJob, AList.lookup_erase]
  rw [same] at service
  cases durable with
  | false =>
    simp only [Store.answers, Bool.false_eq_true, if_false, Store.found, job, Option.none_or, service,
      Unshared, false_and, or_false]
  | true =>
    have durableService := kept_eq_none_iff (gone.services rfl) key.val
    have durableJob : t.jobs.lookup key.val = none := by rw [gone.jobs rfl, AList.lookup_erase]
    simp only [Store.answers, if_true, Store.found, Store.source, job, durableJob, Option.none_or,
      Option.or_eq_none_iff, service, durableService, Unshared, true_and]
    exact ⟨fun both r held => held.elim (both.1 r) (both.2 r),
      fun all => ⟨fun r held => all r (.inl held), fun r held => all r (.inr held)⟩⟩

/-- A lookup shares the key with no other job, unless what it found belongs to one. -/
lemma unshared_looked (placed : s.Placed) (answered : s.answers durable key = some reg) :
    Unshared durable key (s.looked durable key) ↔ reg.jobId = key ∧ Unshared durable key s := by
  have services : (s.looked durable key).services = s.services := by
    cases durable with
    | false => rfl
    | true => exact Store.cachedAll_services
  constructor
  · intro unshared
    refine ⟨?_, fun r held => ?_⟩
    · rcases Option.or_eq_some_iff.mp (found_looked placed answered) with job | ⟨-, service⟩
      · exact jobId_eq ((placed.looked durable key).byJob job).symm
      · exact unshared reg (.inl service)
    · rcases held with service | ⟨mode, service⟩
      · rcases looked_cases answered with ⟨-, same⟩ | ⟨missed, -, -⟩
        · rw [same] at unshared
          exact unshared r (.inl service)
        · rw [(Option.or_eq_none_iff.mp missed).2] at service
          cases service
      · exact unshared r (.inr ⟨mode, services ▸ service⟩)
  · rintro ⟨own, unshared⟩ r (service | ⟨mode, service⟩)
    · rcases looked_cases answered with ⟨-, same⟩ | ⟨-, -, filled⟩
      · exact unshared r (.inl (same ▸ service))
      · rw [filled] at service
        by_cases named : key.val = reg.serviceName.val
        · rw [Store.cached, named, Table.lookup_insert_self] at service
          exact Option.some.inj service ▸ own
        · rw [Store.cached, Table.lookup_insert_other named] at service
          exact unshared r (.inl service)
    · exact unshared r (.inr ⟨mode, services ▸ service⟩)

def settings (durable : Bool) : Config where
  nomadConcurrency := 1
  wakeTimeout := 60
  durable := durable
  autoDeregisterEnabled := true
  autoDeregisterThreshold := 5
  idleThreshold := 300000
  lockTtl := 35000
  trafficProbe := false

/-- The operation succeeds. -/
def answered (op : Op) (s : Store) : Option ((op : Op) × op.Answer × Store) :=
  match op with
  | .store o => some ⟨.store o, .ok (s.answer o).1, (s.answer o).2⟩
  | .zrem key => some ⟨.zrem key, .ok (), s⟩
  | .clearNotFound key => some ⟨.clearNotFound key, .ok (), s⟩
  | op => some ⟨op, default, s⟩

lemma alone_of_answered (o : Op) (s : Store) (op : Op) (r : op.Answer) (t : Store)
    (done : answered o s = some ⟨op, r, t⟩) : Alone op s r t := by
  cases o with
  | store o =>
    cases done
    exact ⟨false, by simp [respond]⟩
  | _ =>
    cases done
    exact Eq.refl _

/-- The clean-up of a key, with the commands of Redis in between. -/
def cleaning (key : JobId) (commands : List StoreOp) : List Op :=
  [.call (.markDormant key), .cleared key 0, .zrem key, .dropDeferral key] ++
    commands.map .store ++ [.clearNotFound key]

def cleans (durable : Bool) (key : JobId) (commands : List StoreOp) (s : Store) : Bool :=
  ((ScaleDownController.cleanupMissingJobState (settings durable) key).follow answered
    (cleaning key commands) s).any fun r => decide (r.1 = .ok ())

lemma exists_cleaned {commands : List StoreOp} (check : cleans durable key commands s = true) :
    ∃ t, (ScaleDownController.cleanupMissingJobState (settings durable) key).Runs Alone s (.ok ()) t := by
  obtain ⟨result, t, run, rfl⟩ := exists_runs (S := Ops) (R := Alone) alone_of_answered
    (fun (result : Result Unit) (_ : Store) => result = .ok ()) _ _ s check
  exact ⟨t, run⟩

end NScale.AutoDeregister
