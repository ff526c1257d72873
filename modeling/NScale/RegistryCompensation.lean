import NScale.RegistryRemoval

/-!
# A deregistration that is taken back

When the cached entries of a job cannot be removed, `deregister` writes the registration that
its own lookup had found to etcd again. What had been removed is every entry of the job by
service name, and the entry by job id.
-/
namespace NScale.RegistryCompensation
open Transition Program JobRegistry RegistryFailures

/-- A store, and whether the eviction has failed. -/
structure World where
  store : Store
  failed : Bool

def World.handle (op : StoreOp) (w : World) : Result op.Value × World :=
  (.ok (w.store.answer op).1, ⟨(w.store.answer op).2, w.failed⟩)

/-- Only the commands that remove cached entries fail. -/
def Evicting (op : StoreOp) (w : World) (result : Result op.Value) (u : World) : Prop :=
  (result, u) = w.handle op ∨
    op.evicts = true ∧ (∃ e, result = .error e) ∧ u.failed = true ∧
      (u.store = w.store ∨ u.store = (w.store.answer op).2)

/-- The call `x` may do this while the eviction may fail. -/
abbrev Attempts {α : Type} (x : Action α) (w : World) (result : Result α) (u : World) : Prop :=
  Program.Runs (S := StoreOps) Evicting x.run w result u

/-- Every lookup in etcd answers the same. -/
def SameDurable (s t : Store) : Prop :=
  (∀ job, (exec Store.handle (EtcdClient.getByJobId job) t).1 =
      (exec Store.handle (EtcdClient.getByJobId job) s).1) ∧
    ∀ service, (exec Store.handle (EtcdClient.getByServiceName service) t).1 =
      (exec Store.handle (EtcdClient.getByServiceName service) s).1

/-- What the lookup of the job finds is all that etcd has of it, and etcd has it under both
of its keys; or there is nothing of the job in either. -/
def Restorable (s : Store) (job : JobId) : Prop :=
  match s.answers true job with
  | some reg => s.jobs.lookup reg.jobId.val = some reg ∧
      s.services.lookup reg.serviceName.val = some reg ∧
      (reg.jobId = job ∨ s.jobs.lookup job.val = none) ∧
      ∀ key r, s.services.lookup key = some r → r.jobId = job → key = reg.serviceName.val
  | none => ∀ key r, s.services.lookup key = some r → r.jobId ≠ job

variable {α : Type} {x : Action α} {w u : World} {s t : Store} {job : JobId} {result : Result α}

/-! ## Runs of the three parts of a deregistration -/

lemma exec_world (x : Action α) (w : World) : exec World.handle x w =
    ((exec Store.handle x w.store).1, ⟨(exec Store.handle x w.store).2, w.failed⟩) := by
  change Program.run World.handle x.run w = _
  unfold exec
  generalize x.run = p
  induction p generalizing w with
  | pure a => rfl
  | perform op next ih => exact ih (.ok (w.store.answer op).1) ⟨(w.store.answer op).2, w.failed⟩

/-- Code that does not evict succeeds. -/
lemma exec_of_attempts (uses : Program.Uses (fun op : StoreOp => op.evicts = false) x.run)
    (run : Attempts x w result u) : exec World.handle x w = (result, u) := by
  change Program.run World.handle x.run w = _
  revert uses run
  unfold Attempts
  generalize x.run = p
  intro uses run
  induction p generalizing w with
  | pure a =>
    obtain ⟨rfl, rfl⟩ := run
    rfl
  | perform op next ih =>
    obtain ⟨r, v, done | ⟨evicts, -⟩, rest⟩ := run
    · obtain ⟨rfl, rfl⟩ := Prod.mk.inj done
      exact ih _ (uses.2 _) rest
    · exact absurd (uses.1.symm.trans evicts) (by decide)

lemma evicting_ok (op : StoreOp) (w : World) (v : op.Value) (u : World)
    (done : Evicting op w (.ok v) u) : w.handle op = (.ok v, u) := by
  rcases done with done | ⟨-, ⟨e, failed⟩, -⟩
  · exact done.symm
  · cases failed

/-- The eviction leaves etcd alone. -/
lemma durable_of_evicting {result : Result Unit}
    (run : Attempts (removeCachedRegistration job) w result u) :
    u.store.jobs = w.store.jobs ∧ u.store.services = w.store.services := by
  refine Triple.of_uses (fun v : World => v.store.jobs = w.store.jobs ∧
    v.store.services = w.store.services) (removeCachedRegistration_evicts job) ?_ w result u
      ⟨rfl, rfl⟩ run
  intro op v r v' evicts same done
  have kept : (v.store.answer op).2.jobs = v.store.jobs ∧
      (v.store.answer op).2.services = v.store.services := by
    cases op with
    | hgetall => exact ⟨rfl, rfl⟩
    | hdel hash => cases hash <;> exact ⟨rfl, rfl⟩
    | _ => cases evicts
  rcases done with done | ⟨-, -, -, unchanged | applied⟩
  · obtain ⟨-, rfl⟩ := Prod.mk.inj done
    exact ⟨kept.1.trans same.1, kept.2.trans same.2⟩
  · rw [unchanged]
    exact same
  · rw [applied]
    exact ⟨kept.1.trans same.1, kept.2.trans same.2⟩

/-- What the attempt to restore a registration leaves. -/
def restored (s : Store) : Option JobRegistration → Store
  | some reg => s.stored reg
  | none => s

lemma exec_restore (existing : Option JobRegistration) :
    exec Store.handle (restore existing) s = (.ok (), restored s existing) := by
  cases existing <;> rfl

/-- What is removed from etcd, up to the cache. -/
structure Removed (s : Store) (job : JobId) (t : Store) : Prop where
  jobs : t.jobs = s.jobs.erase job.val
  services : ∀ {key r}, t.services.lookup key = some r ↔
    s.services.lookup key = some r ∧ r.jobId ≠ job

/-- Where the eviction has failed, `deregister` fails, after the write to etcd. -/
lemma compensated_of_failed {result : Result Unit}
    (run : Attempts (deregister true job) ⟨s, false⟩ result ⟨t, true⟩) :
    (∃ e, result = .error e) ∧ ∃ u, Removed s job u ∧ t = restored u (s.answers true job) := by
  obtain ⟨got, w, run₁, run⟩ := runs_bind.mp run
  have look := exec_of_attempts ((get_adds job).mono fun _ adds => adds.stays) run₁
  rw [exec_world, exec_get_answers] at look
  obtain ⟨rfl, rfl⟩ := Prod.mk.inj look
  obtain ⟨removed, w, run₂, run⟩ := runs_bind.mp run
  have remove := exec_of_attempts ((removeRegistration_uses job).mono fun _ => And.right) run₂
  rw [exec_world, exec_removeRegistration] at remove
  obtain ⟨rfl, rfl⟩ := Prod.mk.inj remove
  obtain ⟨evicted, w, run₃, run⟩ := runs_bind.mp run
  obtain ⟨jobs, services⟩ := durable_of_evicting run₃
  have gone : Removed s job w.store := by
    rw [Store.looked, if_pos rfl] at jobs services
    refine ⟨by rw [jobs, Store.cachedAll_jobs], ?_⟩
    rw [services, Store.cachedAll_services]
    exact Table.lookup_eraseAll_keysOf fun _ _ => Table.mem_range
  cases evicted with
  | ok _ =>
    have evict := (removeCachedRegistration_plain job).exec_of_runs evicting_ok run₃
    rw [exec_world] at evict
    obtain ⟨-, rfl⟩ := Prod.mk.inj evict
    exact absurd (congrArg World.failed run.2) (by simp)
  | error e =>
    obtain ⟨attempted, w', run₄, thrown⟩ := runs_bind.mp run
    have write := exec_of_attempts ((restore_adds _).mono fun _ adds => adds.stays) run₄
    rw [exec_world, exec_restore] at write
    obtain ⟨rfl, rfl⟩ := Prod.mk.inj write
    obtain ⟨rfl, left⟩ := thrown
    exact ⟨⟨e, rfl⟩, w.store, gone, (congrArg World.store left).symm⟩

lemma same_iff_lookup : SameDurable s t ↔ (∀ key, t.jobs.lookup key = s.jobs.lookup key) ∧
    ∀ key, t.services.lookup key = s.services.lookup key := by
  constructor
  · rintro ⟨jobs, services⟩
    exact ⟨fun key => Except.ok.inj (jobs ⟨key⟩), fun key => Except.ok.inj (services ⟨key⟩)⟩
  · rintro ⟨jobs, services⟩
    exact ⟨fun job => congrArg Except.ok (jobs job.val),
      fun service => congrArg Except.ok (services service.val)⟩

section Compare
variable {v : Store}

lemma Removed.service_iff (gone : Removed s job v) (key : String) : v.services.lookup key = s.services.lookup key ↔
    ∀ r, s.services.lookup key = some r → r.jobId ≠ job := by
  constructor
  · intro same r held
    exact (gone.services.mp (same.trans held)).2
  · intro others
    cases held : s.services.lookup key with
    | some r => exact gone.services.mpr ⟨held, others r held⟩
    | none =>
      rw [Option.eq_none_iff_forall_ne_some]
      exact fun r there => by simp [(gone.services.mp there).1] at held

lemma Removed.job_iff (gone : Removed s job v) (key : String) : v.jobs.lookup key = s.jobs.lookup key ↔
    (key = job.val → s.jobs.lookup key = none) := by
  rw [gone.jobs]
  by_cases hk : key = job.val
  · subst hk
    simp [AList.lookup_erase, eq_comm]
  · simp [AList.lookup_erase_ne hk, hk]

lemma insert_iff {t : Table} {key : String} {reg : JobRegistration}
    {lookup : String → Option JobRegistration} :
    (∀ k, (t.insert key reg).lookup k = lookup k) ↔
      lookup key = some reg ∧ ∀ k, k ≠ key → t.lookup k = lookup k := by
  constructor
  · intro same
    refine ⟨?_, fun k hk => ?_⟩
    · rw [← same key, Table.lookup_insert_self]
    · rw [← same k, Table.lookup_insert_other hk]
  · rintro ⟨self, others⟩ k
    by_cases hk : k = key
    · rw [hk, Table.lookup_insert_self, self]
    · rw [Table.lookup_insert_other hk, others k hk]

/-- Nothing is missing after the attempt if the registration was all that there was. -/
lemma same_iff (gone : Removed s job v) :
    SameDurable s (restored v (s.answers true job)) ↔ Restorable s job := by
  rw [same_iff_lookup, Restorable]
  cases existing : s.answers true job with
  | none =>
    have missed := (Option.or_eq_none_iff.mp existing).2
    have absent : s.jobs.lookup job.val = none := (Option.or_eq_none_iff.mp missed).1
    constructor
    · rintro ⟨-, same⟩ key
      exact (gone.service_iff key).mp (same key)
    · intro others
      exact ⟨fun key => (gone.job_iff key).mpr (by rintro rfl; exact absent),
        fun key => (gone.service_iff key).mpr (others key)⟩
  | some reg =>
    simp only [restored, Store.stored, insert_iff, gone.job_iff, gone.service_iff]
    constructor
    · rintro ⟨⟨job_, noOther⟩, service, others⟩
      refine ⟨job_, service, ?_, fun key r held own => ?_⟩
      · by_cases own : job.val = reg.jobId.val
        · exact .inl (jobId_eq own.symm)
        · exact .inr (noOther job.val own rfl)
      · by_contra apart
        exact others key apart r held own
    · rintro ⟨job_, service, own | absent, only⟩
      · exact ⟨⟨job_, fun k apart same => absurd (same.trans (congrArg JobId.val own.symm)) apart⟩,
          service, fun k apart r held same => apart (only k r held same)⟩
      · exact ⟨⟨job_, fun k _ same => same ▸ absent⟩,
          service, fun k apart r held same => apart (only k r held same)⟩

end Compare

/-- A deregistration whose eviction fails is taken back exactly when what its lookup found is
all that etcd had of the job. -/
theorem deregister_restores_iff (s : Store) (job : JobId) (result : Result Unit) (t : Store)
    (attempt : Attempts (deregister true job) ⟨s, false⟩ result ⟨t, true⟩) :
    ((∃ e, result = .error e) ∧ SameDurable s t) ↔ Restorable s job := by
  obtain ⟨failed, u, gone, rfl⟩ := compensated_of_failed attempt
  exact ⟨fun both => (same_iff gone).mp both.2, fun whole => ⟨failed, (same_iff gone).mpr whole⟩⟩

/-! ## A job with one service, and a job with two -/

/-- A script of operations, each of which may be made to fail. -/
def scripted (o : StoreOp × Bool) (w : World) : Option ((op : StoreOp) × Result op.Value × World) :=
  if o.2 then
    if o.1.evicts then some ⟨o.1, .error (.store "connection lost"), ⟨w.store, true⟩⟩ else none
  else some ⟨o.1, w.handle o.1⟩

lemma evicting_of_scripted (o : StoreOp × Bool) (w : World) (op : StoreOp) (r : Result op.Value)
    (u : World) (done : scripted o w = some ⟨op, r, u⟩) : Evicting op w r u := by
  obtain ⟨op', fails⟩ := o
  cases fails with
  | false =>
    cases done
    exact .inl rfl
  | true =>
    by_cases evicts : op'.evicts = true
    · simp only [scripted, if_true, evicts, Option.some.injEq] at done
      cases done
      exact .inr ⟨evicts, ⟨_, rfl⟩, rfl, .inl rfl⟩
    · simp [scripted, evicts] at done

/-- The deregistration of `shop`, whose entries cannot be listed in Redis. -/
def unlisted (services : List String) (reg : JobRegistration) : List (StoreOp × Bool) :=
  [(.hget .byJob "shop", false), (.etcdRange .services, false),
    (.etcdTxn (services.map (.delete .services) ++ [.delete .jobs "shop"]), false),
    (.hgetall .byService, true),
    (.etcdTxn [.put .jobs reg.jobId.val reg, .put .services reg.serviceName.val reg], false)]

def fails (services : List String) (reg : JobRegistration) (s : Store) : Bool :=
  ((deregister true ⟨"shop"⟩).run.follow (S := StoreOps) scripted (unlisted services reg)
    ⟨s, false⟩).any fun r => decide (r.2.failed = true)

lemma exists_attempt {services : List String} {reg : JobRegistration}
    (check : fails services reg s = true) :
    ∃ result t, Attempts (deregister true ⟨"shop"⟩) ⟨s, false⟩ result ⟨t, true⟩ := by
  obtain ⟨result, ⟨t, failed⟩, run, rfl⟩ := exists_runs (S := StoreOps) (R := Evicting)
    evicting_of_scripted (fun (_ : Result Unit) (u : World) => u.failed = true) _ _ _ check
  exact ⟨result, t, run⟩

/-- A job with one service is restored. -/
theorem one_service_restored : ∃ h s t, Run (system true) h s ∧
    s.store.services.lookup "shop-web" = some webReg ∧ SameDurable s.store t := by
  obtain ⟨h, s, run, held, attempted, found, job, services⟩ := exists_run (T := system true)
    (C := fun _ _ _ => True) (fun _ s => s.store.services.lookup "shop-web" = some webReg ∧
      fails ["shop-web"] webReg s.store = true ∧ s.store.answers true ⟨"shop"⟩ = some webReg ∧
      s.store.jobs.lookup "shop" = some webReg ∧ s.store.services.toList = [("shop-web", webReg)])
    (registering 0 webReg) (by decide)
  obtain ⟨result, t, attempt⟩ := exists_attempt attempted
  refine ⟨h, s, t, run, held, ((deregister_restores_iff s.store _ result t attempt).mpr ?_).2⟩
  rw [Restorable, found]
  refine ⟨job, held, .inl rfl, fun key r there _ => ?_⟩
  have listed := Table.mem_toList.mpr there
  rw [services] at listed
  exact (Prod.mk.inj (List.mem_singleton.mp listed)).1

/-- Of a job with two services, one is gone for good. -/
theorem second_service_lost : ∃ h s result t, Run (system true) h s ∧
    Attempts (deregister true ⟨"shop"⟩) ⟨s.store, false⟩ result ⟨t, true⟩ ∧
    ¬ SameDurable s.store t := by
  obtain ⟨h, s, run, attempted, found, held⟩ := exists_run (T := system true)
    (C := fun _ _ _ => True) (fun _ s => fails ["shop-api", "shop-web"] apiReg s.store = true ∧
      s.store.answers true ⟨"shop"⟩ = some apiReg ∧
      s.store.services.lookup "shop-web" = some webReg)
    (registering 0 webReg ++ registering 1 apiReg) (by decide)
  obtain ⟨result, t, attempt⟩ := exists_attempt attempted
  refine ⟨h, s, result, t, run, attempt, fun same => ?_⟩
  obtain ⟨-, u, gone, rfl⟩ := compensated_of_failed attempt
  have whole := (same_iff gone).mp same
  rw [Restorable, found] at whole
  exact absurd (whole.2.2.2 "shop-web" webReg held rfl) (by decide)

end NScale.RegistryCompensation
