import NScale.RegistryCompensation

/-!
# A registration and a removal at the same time

`store_registration` is one transaction. `remove_registration` reads the service keys of the
job, and deletes them and the key of the job in a transaction of its own, which does not look
whether a service has been added since.
-/
namespace NScale.EtcdRace
open Transition Program JobRegistry RegistryFailures RegistryCompensation

/-- What one call leaves after the other. -/
def inTurn (x y : Action Unit) (s : Store) : Store :=
  (exec Store.handle y (exec Store.handle x s).2).2

/-- Whatever the order of their requests, the two calls leave in etcd what one of them leaves
after the other. -/
def Serializable (reg : JobRegistration) (s : Store) : Prop :=
  ∀ t, Interleaves Store.handle (EtcdClient.storeRegistration reg).run
      (EtcdClient.removeRegistration reg.jobId).run s t →
    SameDurable (inTurn (EtcdClient.storeRegistration reg)
      (EtcdClient.removeRegistration reg.jobId) s) t ∨
    SameDurable (inTurn (EtcdClient.removeRegistration reg.jobId)
      (EtcdClient.storeRegistration reg) s) t

variable {reg : JobRegistration} {s t : Store} {job : JobId} {keys : List String}

/-- What the transaction of a removal leaves. -/
def dropped (job : JobId) (keys : List String) (s : Store) : Store :=
  { s with services := Table.eraseAll keys s.services, jobs := s.jobs.erase job.val }

/-- The rest of a removal, once the keys are known. -/
def deleting (job : JobId) (keys : List String) : Program StoreOps (Result Unit) :=
  (perform (.etcdTxn (keys.map (.delete .services) ++ [.delete .jobs job.val]))).run

lemma removeRegistration_run (job : JobId) : (EtcdClient.removeRegistration job).run =
    .perform (.etcdRange .services) fun
      | .ok entries => deleting job (Table.keysOf job entries)
      | .error e => .pure (.error e) := by
  refine congrArg (Program.perform _) (funext fun r => ?_)
  cases r <;> rfl

lemma run_deleting (job : JobId) (keys : List String) (s : Store) :
    (deleting job keys).run Store.handle s = (.ok (), dropped job keys s) := by
  refine (exec_etcdTxn _).trans ?_
  rw [List.foldl_append, foldl_delete_services]
  rfl

/-- The registration comes before, in the middle or after the removal. -/
lemma interleaves_iff : Interleaves Store.handle (EtcdClient.storeRegistration reg).run
      (EtcdClient.removeRegistration job).run s t ↔
    t = dropped job (Table.keysOf job (s.stored reg).services.range) (s.stored reg) ∨
    t = dropped job (Table.keysOf job s.services.range) (s.stored reg) ∨
    t = (dropped job (Table.keysOf job s.services.range) s).stored reg := by
  have store : (EtcdClient.storeRegistration reg).run = .perform (.etcdTxn
      [.put .jobs reg.jobId.val reg, .put .services reg.serviceName.val reg]) .pure := rfl
  have delete (keys : List String) : deleting job keys = .perform (.etcdTxn
      (keys.map (.delete .services) ++ [.delete .jobs job.val])) .pure := rfl
  have deleted (keys : List String) (s : Store) : Store.handle (.etcdTxn
      (keys.map (.delete .services) ++ [.delete .jobs job.val])) s = (.ok (), dropped job keys s) :=
    run_deleting job keys s
  rw [removeRegistration_run, store, interleaves_perform]
  refine or_congr ?_ ?_
  · rw [interleaves_pure_left]
    change ((deleting job _).run Store.handle (s.stored reg)).2 = t ↔ _
    rw [run_deleting, eq_comm]
    rfl
  · change Interleaves Store.handle (.perform _ .pure)
      (deleting job (Table.keysOf job s.services.range)) s t ↔ _
    rw [delete, interleaves_perform]
    refine or_congr ?_ ?_
    · rw [interleaves_pure_left, ← delete, run_deleting, eq_comm]
      rfl
    · rw [deleted, interleaves_pure_right, eq_comm]
      rfl

lemma mem_keysOf_range {key : String} : key ∈ Table.keysOf job s.services.range ↔
    ∃ r, s.services.lookup key = some r ∧ r.jobId = job :=
  Table.mem_keysOf fun _ _ => Table.mem_range

/-- Without the service key among those it deletes, a removal leaves it. -/
lemma middle_before_iff : SameDurable (dropped reg.jobId (Table.keysOf reg.jobId
      (s.stored reg).services.range) (s.stored reg))
        (dropped reg.jobId (Table.keysOf reg.jobId s.services.range) (s.stored reg)) ↔
    reg.serviceName.val ∈ Table.keysOf reg.jobId s.services.range := by
  rw [same_iff_lookup]
  let keys := Table.keysOf reg.jobId s.services.range
  have before {key : String} {r : JobRegistration} : (dropped reg.jobId (Table.keysOf reg.jobId
      (s.stored reg).services.range) (s.stored reg)).services.lookup key = some r ↔
        (s.services.insert reg.serviceName.val reg).lookup key = some r ∧ r.jobId ≠ reg.jobId :=
    Table.lookup_eraseAll_keysOf fun _ _ => Table.mem_range
  have middle (key : String) : (dropped reg.jobId keys (s.stored reg)).services.lookup key =
      if key ∈ keys then none else (s.services.insert reg.serviceName.val reg).lookup key :=
    Table.lookup_eraseAll keys _ key
  constructor
  · rintro ⟨-, same⟩
    by_contra unlisted
    have left := (same reg.serviceName.val).symm
    rw [middle, if_neg unlisted, Table.lookup_insert_self] at left
    exact (before.mp left).2 rfl
  · intro listed
    refine ⟨fun _ => rfl, fun key => Option.ext fun r => ?_⟩
    change (dropped reg.jobId keys (s.stored reg)).services.lookup key = some r ↔ _
    rw [middle, before]
    by_cases own : key = reg.serviceName.val
    · subst own
      simp only [keys, listed, if_true, Table.lookup_insert_self, reduceCtorEq, Option.some.injEq,
        false_iff, not_and, not_not]
      rintro rfl
      rfl
    · rw [Table.lookup_insert_other own]
      split_ifs with member
      · obtain ⟨r', held, job⟩ := mem_keysOf_range.mp member
        simp only [held, Option.some.injEq, false_iff, not_and, not_not]
        rintro rfl
        exact job
      · refine ⟨fun held => ⟨held, fun job => member (mem_keysOf_range.mpr ⟨r, held, job⟩)⟩, And.left⟩

lemma middle_after_ne : ¬ SameDurable ((dropped reg.jobId (Table.keysOf reg.jobId s.services.range)
      s).stored reg)
    (dropped reg.jobId (Table.keysOf reg.jobId s.services.range) (s.stored reg)) := by
  rw [same_iff_lookup]
  rintro ⟨jobs, -⟩
  have job := jobs reg.jobId.val
  simp [dropped, Store.stored, AList.lookup_erase] at job

/-- The removal has to know of the service before the registration comes. -/
lemma serializable_iff_listed : Serializable reg s ↔
    reg.serviceName.val ∈ Table.keysOf reg.jobId s.services.range := by
  have before : inTurn (EtcdClient.storeRegistration reg) (EtcdClient.removeRegistration reg.jobId) s =
      dropped reg.jobId (Table.keysOf reg.jobId (s.stored reg).services.range) (s.stored reg) :=
    congrArg Prod.snd (exec_removeRegistration (s := s.stored reg))
  have after : inTurn (EtcdClient.removeRegistration reg.jobId) (EtcdClient.storeRegistration reg) s =
      (dropped reg.jobId (Table.keysOf reg.jobId s.services.range) s).stored reg := by
    rw [inTurn, exec_removeRegistration]
    rfl
  have same (t : Store) : SameDurable t t := ⟨fun _ => rfl, fun _ => rfl⟩
  rw [Serializable, before, after, ← middle_before_iff]
  constructor
  · exact fun all => (all _ (interleaves_iff.mpr (.inr (.inl rfl)))).resolve_right middle_after_ne
  · intro middle t both
    rcases interleaves_iff.mp both with rfl | rfl | rfl
    · exact .inl (same _)
    · exact .inl middle
    · exact .inr (same _)

/-- A registration and a removal of its job are serializable exactly when the service was
registered for the job before. -/
theorem store_remove_serializable_iff (reg : JobRegistration) (s : Store) : Serializable reg s ↔
    ∃ r, s.services.lookup reg.serviceName.val = some r ∧ r.jobId = reg.jobId := by
  rw [serializable_iff_listed, mem_keysOf_range]

/-- The first registration of a job, and a removal of the job at the same time. -/
theorem first_registration_torn :
    ¬ ∀ h s reg, Run (system true) h s → Serializable reg s.store := by
  intro all
  have listed := serializable_iff_listed.mp (all _ _ webReg .nil)
  exact absurd listed (by decide)

end NScale.EtcdRace
