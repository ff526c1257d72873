import NScale.RegistryFailures

/-!
# What deregistration removes

After `deregister` has returned `Ok` no lookup reaches a registration of the job any more,
through Redis or through etcd, and the source of truth has kept all the others.
-/
namespace NScale.JobRegistry
open Program

namespace Store
variable (s : Store) (durable : Bool)

/-- The entries by job id of etcd in durable mode, else those of Redis. -/
def ofJobs : Table := if durable then s.jobs else s.byJob

/-- The entries by service name. -/
def ofServices : Table := if durable then s.services else s.byService

/-- The store after the lookup with which a deregistration begins. -/
def looked (job : JobId) : Store := if durable then s.cachedAll (s.refills job.val) else s

/-- No entry that a lookup can reach holds a registration of the job. -/
structure Lacks (job : JobId) : Prop where
  byJob : ∀ {key reg}, s.byJob.lookup key = some reg → reg.jobId ≠ job
  byService : ∀ {key reg}, s.byService.lookup key = some reg → reg.jobId ≠ job
  jobs : durable = true → ∀ {key reg}, s.jobs.lookup key = some reg → reg.jobId ≠ job
  services : durable = true → ∀ {key reg}, s.services.lookup key = some reg → reg.jobId ≠ job

namespace Placed
variable {s} {durable} {job : JobId} {t : Store}

lemma cached (ok : s.Placed) (reg : JobRegistration) : (s.cached reg).Placed :=
  { ok with
    byJob := Table.all_insert (fun _ _ => ok.byJob) rfl _ _
    byService := Table.all_insert (fun _ _ => ok.byService) rfl _ _ }

lemma cachedAll (ok : s.Placed) (regs : List JobRegistration) : (s.cachedAll regs).Placed := by
  induction regs generalizing s with
  | nil => exact ok
  | cons reg regs ih => exact ih (ok.cached reg)

lemma looked (ok : s.Placed) (durable : Bool) (job : JobId) : (s.looked durable job).Placed := by
  cases durable with
  | false => exact ok
  | true => exact ok.cachedAll _

/-- Once the entry under its id is gone, a job has no entry by job id. -/
lemma ne_of_erase {table : Table} (placed : ∀ {key reg}, table.lookup key = some reg →
    key = reg.jobId.val) {key : String} {reg : JobRegistration}
    (held : (table.erase job.val).lookup key = some reg) : reg.jobId ≠ job := by
  rintro rfl
  by_cases hk : key = reg.jobId.val
  · rw [hk, AList.lookup_erase] at held
    cases held
  · exact hk (placed (by rwa [AList.lookup_erase_ne hk] at held))

end Placed
end Store

section Deregister
variable {s t : Store} {durable : Bool} {job lookup : JobId} {reg : JobRegistration}

/-- What a lookup answers. -/
def Store.answers (s : Store) (durable : Bool) (lookup : JobId) : Option JobRegistration :=
  if durable then (s.found lookup.val).or (s.source lookup.val) else s.found lookup.val

lemma exec_get_answers (durable : Bool) (lookup : JobId) : exec Store.handle (get durable lookup) s =
    (.ok (s.answers durable lookup), s.looked durable lookup) := by
  cases durable with
  | false => exact exec_get_redisOnly lookup
  | true => exact exec_get lookup

/-- What `deregister` leaves: nothing of the job, and all of the others. -/
structure Store.Removed (s : Store) (durable : Bool) (job : JobId) (t : Store) : Prop where
  byJob : t.byJob = (s.looked durable job).byJob.erase job.val
  byService : ∀ {key reg}, t.byService.lookup key = some reg ↔
    (s.looked durable job).byService.lookup key = some reg ∧ reg.jobId ≠ job
  jobs : durable = true → t.jobs = s.jobs.erase job.val
  services : durable = true → ∀ {key reg}, t.services.lookup key = some reg ↔
    s.services.lookup key = some reg ∧ reg.jobId ≠ job

lemma removed_of_exec (done : exec Store.handle (deregister durable job) s = (.ok (), t)) :
    s.Removed durable job t := by
  cases durable with
  | true =>
    obtain ⟨u, done', gone⟩ := exec_deregister s job
    obtain rfl : u = t := congrArg Prod.snd (done'.symm.trans done)
    exact ⟨gone.byJob, gone.byService, fun _ => gone.jobs.trans (by rw [Store.cachedAll_jobs]),
      fun _ => gone.services.trans (by rw [Store.cachedAll_services])⟩
  | false =>
    rw [deregister, exec_bind_ok (exec_get_redisOnly job), if_neg Bool.false_ne_true,
      exec_removeCachedRegistration] at done
    obtain rfl := congrArg Prod.snd done
    exact ⟨rfl, Table.lookup_eraseAll_keysOf fun _ _ => Table.mem_toList,
      fun no => (Bool.false_ne_true no).elim, fun no => (Bool.false_ne_true no).elim⟩

lemma Store.Removed.lacks (gone : s.Removed durable job t) (placed : s.Placed) :
    t.Lacks durable job where
  byJob := by
    rw [gone.byJob]
    exact Store.Placed.ne_of_erase (placed.looked durable job).byJob
  byService held := (gone.byService.mp held).2
  jobs mode := by
    rw [gone.jobs mode]
    exact Store.Placed.ne_of_erase placed.jobs
  services mode _ _ held := ((gone.services mode).mp held).2

lemma Store.Lacks.answers_ne (lacks : t.Lacks durable job)
    (answered : t.answers durable lookup = some reg) : reg.jobId ≠ job := by
  have found {reg : JobRegistration} (h : t.found lookup.val = some reg) : reg.jobId ≠ job := by
    rcases Option.or_eq_some_iff.mp h with h | ⟨-, h⟩
    · exact lacks.byJob h
    · exact lacks.byService h
  cases durable with
  | false => exact found answered
  | true =>
    rcases Option.or_eq_some_iff.mp answered with h | ⟨-, h⟩
    · exact found h
    · rcases Option.or_eq_some_iff.mp h with h | ⟨-, h⟩
      · exact lacks.jobs rfl h
      · exact lacks.services rfl h

/-- An entry of another job stays what it was in the source of truth. -/
lemma Store.Removed.others (gone : s.Removed durable job t) (placed : s.Placed) {key : String}
    (other : reg.jobId ≠ job) :
    ((t.ofJobs durable).lookup key = some reg ↔ (s.ofJobs durable).lookup key = some reg) ∧
      ((t.ofServices durable).lookup key = some reg ↔
        (s.ofServices durable).lookup key = some reg) := by
  have erased {table : Table} (at_ : ∀ {key reg}, table.lookup key = some reg → key = reg.jobId.val) :
      (table.erase job.val).lookup key = some reg ↔ table.lookup key = some reg := by
    by_cases hk : key = job.val
    · subst hk
      refine ⟨fun held => by simp [AList.lookup_erase] at held, fun held => absurd ?_ other⟩
      exact jobId_eq (at_ held).symm
    · rw [AList.lookup_erase_ne hk]
  cases durable with
  | false =>
    refine ⟨?_, gone.byService.trans ⟨And.left, fun held => ⟨held, other⟩⟩⟩
    simp only [Store.ofJobs, Bool.false_eq_true, if_false, gone.byJob]
    exact erased placed.byJob
  | true =>
    refine ⟨?_, (gone.services rfl).trans ⟨And.left, fun held => ⟨held, other⟩⟩⟩
    simp only [Store.ofJobs, if_true, gone.jobs rfl]
    exact erased placed.jobs

end Deregister
end NScale.JobRegistry

namespace NScale.RegistryFailures
open Transition Program JobRegistry

/-- After `deregister` no lookup returns a registration of the job, and the source of truth is
as it was about every other job. -/
theorem deregister_complete (durable : Bool) (h : List Event) (s : State) (job : JobId) (t : Store)
    (run : Run (system durable) h s) (done : Returns (deregister durable job) s.store (.ok ()) t) :
    (∀ lookup reg u, Returns (get durable lookup) t (.ok (some reg)) u → reg.jobId ≠ job) ∧
      ∀ key reg, reg.jobId ≠ job →
        ((t.ofJobs durable).lookup key = some reg ↔
          (s.store.ofJobs durable).lookup key = some reg) ∧
        ((t.ofServices durable).lookup key = some reg ↔
          (s.store.ofServices durable).lookup key = some reg) := by
  have placed := placed_of_run run
  have gone := removed_of_exec (exec_of_deregister done)
  refine ⟨fun lookup reg u got => ?_, fun key reg other => gone.others placed other⟩
  have answered := (exec_get_answers durable lookup).symm.trans (exec_of_get got)
  exact (gone.lacks placed).answers_ne (Except.ok.inj (Prod.mk.inj answered).1)

/-- A registration of one job, without a failure. -/
def registering (i : ℕ) (reg : JobRegistration) : List Event :=
  [.begin (.register reg),
    .op i (.etcdTxn [.put .jobs reg.jobId.val reg, .put .services reg.serviceName.val reg]) (.ok ())
      false,
    .op i (.hset .byJob reg.jobId.val reg) (.ok ()) false,
    .op i (.hset .byService reg.serviceName.val reg) (.ok ()) false]

/-- A job with two services is forgotten under both their names. -/
theorem shop_deregistered : ∃ h s t, Run (system true) h s ∧
    s.store.ofServices true ≠ ∅ ∧ Returns (deregister true ⟨"shop"⟩) s.store (.ok ()) t ∧
    ∀ lookup reg u, Returns (get true lookup) t (.ok (some reg)) u → reg.jobId ≠ ⟨"shop"⟩ := by
  obtain ⟨h, s, run, held⟩ := exists_run (T := system true) (C := fun _ _ _ => True)
    (fun _ s => (s.store.services.lookup "shop-web").isSome = true)
    (registering 0 webReg ++ registering 1 apiReg ++ [.lose]) (by decide)
  obtain ⟨t, done, -⟩ := exec_deregister s.store ⟨"shop"⟩
  have returned := Returns.of_exec done
  refine ⟨h, s, t, run, ?_, returned, (deregister_complete true h s _ t run returned).1⟩
  rintro empty
  have none_ : s.store.services = ∅ := empty
  simp [none_] at held

end NScale.RegistryFailures
