import NScale.RegistryCache

/-!
# What a listing contains

`list_all` returns the cached service entries, else the cached job entries, else what etcd
lists by the same rule. A job is listed as long as it keeps a service entry of its own in each
store that is listed, and a cache that is not empty holds all jobs.
-/
namespace NScale.JobRegistry
open Transition Program

lemma jobId_ext {a b : JobId} (same : a.val = b.val) : a = b := by
  cases a
  cases same
  rfl

namespace Table
variable {t jobs : Table} {key : String} {reg r : JobRegistration} {job : JobId} {name : ServiceName}

/-- The job ids that have an entry. -/
def ids (t : Table) : List JobId := t.toList.map fun e => ⟨e.1⟩

lemma mem_ids : job ∈ t.ids ↔ ∃ reg, t.lookup job.val = some reg := by
  simp only [ids, List.mem_map, Prod.exists, mem_toList]
  constructor
  · rintro ⟨key, reg, held, rfl⟩
    exact ⟨reg, held⟩
  · rintro ⟨reg, held⟩
    exact ⟨job.val, reg, held, rfl⟩

/-- The job has an entry under a name other than this one. -/
def Beside (t : Table) (name : ServiceName) (job : JobId) : Prop :=
  ∃ e ∈ t.toList, e.1 ≠ name.val ∧ e.2.jobId = job

instance : Decidable (t.Beside name job) := inferInstanceAs (Decidable (∃ e ∈ t.toList, _ ∧ _))

lemma beside_iff :
    t.Beside name job ↔ ∃ key reg, t.lookup key = some reg ∧ key ≠ name.val ∧ reg.jobId = job := by
  simp only [Beside, Prod.exists, mem_toList]

/-- Some entry is of the job. -/
def Has (t : Table) (job : JobId) : Prop := ∃ key reg, t.lookup key = some reg ∧ reg.jobId = job

/-- Every job that has an entry in the one table is one of the other's. -/
def Covers (t jobs : Table) : Prop := ∀ job ∈ jobs.ids, t.Has job

lemma has_insert (other : job ≠ reg.jobId) :
    Has (t.insert reg.serviceName.val reg) job ↔ t.Beside reg.serviceName job := by
  rw [beside_iff]
  constructor
  · rintro ⟨key, r, held, rfl⟩
    by_cases same : key = reg.serviceName.val
    · subst same
      rw [lookup_insert_self] at held
      exact absurd (congrArg JobRegistration.jobId (Option.some.inj held)).symm other
    · exact ⟨key, r, by rwa [lookup_insert_other same] at held, same, rfl⟩
  · rintro ⟨key, r, held, beside, rfl⟩
    exact ⟨key, r, by rwa [lookup_insert_other beside], rfl⟩

/-- A registration under its service name leaves a table covering if and only if no other job
has only an entry of that name. -/
lemma covers_insert :
    Covers (t.insert reg.serviceName.val reg) (jobs.insert reg.jobId.val reg) ↔
      ∀ job ∈ jobs.ids, job ≠ reg.jobId → t.Beside reg.serviceName job := by
  constructor
  · intro covers job mem other
    have kept : job ∈ ids (jobs.insert reg.jobId.val reg) := by
      have apart : job.val ≠ reg.jobId.val := fun same => other (jobId_ext same)
      rwa [mem_ids, lookup_insert_other apart, ← mem_ids]
    exact (has_insert other).mp (covers job kept)
  · intro beside job mem
    by_cases same : job = reg.jobId
    · exact ⟨reg.serviceName.val, reg, lookup_insert_self, same.symm⟩
    · have apart : job.val ≠ reg.jobId.val := fun val => same (jobId_ext val)
      rw [mem_ids, lookup_insert_other apart, ← mem_ids] at mem
      exact (has_insert same).mpr (beside job mem same)

lemma toList_eq_nil : t.toList = [] ↔ ∀ key, t.lookup key = none := by
  rw [List.eq_nil_iff_forall_not_mem]
  constructor
  · intro none_ key
    cases held : t.lookup key with
    | none => rfl
    | some reg => exact absurd (mem_toList.mpr held) (none_ (key, reg))
  · intro none_ e mem
    exact absurd ((none_ e.1).symm.trans (mem_toList.mp mem)) (by simp)

/-- The registrations in a list of all entries are of the jobs that the table has. -/
lemma mem_map_snd {entries : List (String × JobRegistration)}
    (all : ∀ key reg, (key, reg) ∈ entries ↔ t.lookup key = some reg) :
    (∃ reg ∈ entries.map Prod.snd, reg.jobId = job) ↔ t.Has job := by
  simp only [List.mem_map, Prod.exists, exists_eq_right]
  constructor
  · rintro ⟨reg, ⟨key, mem⟩, rfl⟩
    exact ⟨key, reg, (all key reg).mp mem, rfl⟩
  · rintro ⟨key, reg, held, rfl⟩
    exact ⟨reg, ⟨key, (all key reg).mpr held⟩, rfl⟩

end Table

namespace Store
variable (s : Store) (durable : Bool)

def authoritative : Table := if durable then s.jobs else s.byJob

/-- What `list_all` returns. -/
def listed : List JobRegistration :=
  if s.cachedList.isEmpty then if durable then s.durableList else [] else s.cachedList.map Prod.snd

end Store

lemma exec_listAll_fst (durable : Bool) (s : Store) :
    (exec Store.handle (listAll durable) s).1 = .ok (s.listed durable) := by
  rw [listAll, exec_bind_ok exec_cachedEntries, Store.listed]
  cases s.cachedList with
  | cons e entries => rfl
  | nil =>
    cases durable with
    | false => rfl
    | true =>
      simp only [List.isEmpty_nil, if_true]
      rw [exec_bind_ok exec_durableList, exec_bind_ok (exec_cacheAll _), exec_pure]

/-- A listing has a registration of every job that the authoritative store has. -/
def ListsAll (durable : Bool) (s : Store) : Prop :=
  ∃ regs, (exec Store.handle (listAll durable) s).1 = .ok regs ∧
    ∀ job ∈ (s.authoritative durable).ids, ∃ reg ∈ regs, reg.jobId = job

lemma listsAll_iff {durable : Bool} {s : Store} : ListsAll durable s ↔
    ∀ job ∈ (s.authoritative durable).ids, ∃ reg ∈ s.listed durable, reg.jobId = job := by
  unfold ListsAll
  rw [exec_listAll_fst]
  simp

/-- What a completed call leaves in the stores. -/
def Call.leaves (durable : Bool) (s : Store) : Call → Store
  | .register reg => (exec Store.handle (JobRegistry.register durable reg) s).2
  | .deregister job => (exec Store.handle (JobRegistry.deregister durable job) s).2
  | .get lookup => (exec Store.handle (JobRegistry.get durable lookup) s).2
  | .listAll => (exec Store.handle (JobRegistry.listAll durable) s).2
  | .syncFromDurable => (exec Store.handle (JobRegistry.syncFromDurable durable) s).2
  | .lose => s.lost

/-- Completed calls one after the other; in durable mode the cache may be lost between them. -/
def calls (durable : Bool) : System Store Call :=
  .guarded .empty (fun _ c => durable || c ≠ .lose) fun s c => c.leaves durable s

/-- No registration takes the last service name of another job in a store that is listed, and
while Redis is empty no single job is put there beside others in etcd. -/
def KeepsListed (durable : Bool) : Condition Store Call := fun _ s c =>
  match c with
  | .register reg => ∀ job ∈ (s.authoritative durable).ids, job ≠ reg.jobId →
      s.byService.Beside reg.serviceName job ∧
        (durable = true → s.services.Beside reg.serviceName job)
  | .get lookup => durable = true → s.cachedList = [] →
      ∀ reg ∈ s.source lookup.val, ∀ job ∈ s.jobs.ids, job = reg.jobId
  | .deregister lookup => durable = true → s.cachedList = [] →
      ∀ reg ∈ s.source lookup.val, reg.jobId ≠ lookup → ∀ job ∈ s.jobs.ids, job = reg.jobId
  | _ => True

instance (durable : Bool) (h : List Call) (s : Store) (c : Call) :
    Decidable (KeepsListed durable h s c) :=
  match c with
  | .register reg => inferInstanceAs (Decidable (∀ job ∈ (s.authoritative durable).ids,
      job ≠ reg.jobId → s.byService.Beside reg.serviceName job ∧
        (durable = true → s.services.Beside reg.serviceName job)))
  | .get lookup => inferInstanceAs (Decidable (durable = true → s.cachedList = [] →
      ∀ reg ∈ s.source lookup.val, ∀ job ∈ s.jobs.ids, job = reg.jobId))
  | .deregister lookup => inferInstanceAs (Decidable (durable = true → s.cachedList = [] →
      ∀ reg ∈ s.source lookup.val, reg.jobId ≠ lookup → ∀ job ∈ s.jobs.ids, job = reg.jobId))
  | .listAll | .syncFromDurable | .lose => isTrue trivial

/-! ## What is listed -/

section
variable {s : Store} {durable : Bool} {job : JobId} {key : String} {reg : JobRegistration}

lemma cachedList_eq_nil : s.cachedList = [] ↔
    (∀ key, s.byJob.lookup key = none) ∧ ∀ key, s.byService.lookup key = none := by
  rw [← Table.toList_eq_nil, ← Table.toList_eq_nil, Store.cachedList]
  cases s.byService.toList <;> simp

lemma refills_of_blank {lookup : String} {reg : JobRegistration} (blank : s.cachedList = [])
    (found : s.source lookup = some reg) : s.refills lookup = [reg] := by
  have missed : s.found lookup = none := by simp [Store.found, cachedList_eq_nil.mp blank]
  rw [Store.refills, missed, found]
  rfl

lemma listed_blank (blank : s.cachedList = []) : s.listed true = s.durableList := by
  simp [Store.listed, blank]

/-- While there are service entries in Redis, their jobs are listed. -/
lemma listed_of_service (held : s.byService.lookup key = some reg) :
    (∃ reg ∈ s.listed durable, reg.jobId = job) ↔ s.byService.Has job := by
  have mem : (key, reg) ∈ s.byService.toList := Table.mem_toList.mpr held
  have some_ : s.byService.toList.isEmpty = false := by
    rw [List.isEmpty_eq_false_iff_exists_mem]
    exact ⟨_, mem⟩
  rw [Store.listed, Store.cachedList, some_]
  simp only [Bool.false_eq_true, if_false, some_]
  exact Table.mem_map_snd fun _ _ => Table.mem_toList

lemma durableList_eq (held : s.services.lookup key = some reg) :
    s.durableList = s.services.range.map Prod.snd := by
  have mem : (key, reg) ∈ s.services.range := Table.mem_range.mpr held
  have some_ : s.services.range.isEmpty = false := by
    rw [List.isEmpty_eq_false_iff_exists_mem]
    exact ⟨_, mem⟩
  rw [Store.durableList, some_]
  rfl

lemma durableList_of_service (held : s.services.lookup key = some reg) :
    (∃ reg ∈ s.durableList, reg.jobId = job) ↔ s.services.Has job := by
  rw [durableList_eq held]
  exact Table.mem_map_snd fun _ _ => Table.mem_range

end

/-! ## Without a durable store -/

section
variable {s t : Store} {h : List Call} {c : Call}

lemma exec_deregister_redisOnly (job : JobId) :
    (exec Store.handle (deregister false job) s).2 = { s with
      byService := Table.eraseAll (Table.keysOf job s.byService.toList) s.byService
      byJob := s.byJob.erase job.val } := by
  rw [deregister, exec_bind_ok (exec_get_redisOnly job)]
  simp only [Bool.false_eq_true, if_false]
  rw [exec_removeCachedRegistration]

lemma exec_listAll_redisOnly : (exec Store.handle (listAll false) s).2 = s := by
  rw [listAll, exec_bind_ok exec_cachedEntries]
  cases s.cachedList <;> rfl

/-- What is left of a covering table when one job has been erased from both. -/
lemma covers_without {job : JobId} {t jobs t' jobs' : Table} (covers : t.Covers jobs)
    (jobs_ : jobs' = jobs.erase job.val)
    (left_ : ∀ {key reg}, t'.lookup key = some reg ↔ t.lookup key = some reg ∧ reg.jobId ≠ job) :
    t'.Covers jobs' := by
  subst jobs_
  intro other mem
  obtain ⟨reg, held⟩ := Table.mem_ids.mp mem
  by_cases same : other = job
  · subst same
    simp [AList.lookup_erase] at held
  · have apart : other.val ≠ job.val := fun val => same (jobId_ext val)
    rw [AList.lookup_erase_ne apart] at held
    obtain ⟨key, r, entry, rfl⟩ := covers other (Table.mem_ids.mpr ⟨reg, held⟩)
    exact ⟨key, r, left_.mpr ⟨entry, same⟩, rfl⟩

/-- One call under the condition keeps the service hash covering. -/
lemma covers_next (covers : s.byService.Covers s.byJob) (keeps : KeepsListed false h s c)
    (here : c ≠ .lose) : (c.leaves false s).byService.Covers (c.leaves false s).byJob := by
  cases c with
  | register reg => exact Table.covers_insert.mpr fun job mem other => (keeps job mem other).1
  | deregister job =>
    rw [Call.leaves, exec_deregister_redisOnly]
    exact covers_without covers rfl (Table.lookup_eraseAll_keysOf fun _ _ => Table.mem_toList)
  | get lookup =>
    rw [Call.leaves, exec_get_redisOnly]
    exact covers
  | listAll =>
    rw [Call.leaves, exec_listAll_redisOnly]
    exact covers
  | syncFromDurable => exact covers
  | lose => exact absurd rfl here

lemma listsAll_of_covers {durable : Bool}
    (covers : s.byService.Covers (s.authoritative durable)) : ListsAll durable s := by
  rw [listsAll_iff]
  intro job mem
  obtain ⟨key, reg, held, of_⟩ := covers job mem
  exact (listed_of_service held).mpr ⟨key, reg, held, of_⟩

end

/-! ## In durable mode -/

/-- Etcd has a service entry for every job, and so has Redis unless it is empty. -/
structure Kept (s : Store) : Prop where
  jobKey : ∀ {key reg}, s.jobs.lookup key = some reg → reg.jobId.val = key
  serviceKey : ∀ {key reg}, s.services.lookup key = some reg → reg.serviceName.val = key
  cachedJob : ∀ {key reg}, s.byService.lookup key = some reg → s.byJob.lookup reg.jobId.val ≠ none
  durable : s.services.Covers s.jobs
  cached : s.cachedList = [] ∨ s.byService.Covers s.jobs

namespace Kept
variable {s t : Store} {reg : JobRegistration} {job : JobId} {h : List Call} {c : Call}

lemma listsAll (kept : Kept s) : ListsAll true s := by
  obtain blank | covers := kept.cached
  · rw [listsAll_iff, listed_blank blank]
    intro job mem
    obtain ⟨key, reg, held, of_⟩ := kept.durable job mem
    exact (durableList_of_service held).mpr ⟨key, reg, held, of_⟩
  · exact listsAll_of_covers covers

lemma empty : Kept .empty := by
  constructor
  all_goals simp [Store.empty, Table.Covers, Table.ids, Table.toList, cachedList_eq_nil]

lemma lost (kept : Kept s) : Kept s.lost :=
  ⟨kept.jobKey, kept.serviceKey, by simp [Store.lost], kept.durable, .inl rfl⟩

/-- Registrations that etcd has may be cached where the service hash then covers all jobs. -/
lemma cachedAll (kept : Kept s) (regs : List JobRegistration)
    (covers : (s.cachedAll regs).byService.Covers s.jobs) : Kept (s.cachedAll regs) := by
  refine ⟨?_, ?_, ?_, ?_, .inr ?_⟩
  · rw [Store.cachedAll_jobs]
    exact kept.jobKey
  · rw [Store.cachedAll_services]
    exact kept.serviceKey
  · intro key r held
    rw [Store.lookup_cachedAll_byService] at held
    rcases Option.or_eq_some_iff.mp held with last | ⟨-, old⟩
    · exact Store.lookup_cachedAll_listed (by simpa using List.mem_of_find?_eq_some last)
    · exact Store.lookup_cachedAll_ne_none (kept.cachedJob old)
  · rw [Store.cachedAll_jobs, Store.cachedAll_services]
    exact kept.durable
  · rwa [Store.cachedAll_jobs]

lemma registered (kept : Kept s) (beside : ∀ job ∈ s.jobs.ids, job ≠ reg.jobId →
    s.byService.Beside reg.serviceName job ∧ s.services.Beside reg.serviceName job) :
    Kept ((s.stored reg).cached reg) where
  jobKey := by
    intro key r held
    by_cases same : key = reg.jobId.val
    · subst same
      rw [Store.cached, Store.stored, Table.lookup_insert_self] at held
      exact congrArg (·.jobId.val) (Option.some.inj held).symm
    · simp only [Store.cached, Store.stored, Table.lookup_insert_other same] at held
      exact kept.jobKey held
  serviceKey := by
    intro key r held
    by_cases same : key = reg.serviceName.val
    · subst same
      rw [Store.cached, Store.stored, Table.lookup_insert_self] at held
      exact congrArg (·.serviceName.val) (Option.some.inj held).symm
    · simp only [Store.cached, Store.stored, Table.lookup_insert_other same] at held
      exact kept.serviceKey held
  cachedJob := by
    intro key r held
    by_cases same : key = reg.serviceName.val
    · subst same
      rw [Store.cached, Store.stored, Table.lookup_insert_self] at held
      cases held
      simp [Store.cached]
    · simp only [Store.cached, Store.stored, Table.lookup_insert_other same] at held
      exact Table.lookup_insert_ne_none (kept.cachedJob held)
  durable := Table.covers_insert.mpr fun job mem other => (beside job mem other).2
  cached := .inr (Table.covers_insert.mpr fun job mem other => (beside job mem other).1)

/-- What a lookup caches takes no service name: either Redis was empty, or etcd has the name
only as that of a service. -/
lemma refilled (kept : Kept s) (lookup : JobId) (alone : s.cachedList = [] →
    ∀ reg ∈ s.source lookup.val, ∀ job ∈ s.jobs.ids, job = reg.jobId) :
    Kept (s.cachedAll (s.refills lookup.val)) := by
  unfold Store.refills
  split
  next missed =>
    have absent : s.byJob.lookup lookup.val = none ∧ s.byService.lookup lookup.val = none :=
      Option.or_eq_none_iff.mp (Option.isNone_iff_eq_none.mp missed)
    cases found : s.source lookup.val with
    | none => exact kept
    | some reg =>
      apply kept.cachedAll [reg]
      intro job mem
      obtain blank | covers := kept.cached
      · obtain rfl := alone blank reg found job mem
        exact ⟨reg.serviceName.val, reg, Table.lookup_insert_self, rfl⟩
      · have noJob : s.jobs.lookup lookup.val = none := by
          by_contra held
          obtain ⟨r, held⟩ := Option.ne_none_iff_exists'.mp held
          obtain ⟨key, r', entry, rfl⟩ := covers lookup (Table.mem_ids.mpr ⟨r, held⟩)
          exact kept.cachedJob entry absent.1
        rw [Store.source, noJob, Option.none_or] at found
        obtain ⟨key, r, entry, rfl⟩ := covers job mem
        have other : key ≠ reg.serviceName.val := by
          rintro rfl
          rw [kept.serviceKey found] at entry
          exact absurd (absent.2.symm.trans entry) (by simp)
        exact ⟨key, r, (Table.lookup_insert_other other).trans entry, rfl⟩
  next => exact kept

/-- Nothing is left of the job in etcd, and what Redis has left is all or nothing. -/
lemma without (kept : Kept s) (jobs_ : t.jobs = s.jobs.erase job.val)
    (services : ∀ {key reg}, t.services.lookup key = some reg ↔
      s.services.lookup key = some reg ∧ reg.jobId ≠ job)
    (cachedJob : ∀ {key reg}, t.byService.lookup key = some reg →
      t.byJob.lookup reg.jobId.val ≠ none)
    (cached : t.cachedList = [] ∨ t.byService.Covers t.jobs) : Kept t where
  jobKey := by
    intro key r held
    have other : key ≠ job.val := by
      rintro rfl
      simp [jobs_, AList.lookup_erase] at held
    rw [jobs_, AList.lookup_erase_ne other] at held
    exact kept.jobKey held
  serviceKey held := kept.serviceKey (services.mp held).1
  cachedJob := cachedJob
  durable := covers_without kept.durable jobs_ services
  cached := cached

/-- Without the entries of the job, the job hash has the other jobs. -/
lemma cachedJob_without (kept : Kept s) (gone : s.Without job t) {key : String}
    (held : t.byService.lookup key = some reg) : t.byJob.lookup reg.jobId.val ≠ none := by
  obtain ⟨entry, other⟩ := gone.byService.mp held
  have apart : reg.jobId.val ≠ job.val := fun same => other (jobId_ext same)
  rw [gone.byJob, AList.lookup_erase_ne apart]
  exact kept.cachedJob entry

lemma deregistered (kept : Kept s) (gone : s.Without job t) : Kept t := by
  refine kept.without gone.jobs gone.services (kept.cachedJob_without gone) ?_
  obtain blank | covers := kept.cached
  · obtain ⟨noJobs, noServices⟩ := cachedList_eq_nil.mp blank
    refine .inl (cachedList_eq_nil.mpr ⟨fun key => ?_, fun key => ?_⟩)
    · rw [gone.byJob]
      by_cases same : key = job.val
      · rw [same, AList.lookup_erase]
      · rw [AList.lookup_erase_ne same, noJobs]
    · refine Option.eq_none_iff_forall_ne_some.mpr fun r held => ?_
      exact absurd ((noServices key).symm.trans (gone.byService.mp held).1) (by simp)
  · exact .inr (covers_without covers gone.jobs gone.byService)

/-- An empty cache that has been refilled with the job itself is empty again. -/
lemma deregistered_blank (kept : Kept s) (blank : s.cachedList = [])
    (gone : (s.cached reg).Without reg.jobId t) : Kept t := by
  obtain ⟨noJobs, noServices⟩ := cachedList_eq_nil.mp blank
  have noService (key : String) : t.byService.lookup key = none := by
    refine Option.eq_none_iff_forall_ne_some.mpr fun r held => ?_
    obtain ⟨entry, other⟩ := gone.byService.mp held
    by_cases same : key = reg.serviceName.val
    · rw [same, Store.cached, Table.lookup_insert_self] at entry
      exact other (congrArg JobRegistration.jobId (Option.some.inj entry).symm)
    · rw [Store.cached, Table.lookup_insert_other same, noServices] at entry
      cases entry
  have noJob (key : String) : t.byJob.lookup key = none := by
    rw [gone.byJob]
    by_cases same : key = reg.jobId.val
    · rw [same, AList.lookup_erase]
    · rw [AList.lookup_erase_ne same, Store.cached, Table.lookup_insert_other same, noJobs]
  refine kept.without gone.jobs gone.services ?_ (.inl (cachedList_eq_nil.mpr ⟨noJob, noService⟩))
  intro key r held
  exact absurd ((noService key).symm.trans held) (by simp)

/-- After what etcd lists has been cached, Redis has every service entry of etcd. -/
lemma covers_durableList (kept : Kept s) :
    (s.cachedAll s.durableList).byService.Covers s.jobs := by
  intro job mem
  obtain ⟨key, reg, held, rfl⟩ := kept.durable job mem
  refine ⟨key, reg, ?_, rfl⟩
  have listed : ∀ r ∈ s.durableList, r.serviceName.val = key → r = reg := by
    rintro r mem rfl
    rw [durableList_eq held] at mem
    obtain ⟨⟨name, r'⟩, listed, same⟩ := List.mem_map.mp mem
    obtain rfl : r' = r := same
    have entry := Table.mem_range.mp listed
    rw [kept.serviceKey entry] at held
    exact Option.some.inj (entry.symm.trans held)
  have mem : reg ∈ s.durableList := by
    rw [durableList_eq held]
    exact List.mem_map_of_mem (f := Prod.snd) (Table.mem_range.mpr held)
  rw [Store.lookup_cachedAll_byService]
  cases last : s.durableList.reverse.find? (fun r => r.serviceName.val = key) with
  | none =>
    have unlisted := List.find?_eq_none.mp last reg (List.mem_reverse.mpr mem)
    simp [kept.serviceKey held] at unlisted
  | some r =>
    have same : r.serviceName.val = key := by simpa using List.find?_some last
    rw [listed r (by simpa using List.mem_of_find?_eq_some last) same, Option.some_or]

/-- One call under the condition keeps the entries. -/
theorem next (kept : Kept s) (keeps : KeepsListed true h s c) : Kept (c.leaves true s) := by
  cases c with
  | register reg =>
    rw [Call.leaves, exec_register]
    exact kept.registered fun job mem other => (keeps job mem other).imp_right (· rfl)
  | get lookup =>
    simp only [Call.leaves, exec_get]
    exact kept.refilled lookup (keeps rfl)
  | deregister job =>
    obtain ⟨t, done, gone⟩ := exec_deregister s job
    simp only [Call.leaves, done]
    by_cases own : s.cachedList = [] ∧ ∃ reg ∈ s.source job.val, reg.jobId = job
    · obtain ⟨blank, reg, found, rfl⟩ := own
      rw [refills_of_blank blank found] at gone
      exact kept.deregistered_blank blank gone
    · apply Kept.deregistered (kept.refilled job ?_) gone
      intro blank reg found
      exact keeps rfl blank reg found fun same => own ⟨blank, reg, found, same⟩
  | listAll =>
    simp only [Call.leaves, exec_listAll]
    split_ifs
    · exact kept.cachedAll _ kept.covers_durableList
    · exact kept
  | syncFromDurable =>
    simp only [Call.leaves, exec_syncFromDurable]
    exact kept.cachedAll _ kept.covers_durableList
  | lose => exact kept.lost

end Kept

/-! ## Runs -/

section
variable {durable : Bool} {s t : Store} {h : List Call} {c : Call}

/-- What every run under the condition keeps. -/
def Listing (durable : Bool) (s : Store) : Prop :=
  if durable then Kept s else s.byService.Covers s.byJob

lemma listing_of_run (run : RunWhere (calls durable) (KeepsListed durable) h s) :
    Listing durable s := by
  refine run.state_invariant (Listing durable) ?_ fun h s t c listing taken keeps => ?_
  · cases durable with
    | true => exact Kept.empty
    | false => exact Kept.empty.durable
  · obtain ⟨here, rfl⟩ := System.guarded_step.mp taken
    cases durable with
    | true => exact Kept.next listing keeps
    | false => exact covers_next listing keeps (by simpa using here)

lemma Listing.listsAll (listing : Listing durable s) : ListsAll durable s := by
  cases durable with
  | true => exact Kept.listsAll listing
  | false => exact listsAll_of_covers listing

/-! The condition leaves out only what a listing misses, at once or after a loss of the cache. -/

lemma covers_of_listsAll {key : String} {reg : JobRegistration} (all : ListsAll durable t)
    (held : t.byService.lookup key = some reg) : t.byService.Covers (t.authoritative durable) :=
  fun job mem => (listed_of_service held).mp (listsAll_iff.mp all job mem)

lemma covers_of_lost {key : String} {reg : JobRegistration} (all : ListsAll true t.lost)
    (held : t.services.lookup key = some reg) : t.services.Covers t.jobs := by
  intro job mem
  have listed := listsAll_iff.mp all job mem
  rw [listed_blank rfl] at listed
  exact (durableList_of_service (s := t.lost) held).mp listed

/-- Beside a registration that is cached alone there is no other. -/
lemma eq_of_cached_blank {reg : JobRegistration} {job : JobId} (blank : s.cachedList = [])
    (has : (s.cached reg).byService.Has job) : job = reg.jobId := by
  by_contra other
  obtain ⟨key, r, held, -⟩ := Table.beside_iff.mp ((Table.has_insert other).mp has)
  exact absurd (((cachedList_eq_nil.mp blank).2 key).symm.trans held) (by simp)

lemma keepsListed_register {reg : JobRegistration}
    (all : ListsAll durable ((Call.register reg).leaves durable s))
    (lost : durable = true → ListsAll true ((Call.register reg).leaves durable s).lost) :
    KeepsListed durable h s (.register reg) := by
  have cached : ((Call.register reg).leaves durable s).byService.lookup reg.serviceName.val =
      some reg := by
    cases durable <;> exact Table.lookup_insert_self
  have covers := covers_of_listsAll all cached
  intro job mem other
  cases durable with
  | false => exact ⟨Table.covers_insert.mp covers job mem other, nofun⟩
  | true =>
    refine ⟨Table.covers_insert.mp covers job mem other, fun _ => ?_⟩
    have stored : ((Call.register reg).leaves true s).services.lookup reg.serviceName.val =
        some reg := Table.lookup_insert_self
    exact Table.covers_insert.mp (covers_of_lost (lost rfl) stored) job mem other

lemma keepsListed_get {lookup : JobId} (all : ListsAll durable ((Call.get lookup).leaves durable s)) :
    KeepsListed durable h s (.get lookup) := by
  rintro rfl blank reg found job mem
  simp only [Call.leaves, exec_get, refills_of_blank blank found] at all
  exact eq_of_cached_blank blank (covers_of_listsAll all Table.lookup_insert_self job mem)

lemma keepsListed_deregister {lookup : JobId} (kept : durable = true → Kept s)
    (all : ListsAll durable ((Call.deregister lookup).leaves durable s)) :
    KeepsListed durable h s (.deregister lookup) := by
  rintro rfl blank reg found other job mem
  obtain ⟨t, done, gone⟩ := exec_deregister s lookup
  simp only [Call.leaves, done] at all
  rw [refills_of_blank blank found] at gone
  have covers := covers_of_listsAll all (gone.byService.mpr ⟨Table.lookup_insert_self, other⟩)
  obtain ⟨r, held⟩ := Table.mem_ids.mp mem
  have apart : job.val ≠ lookup.val := by
    intro same
    rw [Option.mem_def, Store.source, ← same, held, Option.some_or] at found
    obtain rfl := Option.some.inj found
    exact other (jobId_ext (((kept rfl).jobKey held).trans same))
  have left_ : job ∈ t.jobs.ids :=
    Table.mem_ids.mpr ⟨r, by rw [gone.jobs, AList.lookup_erase_ne apart]; exact held⟩
  obtain ⟨key, r', entry, of_⟩ := covers job left_
  exact eq_of_cached_blank blank ⟨key, r', (gone.byService.mp entry).1, of_⟩

/-- After a run under the condition, the next call meets it if and only if a listing is complete
afterwards, also when the cache is lost. -/
theorem keepsListed_iff (run : RunWhere (calls durable) (KeepsListed durable) h s)
    (taken : (calls durable).step s c = some t) :
    KeepsListed durable h s c ↔ ListsAll durable t ∧ (durable = true → ListsAll true t.lost) := by
  constructor
  · intro keeps
    have listing := listing_of_run (.step run taken keeps)
    refine ⟨listing.listsAll, ?_⟩
    rintro rfl
    exact (Kept.lost listing).listsAll
  · rintro ⟨all, lost⟩
    obtain ⟨-, rfl⟩ := System.guarded_step.mp taken
    cases c with
    | register reg => exact keepsListed_register all lost
    | get lookup => exact keepsListed_get all
    | deregister lookup =>
      refine keepsListed_deregister ?_ all
      rintro rfl
      exact listing_of_run run
    | listAll | syncFromDurable | lose => trivial

end

/-- In every run under the condition a listing is complete. -/
theorem listAll_complete (durable : Bool) (h : List Call) (s : Store)
    (run : RunWhere (calls durable) (KeepsListed durable) h s) : ListsAll durable s :=
  (listing_of_run run).listsAll

def blogReg : JobRegistration := ⟨⟨"blog"⟩, ⟨"blog-web"⟩, "web"⟩

/-- After a loss the whole registry is listed first, and then looked up. -/
theorem listAll_after_loss : ∃ h s, RunWhere (calls true) (KeepsListed true) h s ∧
    s.jobs.ids = [⟨"shop"⟩, ⟨"blog"⟩] ∧ ListsAll true s := by
  obtain ⟨h, s, run, held⟩ := exists_run (T := calls true) (C := KeepsListed true)
    (fun _ s => s.jobs.ids = [⟨"shop"⟩, ⟨"blog"⟩])
    [.register webReg, .register blogReg, .lose, .listAll, .get ⟨"shop"⟩, .register apiReg]
    (by decide)
  exact ⟨h, s, run, held, listAll_complete true h s run⟩

/-- After a loss a lookup of one job makes the cache look complete. -/
theorem listAll_incomplete : ¬ ∀ durable h s, Run (calls durable) h s → ListsAll durable s := by
  intro all
  obtain ⟨h, s, run, listed, held⟩ := exists_run (T := calls true) (C := fun _ _ _ => True)
    (fun _ s => (∀ reg ∈ s.listed true, reg.jobId ≠ ⟨"blog"⟩) ∧ ⟨"blog"⟩ ∈ s.jobs.ids)
    [.register webReg, .register blogReg, .lose, .get ⟨"shop"⟩] (by decide)
  obtain ⟨reg, mem, of_⟩ := listsAll_iff.mp (all true h s run) ⟨"blog"⟩ held
  exact listed reg mem of_

end NScale.JobRegistry
