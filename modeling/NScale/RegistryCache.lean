import NScale.JobRegistry
import NScale.Transition

/-!
# The cache in front of the durable registry

Completed calls of the registry in durable mode, and losses of the whole Redis cache. The
cache is coherent when every entry agrees with etcd and no service entry hides a job that
etcd has under the same name; then a lookup refines a lookup in etcd.
-/
namespace NScale.JobRegistry
open Transition Program

namespace Table
variable {t : Table} {key other : String} {reg r : JobRegistration} {job : JobId}

@[simp] lemma lookup_insert_self : (t.insert key reg).lookup key = some reg :=
  AList.lookup_insert t

lemma lookup_insert_other (h : other ≠ key) : (t.insert key reg).lookup other = t.lookup other :=
  AList.lookup_insert_ne h

/-- Inserting never removes a key. -/
lemma lookup_insert_ne_none (h : t.lookup other ≠ none) : (t.insert key reg).lookup other ≠ none := by
  by_cases hk : other = key
  · simp [hk]
  · rwa [lookup_insert_other hk]

lemma mem_toList : (key, reg) ∈ t.toList ↔ t.lookup key = some reg := by
  rw [← Option.mem_def, AList.mem_lookup_iff, toList, List.mem_map]
  constructor
  · rintro ⟨e, he, hk⟩
    obtain ⟨rfl, rfl⟩ := Prod.mk.inj hk
    exact he
  · exact fun he => ⟨_, he, rfl⟩

lemma mem_range : (key, reg) ∈ t.range ↔ t.lookup key = some reg := by
  rw [range, List.mem_insertionSort, mem_toList]

def eraseAll (keys : List String) (t : Table) : Table := keys.foldl (fun t key => t.erase key) t

lemma lookup_eraseAll (keys : List String) (t : Table) (key : String) :
    (eraseAll keys t).lookup key = if key ∈ keys then none else t.lookup key := by
  induction keys generalizing t with
  | nil => simp [eraseAll]
  | cons k keys ih =>
    rw [eraseAll, List.foldl_cons, ← eraseAll, ih]
    by_cases hk : key = k
    · subst hk; simp [AList.lookup_erase]
    · simp [hk, AList.lookup_erase_ne hk]

/-- The keys under which a list of entries holds registrations of a job. -/
def keysOf (job : JobId) (entries : List (String × JobRegistration)) : List String :=
  (entries.filter fun e => e.2.jobId = job).map Prod.fst

lemma mem_keysOf {entries : List (String × JobRegistration)}
    (all : ∀ key reg, (key, reg) ∈ entries ↔ t.lookup key = some reg) :
    key ∈ keysOf job entries ↔ ∃ reg, t.lookup key = some reg ∧ reg.jobId = job := by
  simp [keysOf, all]

/-- Erasing those keys leaves the registrations of the other jobs. -/
lemma lookup_eraseAll_keysOf {entries : List (String × JobRegistration)}
    (all : ∀ key reg, (key, reg) ∈ entries ↔ t.lookup key = some reg) :
    (eraseAll (keysOf job entries) t).lookup key = some r ↔
      t.lookup key = some r ∧ r.jobId ≠ job := by
  rw [lookup_eraseAll]
  by_cases held : key ∈ keysOf job entries
  · obtain ⟨reg, hreg, hj⟩ := (mem_keysOf all).mp held
    simp only [held, if_true]
    constructor
    · simp
    · rintro ⟨hr, hne⟩
      obtain rfl : reg = r := Option.some.inj (hreg.symm.trans hr)
      exact absurd hj hne
  · simp only [held, if_false]
    exact ⟨fun hr => ⟨hr, fun hj => held ((mem_keysOf all).mpr ⟨r, hr, hj⟩)⟩, And.left⟩

end Table

namespace Store
variable (s : Store)

/-- What `cache_registration` leaves in Redis. -/
def cached (reg : JobRegistration) : Store :=
  { s with
      byJob := s.byJob.insert reg.jobId.val reg
      byService := s.byService.insert reg.serviceName.val reg }

/-- What `store_registration` leaves in etcd. -/
def stored (reg : JobRegistration) : Store :=
  { s with
      jobs := s.jobs.insert reg.jobId.val reg
      services := s.services.insert reg.serviceName.val reg }

/-- What Redis knows under a lookup string. -/
def found (lookup : String) : Option JobRegistration :=
  (s.byJob.lookup lookup).or (s.byService.lookup lookup)

/-- What the source of truth knows under a lookup string. -/
def source (lookup : String) : Option JobRegistration :=
  (s.jobs.lookup lookup).or (s.services.lookup lookup)

/-- What `list_all` of etcd returns. -/
def durableList : List JobRegistration :=
  if s.services.range.isEmpty then s.jobs.range.map Prod.snd else s.services.range.map Prod.snd

/-- Redis misses the lookup string, so that `get` caches what etcd has under it. -/
def refills (lookup : String) : List JobRegistration :=
  if (s.found lookup).isNone then (s.source lookup).toList else []

def cachedAll (regs : List JobRegistration) : Store := regs.foldl cached s

/-- What `list_all` finds in Redis. -/
def cachedList : List (String × JobRegistration) :=
  if s.byService.toList.isEmpty then s.byJob.toList else s.byService.toList

/-- Loss of the whole Redis cache. -/
def lost : Store := { s with byJob := ∅, byService := ∅ }

end Store

namespace Store
variable {s : Store} {regs : List JobRegistration} {reg : JobRegistration} {key : String}

lemma cachedAll_jobs : (s.cachedAll regs).jobs = s.jobs := by
  induction regs generalizing s with
  | nil => rfl
  | cons r regs ih => exact ih (s := s.cached r)

lemma cachedAll_services : (s.cachedAll regs).services = s.services := by
  induction regs generalizing s with
  | nil => rfl
  | cons r regs ih => exact ih (s := s.cached r)

/-- Of registrations cached in a row, the last one of a job stays under its id. -/
lemma lookup_cachedAll_byJob : (s.cachedAll regs).byJob.lookup key =
    (regs.reverse.find? fun r => r.jobId.val = key).or (s.byJob.lookup key) := by
  induction regs generalizing s with
  | nil => rfl
  | cons r regs ih =>
    have first : (s.cached r).byJob.lookup key =
        ([r].find? fun r => r.jobId.val = key).or (s.byJob.lookup key) := by
      by_cases hk : key = r.jobId.val
      · subst hk; simp [cached]
      · simp [cached, Table.lookup_insert_other hk, Ne.symm hk]
    rw [cachedAll, List.foldl_cons, ← cachedAll, ih, first, List.reverse_cons, List.find?_append,
      Option.or_assoc]

lemma lookup_cachedAll_byService : (s.cachedAll regs).byService.lookup key =
    (regs.reverse.find? fun r => r.serviceName.val = key).or (s.byService.lookup key) := by
  induction regs generalizing s with
  | nil => rfl
  | cons r regs ih =>
    have first : (s.cached r).byService.lookup key =
        ([r].find? fun r => r.serviceName.val = key).or (s.byService.lookup key) := by
      by_cases hk : key = r.serviceName.val
      · subst hk; simp [cached]
      · simp [cached, Table.lookup_insert_other hk, Ne.symm hk]
    rw [cachedAll, List.foldl_cons, ← cachedAll, ih, first, List.reverse_cons, List.find?_append,
      Option.or_assoc]

lemma lookup_cachedAll_ne_none (h : s.byJob.lookup key ≠ none) :
    (s.cachedAll regs).byJob.lookup key ≠ none := by
  rw [lookup_cachedAll_byJob]
  intro absent
  exact h (Option.or_eq_none_iff.mp absent).2

lemma lookup_cachedAll_listed (listed : reg ∈ regs) :
    (s.cachedAll regs).byJob.lookup reg.jobId.val ≠ none := by
  rw [lookup_cachedAll_byJob]
  intro absent
  have unlisted := List.find?_eq_none.mp (Option.or_eq_none_iff.mp absent).1 reg (by simpa using listed)
  simp at unlisted

end Store

/-! ## What the calls do when nothing fails -/

section Exec
variable {s t : Store} {job : JobId} {reg : JobRegistration}

lemma exec_hget (hash : Hash) (field : String) :
    exec Store.handle (perform (.hget hash field)) s = (.ok ((s.hash hash).lookup field), s) := rfl

lemma exec_hgetall (hash : Hash) :
    exec Store.handle (perform (.hgetall hash)) s = (.ok (s.hash hash).toList, s) := rfl

lemma exec_etcdGet (space : Space) (key : String) :
    exec Store.handle (perform (.etcdGet space key)) s = (.ok ((s.space space).lookup key), s) := rfl

lemma exec_etcdRange (space : Space) :
    exec Store.handle (perform (.etcdRange space)) s = (.ok (s.space space).range, s) := rfl

lemma exec_etcdTxn (ops : List TxnOp) :
    exec Store.handle (perform (.etcdTxn ops)) s = (.ok (), ops.foldl Store.txn s) := rfl

lemma exec_cacheRegistration : exec Store.handle (cacheRegistration reg) s = (.ok (), s.cached reg) :=
  rfl

lemma exec_cacheAll (regs : List JobRegistration) :
    exec Store.handle (cacheAll regs) s = (.ok (), s.cachedAll regs) := by
  induction regs generalizing s with
  | nil => rfl
  | cons reg regs ih =>
    rw [cacheAll, exec_bind_ok exec_cacheRegistration, ih]
    rfl

lemma exec_register : exec Store.handle (register true reg) s = (.ok (), (s.stored reg).cached reg) :=
  rfl

lemma exec_durableHit (lookup : JobId) :
    exec Store.handle (durableHit lookup) s = (.ok (s.source lookup.val), s) := by
  rw [durableHit, EtcdClient.getByJobId, exec_bind_ok (exec_etcdGet _ _), Store.source, Store.space]
  cases s.jobs.lookup lookup.val <;> rfl

lemma exec_readThrough (lookup : JobId) : exec Store.handle (readThrough true lookup) s =
    (.ok (s.source lookup.val), s.cachedAll (s.source lookup.val).toList) := by
  rw [readThrough, if_pos rfl, exec_bind_ok (exec_durableHit lookup)]
  cases s.source lookup.val <;> rfl

/-- A lookup finds what Redis knows, else what etcd knows, which it then caches. -/
lemma exec_get (lookup : JobId) : exec Store.handle (get true lookup) s =
    (.ok ((s.found lookup.val).or (s.source lookup.val)),
      s.cachedAll (s.refills lookup.val)) := by
  rw [get, exec_bind_ok (exec_hget _ _), Store.refills, Store.found, Store.hash]
  cases s.byJob.lookup lookup.val with
  | some reg => rfl
  | none =>
    dsimp only
    rw [exec_bind_ok (exec_hget _ _), Store.hash]
    cases s.byService.lookup lookup.val with
    | some reg => rfl
    | none => exact exec_readThrough lookup

/-- Without a durable store, a lookup finds what Redis knows. -/
lemma exec_get_redisOnly (lookup : JobId) :
    exec Store.handle (get false lookup) s = (.ok (s.found lookup.val), s) := by
  rw [get, exec_bind_ok (exec_hget _ _), Store.found, Store.hash]
  cases s.byJob.lookup lookup.val with
  | some reg => rfl
  | none =>
    dsimp only
    rw [exec_bind_ok (exec_hget _ _), Store.hash]
    cases s.byService.lookup lookup.val <;> rfl

lemma exec_durableList : exec Store.handle EtcdClient.listAll s = (.ok s.durableList, s) := by
  rw [EtcdClient.listAll, exec_bind_ok (exec_etcdRange _), Store.durableList, Store.space]
  cases s.services.range with
  | nil => rfl
  | cons e entries => rfl

lemma exec_syncFromDurable : exec Store.handle (syncFromDurable true) s =
    (.ok s.durableList.length, s.cachedAll s.durableList) := by
  rw [syncFromDurable, if_pos rfl, exec_bind_ok exec_durableList, exec_bind_ok (exec_cacheAll _)]
  rfl

lemma exec_cachedEntries : exec Store.handle cachedEntries s = (.ok s.cachedList, s) := by
  rw [cachedEntries, exec_bind_ok (exec_hgetall _), Store.cachedList, Store.hash]
  cases s.byService.toList <;> rfl

/-- A list of an empty cache fills it with what etcd lists. -/
lemma exec_listAll : (exec Store.handle (listAll true) s).2 =
    if s.cachedList.isEmpty then s.cachedAll s.durableList else s := by
  rw [listAll, exec_bind_ok exec_cachedEntries]
  cases s.cachedList with
  | cons e entries => rfl
  | nil =>
    simp only [List.isEmpty_nil, if_true]
    rw [exec_bind_ok exec_durableList, exec_bind_ok (exec_cacheAll _), exec_pure]

/-- The loop over a list of service entries erases those of the job. -/
lemma exec_removeServices (entries : List (String × JobRegistration)) :
    exec Store.handle (removeServices job entries) s =
      (.ok (), { s with byService := Table.eraseAll (Table.keysOf job entries) s.byService }) := by
  induction entries generalizing s with
  | nil => rfl
  | cons e entries ih =>
    rw [removeServices]
    by_cases hj : e.2.jobId = job
    · rw [if_pos hj, exec_bind_ok (t := s.setHash .byService (s.byService.erase e.1)) rfl, ih]
      simp [Table.keysOf, Table.eraseAll, Store.setHash, hj]
    · rw [if_neg hj]
      refine (ih (s := s)).trans ?_
      simp [Table.keysOf, hj]

/-- What `deregister` leaves behind: nothing of the job, and all of the others. -/
structure Store.Without (s : Store) (job : JobId) (t : Store) : Prop where
  byJob : t.byJob = s.byJob.erase job.val
  jobs : t.jobs = s.jobs.erase job.val
  byService : ∀ {key reg}, t.byService.lookup key = some reg ↔
    s.byService.lookup key = some reg ∧ reg.jobId ≠ job
  services : ∀ {key reg}, t.services.lookup key = some reg ↔
    s.services.lookup key = some reg ∧ reg.jobId ≠ job

lemma foldl_delete_services (keys : List String) :
    (keys.map (TxnOp.delete .services)).foldl Store.txn s =
      { s with services := Table.eraseAll keys s.services } := by
  induction keys generalizing s with
  | nil => rfl
  | cons key keys ih =>
    rw [List.map_cons, List.foldl_cons, ih]
    rfl

lemma exec_removeRegistration : exec Store.handle (EtcdClient.removeRegistration job) s =
    (.ok (), { s with
      services := Table.eraseAll (Table.keysOf job s.services.range) s.services
      jobs := s.jobs.erase job.val }) := by
  have keys : exec Store.handle (EtcdClient.serviceKeysForJob job) s =
      (.ok (Table.keysOf job s.services.range), s) := rfl
  rw [EtcdClient.removeRegistration, exec_bind_ok keys]
  refine (exec_etcdTxn _).trans ?_
  rw [List.foldl_append, foldl_delete_services]
  rfl

lemma exec_removeCachedRegistration : exec Store.handle (removeCachedRegistration job) s =
    (.ok (), { s with
      byService := Table.eraseAll (Table.keysOf job s.byService.toList) s.byService
      byJob := s.byJob.erase job.val }) := by
  rw [removeCachedRegistration, exec_bind_ok (exec_hgetall _), exec_bind_ok (exec_removeServices _)]
  rfl

lemma exec_deregister (s : Store) (job : JobId) :
    ∃ t, exec Store.handle (deregister true job) s = (.ok (), t) ∧
      (s.cachedAll (s.refills job.val)).Without job t := by
  rw [deregister, exec_bind_ok (exec_get job), if_pos rfl, exec_bind_ok exec_removeRegistration,
    exec_tryCatch_ok exec_removeCachedRegistration]
  refine ⟨_, rfl, rfl, rfl, ?_, ?_⟩
  · exact Table.lookup_eraseAll_keysOf fun _ _ => Table.mem_toList
  · exact Table.lookup_eraseAll_keysOf fun _ _ => Table.mem_range

end Exec

/-! ## Runs of calls -/

/-- A completed call, or a loss of the Redis cache. -/
inductive Call
  | register (reg : JobRegistration)
  | deregister (job : JobId)
  | get (lookup : JobId)
  | listAll
  | syncFromDurable
  | lose
  deriving DecidableEq, Repr

def Call.next (s : Store) : Call → Store
  | .register reg => (exec Store.handle (JobRegistry.register true reg) s).2
  | .deregister job => (exec Store.handle (JobRegistry.deregister true job) s).2
  | .get lookup => (exec Store.handle (JobRegistry.get true lookup) s).2
  | .listAll => (exec Store.handle (JobRegistry.listAll true) s).2
  | .syncFromDurable => (exec Store.handle (JobRegistry.syncFromDurable true) s).2
  | .lose => s.lost

/-- Completed, non-failing calls one after the other, in durable mode. -/
def system : System Store Call := .guarded .empty (fun _ _ => true) Call.next

/-- The registrations that a call copies from etcd to Redis. -/
def Call.fills (s : Store) : Call → List JobRegistration
  | .get lookup | .deregister lookup => s.refills lookup.val
  | .listAll => if s.cachedList.isEmpty then s.durableList else []
  | .syncFromDurable => s.durableList
  | .register _ | .lose => []

namespace Store
variable (s : Store) (reg : JobRegistration)

/-- Caching the registration under its service name hides no job of that name. -/
def HidesNone : Prop :=
  reg.serviceName.val = reg.jobId.val ∨ s.jobs.lookup reg.serviceName.val = none ∨
    s.byJob.lookup reg.serviceName.val ≠ none

/-- The registrations are current in etcd when they are cached in this order, and each of them
ends up beside an entry for the job, if there is one, that has the name of its service. -/
def MayCache (regs : List JobRegistration) : Prop :=
  ∀ reg ∈ regs, s.services.lookup reg.serviceName.val = some reg ∧
    s.jobs.lookup reg.jobId.val = regs.reverse.find? (fun r => r.jobId.val = reg.jobId.val) ∧
    (s.cachedAll regs).HidesNone reg

instance : Decidable (s.HidesNone reg) := inferInstanceAs (Decidable (_ ∨ _ ∨ _))

instance (regs : List JobRegistration) : Decidable (s.MayCache regs) :=
  inferInstanceAs (Decidable (∀ reg ∈ regs, _ ∧ _ ∧ _))

end Store

/-- What a call copies from etcd is current there, and whatever is cached hides no job. -/
def FillsCurrent : Condition Store Call := fun _ s c =>
  s.MayCache (c.fills s) ∧
    match c with
    | .register reg => s.HidesNone reg
    | _ => True

instance (h : List Call) (s : Store) (c : Call) : Decidable (FillsCurrent h s c) := by
  unfold FillsCurrent; cases c <;> infer_instance

/-- Redis agrees with etcd, and a service entry hides no job that is only in etcd. -/
structure Coherent (s : Store) : Prop where
  byJob : ∀ {key reg}, s.byJob.lookup key = some reg → s.jobs.lookup key = some reg
  byService : ∀ {key reg}, s.byService.lookup key = some reg → s.services.lookup key = some reg
  visible : ∀ {key reg}, s.byService.lookup key = some reg →
    s.jobs.lookup key = some reg ∨ s.jobs.lookup key = none ∨ s.byJob.lookup key ≠ none

namespace Coherent
variable {s t : Store} {reg : JobRegistration} {job : JobId}

lemma empty : Coherent .empty := by
  constructor <;> intro key reg h <;> exact absurd h (by simp [Store.empty])

/-- A lookup in a coherent cache answers as etcd does. -/
theorem found_or_source (ok : Coherent s) (lookup : String) :
    (s.found lookup).or (s.source lookup) = s.source lookup := by
  cases hj : s.byJob.lookup lookup with
  | some reg => simp [Store.found, Store.source, hj, ok.byJob hj]
  | none =>
    cases hs : s.byService.lookup lookup with
    | none => simp [Store.found, hj, hs]
    | some reg =>
      rcases ok.visible hs with same | absent | cached
      · simp [Store.found, Store.source, hj, hs, same]
      · simp [Store.found, Store.source, hj, hs, absent, ok.byService hs]
      · exact absurd hj cached

lemma lost : Coherent s.lost := by
  constructor <;> intro key reg h <;> exact absurd h (by simp [Store.lost])

/-- Registrations that are current in etcd and hide no job may be cached. -/
lemma cachedAll (ok : Coherent s) {regs : List JobRegistration} (may : s.MayCache regs) :
    Coherent (s.cachedAll regs) where
  byJob := by
    intro key r hr
    rw [Store.lookup_cachedAll_byJob] at hr
    rw [Store.cachedAll_jobs]
    rcases Option.or_eq_some_iff.mp hr with last | ⟨-, old⟩
    · obtain rfl : r.jobId.val = key := by simpa using List.find?_some last
      have listed : r ∈ regs := by simpa using List.mem_of_find?_eq_some last
      exact (may r listed).2.1.trans last
    · exact ok.byJob old
  byService := by
    intro key r hr
    rw [Store.lookup_cachedAll_byService] at hr
    rw [Store.cachedAll_services]
    rcases Option.or_eq_some_iff.mp hr with last | ⟨-, old⟩
    · obtain rfl : r.serviceName.val = key := by simpa using List.find?_some last
      exact (may r (by simpa using List.mem_of_find?_eq_some last)).1
    · exact ok.byService old
  visible := by
    intro key r hr
    rw [Store.lookup_cachedAll_byService] at hr
    rcases Option.or_eq_some_iff.mp hr with last | ⟨-, old⟩
    · obtain rfl : r.serviceName.val = key := by simpa using List.find?_some last
      have listed : r ∈ regs := by simpa using List.mem_of_find?_eq_some last
      rcases (may r listed).2.2 with same | absent | cached
      · exact .inr (.inr (same ▸ Store.lookup_cachedAll_listed listed))
      · exact .inr (.inl absent)
      · exact .inr (.inr cached)
    · rw [Store.cachedAll_jobs]
      exact (ok.visible old).imp_right fun h => h.imp_right Store.lookup_cachedAll_ne_none

/-- A registration is written to etcd and to Redis under the same keys. -/
lemma registered (ok : Coherent s) (shows : s.HidesNone reg) :
    Coherent ((s.stored reg).cached reg) where
  byJob := by
    intro key r hr
    by_cases hk : key = reg.jobId.val
    · subst hk
      simpa [Store.stored, Store.cached] using hr
    · simp only [Store.stored, Store.cached, Table.lookup_insert_other hk] at hr ⊢
      exact ok.byJob hr
  byService := by
    intro key r hr
    by_cases hk : key = reg.serviceName.val
    · subst hk
      simpa [Store.stored, Store.cached] using hr
    · simp only [Store.stored, Store.cached, Table.lookup_insert_other hk] at hr ⊢
      exact ok.byService hr
  visible := by
    intro key r hr
    by_cases hj : key = reg.jobId.val
    · exact .inr (.inr (by simp [Store.stored, Store.cached, hj]))
    simp only [Store.stored, Store.cached, Table.lookup_insert_other hj] at hr ⊢
    by_cases hk : key = reg.serviceName.val
    · rcases shows with same | absent | cached
      · exact absurd (hk.trans same) hj
      · exact .inr (.inl (hk ▸ absent))
      · exact .inr (.inr (hk ▸ cached))
    · rw [Table.lookup_insert_other hk] at hr
      exact ok.visible hr

lemma without (ok : Coherent s) (gone : s.Without job t) : Coherent t where
  byJob := by
    intro key r hr
    rw [gone.byJob] at hr
    have hk : key ≠ job.val := by rintro rfl; simp [AList.lookup_erase] at hr
    rw [AList.lookup_erase_ne hk] at hr
    rw [gone.jobs, AList.lookup_erase_ne hk]
    exact ok.byJob hr
  byService := by
    intro key r hr
    obtain ⟨held, other⟩ := gone.byService.mp hr
    exact gone.services.mpr ⟨ok.byService held, other⟩
  visible := by
    intro key r hr
    obtain ⟨held, -⟩ := gone.byService.mp hr
    rw [gone.jobs, gone.byJob]
    by_cases hk : key = job.val
    · subst hk
      exact .inr (.inl (AList.lookup_erase _ _))
    · rw [AList.lookup_erase_ne hk, AList.lookup_erase_ne hk]
      exact ok.visible held

/-- One call under the condition keeps the cache coherent. -/
theorem next {h : List Call} {c : Call} (ok : Coherent s) (cond : FillsCurrent h s c) :
    Coherent (c.next s) := by
  obtain ⟨fills, shows⟩ := cond
  cases c with
  | register reg => exact ok.registered shows
  | get lookup =>
    simp only [Call.next, exec_get]
    exact ok.cachedAll fills
  | deregister job =>
    obtain ⟨t, done, gone⟩ := exec_deregister s job
    simp only [Call.next, done]
    exact (ok.cachedAll fills).without gone
  | listAll =>
    simp only [Call.next, exec_listAll]
    split_ifs with empty
    · exact ok.cachedAll (by simpa only [Call.fills, empty, if_true] using fills)
    · exact ok
  | syncFromDurable =>
    simp only [Call.next, exec_syncFromDurable]
    exact ok.cachedAll fills
  | lose => exact .lost

end Coherent

lemma coherent_of_run {h : List Call} {s : Store} (run : RunWhere system FillsCurrent h s) :
    Coherent s := by
  refine run.state_invariant Coherent .empty fun h s t c ok taken cond => ?_
  obtain ⟨-, rfl⟩ := System.guarded_step.mp taken
  exact ok.next cond

/-- In durable mode a lookup answers what etcd holds under the lookup string. -/
theorem get_refines_source (h : List Call) (s : Store) (lookup : JobId)
    (run : RunWhere system FillsCurrent h s) :
    (exec Store.handle (get true lookup) s).1 = .ok (s.source lookup.val) := by
  rw [exec_get, (coherent_of_run run).found_or_source]

def webReg : JobRegistration := ⟨⟨"shop"⟩, ⟨"shop-web"⟩, "web"⟩

def apiReg : JobRegistration := ⟨⟨"shop"⟩, ⟨"shop-api"⟩, "api"⟩

/-- A job with one service comes back from etcd after the loss of the cache. -/
theorem get_after_loss : ∃ h s, RunWhere system FillsCurrent h s ∧
    s.source "shop-web" = some webReg ∧
    (exec Store.handle (get true ⟨"shop-web"⟩) s).1 = .ok (s.source "shop-web") := by
  obtain ⟨h, s, run, held⟩ := exists_run (T := system) (C := FillsCurrent)
    (fun _ s => s.source "shop-web" = some webReg)
    [.register webReg, .lose, .get ⟨"shop"⟩, .get ⟨"shop-web"⟩] (by decide)
  exact ⟨h, s, run, held, get_refines_source h s ⟨"shop-web"⟩ run⟩

/-- Of a job with two services, etcd keeps the second under the job id; a lookup by the name
of the first after the loss of the cache puts the first there in Redis. -/
theorem get_differs : ¬ ∀ h s lookup, Run system h s →
    (exec Store.handle (get true lookup) s).1 = .ok (s.source lookup.val) := by
  intro all
  obtain ⟨h, s, run, answered, held⟩ := exists_run (T := system) (C := fun _ _ _ => True)
    (fun _ s => (exec Store.handle (get true ⟨"shop"⟩) s).1 = .ok (some webReg) ∧
      s.source "shop" = some apiReg)
    [.register webReg, .register apiReg, .lose, .get ⟨"shop-web"⟩] (by decide)
  have same := answered.symm.trans (all h s ⟨"shop"⟩ run)
  rw [held] at same
  exact absurd same (by decide)

end NScale.JobRegistry
