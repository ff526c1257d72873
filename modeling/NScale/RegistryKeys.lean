import NScale.RegistryCache

/-!
# Registrations under their own keys

The calls of the registry write a registration under its own job id and its own service name,
and only `deregister` deletes entries.
-/
namespace NScale.JobRegistry

lemma jobId_eq {a b : JobId} (same : a.val = b.val) : a = b := congrArg JobId.mk same

/-- Registrations are written under their own job id and their own service name. -/
def TxnOp.Placed : TxnOp → Prop
  | .put .jobs key reg => key = reg.jobId.val
  | .put .services key reg => key = reg.serviceName.val
  | .delete .. => True

def StoreOp.Placed : StoreOp → Prop
  | .hset .byJob field reg => field = reg.jobId.val
  | .hset .byService field reg => field = reg.serviceName.val
  | .etcdTxn ops => ∀ o ∈ ops, o.Placed
  | _ => True

/-- The operations that delete something. -/
def StoreOp.deletes : StoreOp → Bool
  | .hdel .. => true
  | .etcdTxn ops => ops.any fun
    | .delete .. => true
    | .put .. => false
  | _ => false

/-- The commands that remove cached entries. -/
def StoreOp.evicts : StoreOp → Bool
  | .hgetall _ | .hdel .. => true
  | _ => false

structure Store.Placed (s : Store) : Prop where
  byJob : ∀ {key reg}, s.byJob.lookup key = some reg → key = reg.jobId.val
  byService : ∀ {key reg}, s.byService.lookup key = some reg → key = reg.serviceName.val
  jobs : ∀ {key reg}, s.jobs.lookup key = some reg → key = reg.jobId.val
  services : ∀ {key reg}, s.services.lookup key = some reg → key = reg.serviceName.val

namespace Table
variable {t : Table} {P : String → JobRegistration → Prop} {key : String} {reg : JobRegistration}

lemma all_insert (all : ∀ k r, t.lookup k = some r → P k r) (new : P key reg) :
    ∀ k r, (t.insert key reg).lookup k = some r → P k r := by
  intro k r hr
  by_cases hk : k = key
  · subst hk
    obtain rfl : reg = r := by simpa using hr
    exact new
  · exact all k r (by rwa [lookup_insert_other hk] at hr)

lemma all_erase (all : ∀ k r, t.lookup k = some r → P k r) :
    ∀ k r, (t.erase key).lookup k = some r → P k r := by
  intro k r hr
  by_cases hk : k = key
  · subst hk
    simp [AList.lookup_erase] at hr
  · exact all k r (by rwa [AList.lookup_erase_ne hk] at hr)

end Table

namespace Store.Placed
variable {s : Store}

lemma empty : Placed .empty := by
  constructor <;> intro key reg h <;> exact absurd h (by simp [Store.empty])

lemma lost (ok : s.Placed) : s.lost.Placed where
  byJob h := absurd h (by simp [Store.lost])
  byService h := absurd h (by simp [Store.lost])
  jobs := ok.jobs
  services := ok.services

lemma txn (ok : s.Placed) {o : TxnOp} (placed : o.Placed) : (s.txn o).Placed := by
  cases o with
  | put space key reg =>
    cases space with
    | jobs => exact { ok with jobs := Table.all_insert (fun _ _ => ok.jobs) placed _ _ }
    | services => exact { ok with services := Table.all_insert (fun _ _ => ok.services) placed _ _ }
  | delete space key =>
    cases space with
    | jobs => exact { ok with jobs := Table.all_erase (fun _ _ => ok.jobs) _ _ }
    | services => exact { ok with services := Table.all_erase (fun _ _ => ok.services) _ _ }

/-- The operation keeps every entry under its own key. -/
lemma answer (ok : s.Placed) {op : StoreOp} (placed : op.Placed) : (s.answer op).2.Placed := by
  cases op with
  | hset hash field reg =>
    cases hash with
    | byJob => exact { ok with byJob := Table.all_insert (fun _ _ => ok.byJob) placed _ _ }
    | byService =>
      exact { ok with byService := Table.all_insert (fun _ _ => ok.byService) placed _ _ }
  | hdel hash field =>
    cases hash with
    | byJob => exact { ok with byJob := Table.all_erase (fun _ _ => ok.byJob) _ _ }
    | byService => exact { ok with byService := Table.all_erase (fun _ _ => ok.byService) _ _ }
  | etcdTxn ops =>
    change (ops.foldl Store.txn s).Placed
    induction ops generalizing s with
    | nil => exact ok
    | cons o ops ih =>
      exact ih (ok.txn (placed o List.mem_cons_self)) fun o' mem => placed o' (List.mem_cons_of_mem _ mem)
  | _ => exact ok

end Store.Placed

/-! ## What the calls perform -/

/-- The operations of calls that look up and register. -/
structure StoreOp.Adds (op : StoreOp) : Prop where
  placed : op.Placed
  keeps : op.deletes = false
  stays : op.evicts = false

variable {allowed : StoreOp → Prop} {durable : Bool}

lemma perform_uses {op : StoreOp} (permitted : allowed op) :
    Program.Uses allowed (perform op).run := ⟨permitted, fun _ => trivial⟩

lemma cacheRegistration_adds (reg : JobRegistration) :
    Program.Uses StoreOp.Adds (cacheRegistration reg).run :=
  .bind_run (perform_uses ⟨rfl, rfl, rfl⟩) fun _ => perform_uses ⟨rfl, rfl, rfl⟩

lemma storeRegistration_adds (reg : JobRegistration) :
    Program.Uses StoreOp.Adds (EtcdClient.storeRegistration reg).run :=
  perform_uses ⟨by simp [StoreOp.Placed, TxnOp.Placed], rfl, rfl⟩

lemma register_adds (reg : JobRegistration) :
    Program.Uses StoreOp.Adds (register durable reg).run := by
  cases durable with
  | false => exact cacheRegistration_adds reg
  | true => exact .bind_run (storeRegistration_adds reg) fun _ => cacheRegistration_adds reg

lemma perform_reads {op : StoreOp} (placed : op.Placed) (keeps : op.deletes = false)
    (stays : op.evicts = false) : Program.Uses StoreOp.Adds (perform op).run :=
  perform_uses ⟨placed, keeps, stays⟩

lemma durableHit_adds (lookup : JobId) : Program.Uses StoreOp.Adds (durableHit lookup).run := by
  apply Program.Uses.bind_run (perform_reads (by trivial) rfl rfl)
  intro hit
  cases hit with
  | some reg => trivial
  | none => exact perform_reads (by trivial) rfl rfl

lemma readThrough_adds (lookup : JobId) :
    Program.Uses StoreOp.Adds (readThrough durable lookup).run := by
  cases durable with
  | false => trivial
  | true =>
    apply Program.Uses.bind_run (durableHit_adds lookup)
    intro hit
    cases hit with
    | none => trivial
    | some reg => exact .bind_run (cacheRegistration_adds reg) fun _ => trivial

lemma get_adds (lookup : JobId) : Program.Uses StoreOp.Adds (get durable lookup).run := by
  apply Program.Uses.bind_run (perform_reads (by trivial) rfl rfl)
  intro hit
  cases hit with
  | some reg => trivial
  | none =>
    apply Program.Uses.bind_run (perform_reads (by trivial) rfl rfl)
    intro hit
    cases hit with
    | some reg => trivial
    | none => exact readThrough_adds lookup

lemma cacheAll_placed (regs : List JobRegistration) :
    Program.Uses StoreOp.Placed (cacheAll regs).run := by
  induction regs with
  | nil => trivial
  | cons reg regs ih =>
    exact .bind_run ((cacheRegistration_adds reg).mono fun _ adds => adds.placed) fun _ => ih

lemma durableList_placed : Program.Uses StoreOp.Placed EtcdClient.listAll.run := by
  apply Program.Uses.bind_run (perform_uses (by trivial))
  intro services
  cases services with
  | nil => exact .bind_run (perform_uses (by trivial)) fun _ => trivial
  | cons e services => trivial

lemma syncFromDurable_placed : Program.Uses StoreOp.Placed (syncFromDurable durable).run := by
  cases durable with
  | false => trivial
  | true =>
    exact .bind_run durableList_placed fun regs => .bind_run (cacheAll_placed regs) fun _ => trivial

lemma cachedEntries_placed : Program.Uses StoreOp.Placed cachedEntries.run := by
  apply Program.Uses.bind_run (perform_uses (by trivial))
  intro entries
  cases entries with
  | nil => exact perform_uses (by trivial)
  | cons e entries => trivial

lemma listAll_placed : Program.Uses StoreOp.Placed (listAll durable).run := by
  apply Program.Uses.bind_run cachedEntries_placed
  intro entries
  cases entries with
  | cons e entries => trivial
  | nil =>
    cases durable with
    | false => trivial
    | true =>
      exact .bind_run durableList_placed fun regs => .bind_run (cacheAll_placed regs) fun _ => trivial

/-- The removal from etcd evicts nothing. -/
lemma removeRegistration_uses (job : JobId) : Program.Uses
    (fun op : StoreOp => op.Placed ∧ op.evicts = false) (EtcdClient.removeRegistration job).run := by
  apply Program.Uses.bind_run
  · exact .bind_run (perform_uses ⟨by trivial, rfl⟩) fun _ => trivial
  · intro keys
    refine perform_uses ⟨fun o mem => ?_, rfl⟩
    rcases List.mem_append.mp mem with service | job
    · obtain ⟨key, -, rfl⟩ := List.mem_map.mp service
      trivial
    · obtain rfl := List.mem_singleton.mp job
      trivial

lemma removeServices_evicts (job : JobId) (entries : List (String × JobRegistration)) :
    Program.Uses (fun op : StoreOp => op.evicts = true) (removeServices job entries).run := by
  induction entries with
  | nil => trivial
  | cons e entries ih =>
    rw [removeServices]
    by_cases own : e.2.jobId = job
    · rw [if_pos own]
      exact .bind_run (perform_uses rfl) fun _ => ih
    · rw [if_neg own]
      exact ih

lemma removeCachedRegistration_evicts (job : JobId) :
    Program.Uses (fun op : StoreOp => op.evicts = true) (removeCachedRegistration job).run :=
  .bind_run (perform_uses rfl) fun entries => .bind_run (removeServices_evicts job entries)
    fun _ => perform_uses rfl

lemma restore_adds (existing : Option JobRegistration) :
    Program.Uses StoreOp.Adds (restore existing).run := by
  cases existing with
  | none => trivial
  | some reg => exact .tryCatch_run (storeRegistration_adds reg) fun _ => trivial

lemma StoreOp.placed_of_evicts {op : StoreOp} (evicts : op.evicts = true) : op.Placed := by
  cases op with
  | hgetall | hdel => trivial
  | _ => cases evicts

lemma deregister_placed (job : JobId) :
    Program.Uses StoreOp.Placed (deregister durable job).run := by
  have cached := (removeCachedRegistration_evicts job).mono fun _ => StoreOp.placed_of_evicts
  apply Program.Uses.bind_run ((get_adds job).mono fun _ adds => adds.placed)
  intro existing
  cases durable with
  | false => exact cached
  | true =>
    exact .bind_run ((removeRegistration_uses job).mono fun _ => And.left) fun _ =>
      .tryCatch_run cached fun _ =>
        .bind_run ((restore_adds existing).mono fun _ adds => adds.placed) fun _ => trivial

end NScale.JobRegistry
