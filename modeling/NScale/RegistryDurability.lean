import NScale.ProgramLift
import NScale.RegistryFailures
import NScale.RegistryRemoval

/-!
# What etcd has confirmed

A registration whose write etcd has confirmed is found from then on, whatever fails and however
often the cache is lost, for as long as nobody deregisters its job and no other registration claims
its service name.
-/
namespace NScale.RegistryFailures
open Transition Program JobRegistry

/-- No other registration has the service name of `own`. -/
def Claimed (own reg : JobRegistration) : Prop := reg.serviceName = own.serviceName → reg = own

variable {own : JobRegistration}

/-! ## Calls that leave the registration alone -/

/-- What the operations of a call are answered. -/
def Told (own : JobRegistration) : (op : StoreOp) → op.Value → Prop
  | .hget .., found | .etcdGet .., found => ∀ reg, found = some reg → Claimed own reg
  | .hgetall _, entries => ∀ e ∈ entries, Claimed own e.2
  | .etcdRange space, entries => ∀ e ∈ entries, Claimed own e.2 ∧
      (space = .services → e.1 = e.2.serviceName.val)
  | .hset .., _ | .hdel .., _ | .etcdTxn _, _ => True

def SparesKey (own : JobRegistration) : TxnOp → Prop
  | .put _ _ reg => Claimed own reg
  | .delete .jobs key => key ≠ own.jobId.val
  | .delete .services key => key ≠ own.serviceName.val

/-- The operation puts nothing in the place of `own`, and deletes none of its keys in etcd. -/
def SparesOp (own : JobRegistration) : StoreOp → Prop
  | .hset _ _ reg => Claimed own reg
  | .etcdTxn ops => ∀ o ∈ ops, SparesKey own o
  | _ => True

def spareMonitor (own : JobRegistration) : Monitor StoreOps Unit where
  requires _ op := SparesOp own op
  assumes _ op result := ∀ v, result = .ok v → Told own op v
  next _ _ _ := ()

/-- The call spares `own`, and what it returns has the property. -/
abbrev Spares {α : Type} (own : JobRegistration) (x : Action α) (post : α → Prop) : Prop :=
  Program.Meets (spareMonitor own) (fun result _ => ∀ a, result = .ok a → post a) x.run ()

section Calls
variable {α β : Type} {post : α → Prop} {post' : β → Prop} {reg : JobRegistration} {job lookup : JobId}

lemma Spares.bind {x : Action α} {f : α → Action β} (first : Spares own x post)
    (rest : ∀ a, post a → Spares own (f a) post') : Spares own (x >>= f) post' :=
  .bind_run first (fun a _ holds => rest a (holds a rfl)) fun e _ _ b same => by cases same

lemma Spares.pure {a : α} (holds : post a) : Spares own (Pure.pure a) post := by
  intro b same
  cases same
  exact holds

lemma spares_perform (op : StoreOp) (spares : SparesOp own op) :
    Spares own (JobRegistry.perform op) (Told own op) := ⟨spares, fun _ told v same => told v same⟩

lemma spares_uses {x : Action α} (uses : Program.Uses (SparesOp own) x.run) :
    Spares own x fun _ => True :=
  (Program.Meets.of_uses (fun _ => True) uses (fun _ _ spares _ => ⟨spares, fun _ _ => trivial⟩)
    trivial).mono fun _ _ _ _ _ => trivial

lemma cacheRegistration_spares (claimed : Claimed own reg) :
    Spares own (cacheRegistration reg) fun _ => True :=
  spares_uses (.bind_run (perform_uses claimed) fun _ => perform_uses claimed)

lemma storeRegistration_spares (claimed : Claimed own reg) :
    Spares own (EtcdClient.storeRegistration reg) fun _ => True := by
  refine spares_uses (perform_uses fun o mem => ?_)
  rcases List.mem_pair.mp mem with rfl | rfl <;> exact claimed

lemma register_spares (claimed : Claimed own reg) : Spares own (register true reg) fun _ => True :=
  (storeRegistration_spares claimed).bind fun _ _ => cacheRegistration_spares claimed

abbrev FindsClaimed (own : JobRegistration) (found : Option JobRegistration) : Prop :=
  ∀ reg, found = some reg → Claimed own reg

lemma durableHit_spares (lookup : JobId) : Spares own (durableHit lookup) (FindsClaimed own) := by
  refine (spares_perform (.etcdGet .jobs lookup.val) trivial).bind fun hit told => ?_
  cases hit with
  | some reg => exact .pure told
  | none => exact spares_perform _ trivial

lemma readThrough_spares (lookup : JobId) : Spares own (readThrough true lookup) (FindsClaimed own) := by
  refine (durableHit_spares lookup).bind fun hit told => ?_
  cases hit with
  | some reg => exact (cacheRegistration_spares (told reg rfl)).bind fun _ _ => .pure told
  | none => exact .pure told

lemma get_spares (lookup : JobId) : Spares own (get true lookup) (FindsClaimed own) := by
  refine (spares_perform (.hget .byJob lookup.val) trivial).bind fun hit told => ?_
  cases hit with
  | some reg => exact .pure told
  | none =>
    refine (spares_perform (.hget .byService lookup.val) trivial).bind fun hit told => ?_
    cases hit with
    | some reg => exact .pure told
    | none => exact readThrough_spares lookup

lemma cacheAll_spares {regs : List JobRegistration} (claimed : ∀ reg ∈ regs, Claimed own reg) :
    Spares own (cacheAll regs) fun _ => True := by
  induction regs with
  | nil => exact .pure trivial
  | cons reg regs ih =>
    refine (cacheRegistration_spares (claimed reg List.mem_cons_self)).bind fun _ _ => ?_
    exact ih fun r mem => claimed r (List.mem_cons_of_mem _ mem)

lemma durableList_spares : Spares own EtcdClient.listAll fun regs => ∀ reg ∈ regs, Claimed own reg := by
  have all {space : Space} {entries : List (String × JobRegistration)}
      (told : Told own (.etcdRange space) entries) :
      ∀ reg ∈ entries.map Prod.snd, Claimed own reg := by
    intro reg mem
    obtain ⟨e, listed, rfl⟩ := List.mem_map.mp mem
    exact (told e listed).1
  refine (spares_perform (.etcdRange .services) trivial).bind fun services told => ?_
  split
  · exact .pure (all told)
  · exact (spares_perform (.etcdRange .jobs) trivial).bind fun jobs told => .pure (all told)

lemma syncFromDurable_spares : Spares own (syncFromDurable true) fun _ => True :=
  durableList_spares.bind fun _ claimed => (cacheAll_spares claimed).bind fun _ _ => .pure trivial

lemma cachedEntries_spares : Spares own cachedEntries fun _ => True := by
  refine (spares_perform (.hgetall .byService) trivial).bind fun entries _ => ?_
  split
  · exact spares_uses (perform_uses trivial)
  · exact .pure trivial

lemma listAll_spares : Spares own (listAll true) fun _ => True := by
  refine cachedEntries_spares.bind fun entries _ => ?_
  split
  · exact durableList_spares.bind fun _ claimed => (cacheAll_spares claimed).bind fun _ _ => .pure trivial
  · exact .pure trivial

/-- The service keys of another job are other keys. -/
lemma removeRegistration_spares (other : job ≠ own.jobId) :
    Spares own (EtcdClient.removeRegistration job) fun _ => True := by
  have keys : Spares own (EtcdClient.serviceKeysForJob job) fun keys =>
      ∀ key ∈ keys, key ≠ own.serviceName.val := by
    refine (spares_perform (.etcdRange .services) trivial).bind fun entries told => .pure ?_
    rintro key mem rfl
    obtain ⟨e, listed, same⟩ := List.mem_map.mp mem
    obtain ⟨listed, whose⟩ := List.mem_filter.mp listed
    obtain ⟨claimed, key⟩ := told e listed
    have name : e.2.serviceName = own.serviceName :=
      congrArg ServiceName.mk ((key rfl).symm.trans same)
    rw [claimed name] at whose
    exact other (of_decide_eq_true whose).symm
  refine keys.bind fun keys apart => spares_uses (perform_uses fun o mem => ?_)
  rcases List.mem_append.mp mem with service | job
  · obtain ⟨key, listed, rfl⟩ := List.mem_map.mp service
    exact apart key listed
  · obtain rfl := List.mem_singleton.mp job
    exact fun same => other (jobId_eq same)

lemma removeCachedRegistration_spares (job : JobId) :
    Spares own (removeCachedRegistration job) fun _ => True := by
  refine spares_uses ((removeCachedRegistration_evicts job).mono fun op evicts => ?_)
  cases op with
  | hgetall | hdel => trivial
  | _ => cases evicts

lemma restore_spares {existing : Option JobRegistration} (claimed : FindsClaimed own existing) :
    Spares own (restore existing) fun _ => True := by
  cases existing with
  | none => exact .pure trivial
  | some reg =>
    refine .tryCatch_run (storeRegistration_spares (claimed reg rfl)) ?_ ?_
    · exact fun _ _ _ _ _ => trivial
    · exact fun _ _ _ _ _ => trivial

lemma deregister_spares (other : job ≠ own.jobId) : Spares own (deregister true job) fun _ => True := by
  refine (get_spares job).bind fun existing claimed => ?_
  refine (removeRegistration_spares other).bind fun _ _ => ?_
  refine .tryCatch_run (removeCachedRegistration_spares job) ?_ ?_
  · intro err _ _
    refine (restore_spares claimed).bind fun _ _ => ?_
    intro _ same
    cases same
  · exact fun _ _ _ _ _ => trivial

end Calls

/-! ## The registration in the store -/

structure Undisputed (own : JobRegistration) (s : Store) : Prop where
  byJob : ∀ {key reg}, s.byJob.lookup key = some reg → Claimed own reg
  byService : ∀ {key reg}, s.byService.lookup key = some reg → Claimed own reg
  jobs : ∀ {key reg}, s.jobs.lookup key = some reg → Claimed own reg
  services : ∀ {key reg}, s.services.lookup key = some reg → Claimed own reg

namespace Undisputed
variable {s : Store}

lemma lost (undisputed : Undisputed own s) : Undisputed own s.lost where
  byJob h := absurd h (by simp [Store.lost])
  byService h := absurd h (by simp [Store.lost])
  jobs := undisputed.jobs
  services := undisputed.services

lemma txn (undisputed : Undisputed own s) {o : TxnOp} (spares : SparesKey own o) :
    Undisputed own (s.txn o) := by
  cases o with
  | put space key reg =>
    cases space with
    | jobs => exact { undisputed with jobs := Table.all_insert (fun _ _ => undisputed.jobs) spares _ _ }
    | services =>
      exact { undisputed with services := Table.all_insert (fun _ _ => undisputed.services) spares _ _ }
  | delete space key =>
    cases space with
    | jobs => exact { undisputed with jobs := Table.all_erase (fun _ _ => undisputed.jobs) _ _ }
    | services =>
      exact { undisputed with services := Table.all_erase (fun _ _ => undisputed.services) _ _ }

lemma answer (undisputed : Undisputed own s) {op : StoreOp} (spares : SparesOp own op) :
    Undisputed own (s.answer op).2 := by
  cases op with
  | hset hash field reg =>
    cases hash with
    | byJob => exact { undisputed with byJob := Table.all_insert (fun _ _ => undisputed.byJob) spares _ _ }
    | byService =>
      exact { undisputed with byService := Table.all_insert (fun _ _ => undisputed.byService) spares _ _ }
  | hdel hash field =>
    cases hash with
    | byJob => exact { undisputed with byJob := Table.all_erase (fun _ _ => undisputed.byJob) _ _ }
    | byService =>
      exact { undisputed with byService := Table.all_erase (fun _ _ => undisputed.byService) _ _ }
  | etcdTxn ops =>
    change Undisputed own (ops.foldl Store.txn s)
    induction ops generalizing s with
    | nil => exact undisputed
    | cons o ops ih =>
      exact ih (undisputed.txn (spares o List.mem_cons_self)) fun o' mem =>
        spares o' (List.mem_cons_of_mem _ mem)
  | _ => exact undisputed

/-- What the store answers. -/
lemma told (undisputed : Undisputed own s) (placed : s.Placed) (op : StoreOp) :
    Told own op (s.answer op).1 := by
  cases op with
  | hget hash field =>
    intro reg held
    cases hash with
    | byJob => exact undisputed.byJob held
    | byService => exact undisputed.byService held
  | etcdGet space key =>
    intro reg held
    cases space with
    | jobs => exact undisputed.jobs held
    | services => exact undisputed.services held
  | hgetall hash =>
    rintro ⟨key, reg⟩ mem
    cases hash with
    | byJob => exact undisputed.byJob (Table.mem_toList.mp mem)
    | byService => exact undisputed.byService (Table.mem_toList.mp mem)
  | etcdRange space =>
    rintro ⟨key, reg⟩ mem
    cases space with
    | jobs => exact ⟨undisputed.jobs (Table.mem_range.mp mem), fun same => by cases same⟩
    | services =>
      have held := Table.mem_range.mp mem
      exact ⟨undisputed.services held, fun _ => placed.services held⟩
  | _ => trivial

end Undisputed

/-- The registration stands in etcd, and its job id too. -/
structure Stored (own : JobRegistration) (s : Store) : Prop where
  service : s.services.lookup own.serviceName.val = some own
  job : ∃ reg, s.jobs.lookup own.jobId.val = some reg ∧ reg.jobId = own.jobId

namespace Stored
variable {s : Store}

lemma txn (stored : Stored own s) {o : TxnOp} (placed : o.Placed) (spares : SparesKey own o) :
    Stored own (s.txn o) := by
  obtain ⟨service, held, job, whose⟩ := stored
  cases o with
  | put space key reg =>
    cases space with
    | jobs =>
      obtain rfl : key = reg.jobId.val := placed
      refine ⟨service, ?_⟩
      by_cases same : own.jobId.val = reg.jobId.val
      · refine ⟨reg, ?_, (jobId_eq same).symm⟩
        rw [same]
        exact Table.lookup_insert_self
      · exact ⟨held, (Table.lookup_insert_other same).trans job, whose⟩
    | services =>
      obtain rfl : key = reg.serviceName.val := placed
      refine ⟨?_, held, job, whose⟩
      by_cases same : own.serviceName.val = reg.serviceName.val
      · obtain rfl : reg = own := spares (congrArg ServiceName.mk same.symm)
        exact Table.lookup_insert_self
      · exact (Table.lookup_insert_other same).trans service
  | delete space key =>
    cases space with
    | jobs => exact ⟨service, held, (AList.lookup_erase_ne spares.symm).trans job, whose⟩
    | services => exact ⟨(AList.lookup_erase_ne spares.symm).trans service, held, job, whose⟩

lemma answer (stored : Stored own s) {op : StoreOp} (placed : op.Placed) (spares : SparesOp own op) :
    Stored own (s.answer op).2 := by
  cases op with
  | etcdTxn ops =>
    change Stored own (ops.foldl Store.txn s)
    induction ops generalizing s with
    | nil => exact stored
    | cons o ops ih =>
      refine ih (stored.txn (placed o List.mem_cons_self) (spares o List.mem_cons_self)) ?_ ?_
      · exact fun o' mem => placed o' (List.mem_cons_of_mem _ mem)
      · exact fun o' mem => spares o' (List.mem_cons_of_mem _ mem)
  | hset hash | hdel hash => cases hash <;> exact ⟨stored.service, stored.job⟩
  | _ => exact stored

/-- The transaction of `store_registration`. -/
lemma of_storeRegistration (s : Store) : Stored own (s.stored own) :=
  ⟨Table.lookup_insert_self, own, Table.lookup_insert_self, rfl⟩

/-- A lookup that succeeds finds the registration under its service name, unless a job has that name
for its id. -/
lemma found {t : Store} {answer : Option JobRegistration} (stored : Stored own s)
    (undisputed : Undisputed own s) (placed : s.Placed)
    (got : Returns (get true ⟨own.serviceName.val⟩) s (.ok answer) t) :
    ∃ reg, answer = some reg ∧ (reg = own ∨ reg.jobId.val = own.serviceName.val) := by
  have answered := (exec_get_answers true ⟨own.serviceName.val⟩).symm.trans (exec_of_get got)
  have answered : s.answers true ⟨own.serviceName.val⟩ = answer := Except.ok.inj (Prod.mk.inj answered).1
  simp only [Store.answers, if_true, Store.found, Store.source] at answered
  rw [← answered]
  cases byJob : s.byJob.lookup own.serviceName.val with
  | some reg => exact ⟨reg, by simp, .inr (placed.byJob byJob).symm⟩
  | none =>
    cases byService : s.byService.lookup own.serviceName.val with
    | some reg =>
      have name : reg.serviceName = own.serviceName := congrArg ServiceName.mk (placed.byService byService).symm
      exact ⟨reg, by simp, .inl (undisputed.byService byService name)⟩
    | none =>
      cases jobs : s.jobs.lookup own.serviceName.val with
      | some reg => exact ⟨reg, by simp, .inr (placed.jobs jobs).symm⟩
      | none => exact ⟨own, by simp [stored.service], .inl rfl⟩

end Stored

/-! ## Runs -/

/-- The call neither claims the service name for another registration nor deregisters the job. -/
def Request.Spares (own : JobRegistration) : Request → Prop
  | .register reg => Claimed own reg
  | .deregister job => job ≠ own.jobId
  | .get _ | .listAll | .syncFromDurable => True

def Undisturbed (own : JobRegistration) : Condition State Event := fun _ _ e =>
  match e with
  | .begin request => request.Spares own
  | _ => True

/-- etcd has confirmed the write of the registration, by a call that registers it or another. -/
def Confirmed (own : JobRegistration) (h : List Event) : Prop :=
  ∃ i applied, .op i (.etcdTxn [.put .jobs own.jobId.val own, .put .services own.serviceName.val own])
    (.ok ()) applied ∈ h

lemma code_spares (request : Request) (spares : request.Spares own) :
    (request.code true).Meets (spareMonitor own) (fun _ _ => True) () := by
  have ends {α : Type} {x : Action α} {post : α → Prop} (ok : NScale.RegistryFailures.Spares own x post) :
      (RegistryReplicas.run x).Meets (spareMonitor own) (fun _ _ => True) () :=
    Program.Meets.bind ok fun _ _ _ => trivial
  cases request with
  | register reg => exact ends (register_spares spares)
  | deregister job => exact ends (deregister_spares spares)
  | get lookup => exact ends (get_spares lookup)
  | listAll => exact ends listAll_spares
  | syncFromDurable => exact ends syncFromDurable_spares

/-- No call is under way. -/
def State.AtRest (s : State) : Prop := ∀ i call, s.calls i = some call → call = .pure ()

structure Safe (own : JobRegistration) (h : List Event) (s : State) : Prop where
  orderly : s.Orderly
  undisputed : Undisputed own s.store
  calls : ∀ {i call}, s.calls i = some call → call.Meets (spareMonitor own) (fun _ _ => True) ()
  stored : Confirmed own h → Stored own s.store

lemma Confirmed.of_cons {h : List Event} {e : Event} (confirmed : Confirmed own (e :: h)) :
    Confirmed own h ∨ ∃ i applied,
      e = .op i (.etcdTxn [.put .jobs own.jobId.val own, .put .services own.serviceName.val own])
        (.ok ()) applied := by
  obtain ⟨i, applied, mem⟩ := confirmed
  rcases List.mem_cons.mp mem with same | old
  · exact .inr ⟨i, applied, same.symm⟩
  · exact .inl ⟨i, applied, old⟩

/-- What an operation leaves, whatever its answer is. -/
lemma respond_cases {s t : Store} {op : StoreOp} {result : Result op.Value} {applied : Bool}
    (responded : respond s op result applied = some t) :
    (t = s ∨ t = (s.answer op).2) ∧ ∀ v, result = .ok v → v = (s.answer op).1 ∧ t = (s.answer op).2 := by
  cases result with
  | ok v =>
    simp only [respond] at responded
    split at responded
    next same =>
      obtain rfl := Option.some.inj responded
      exact ⟨.inr rfl, fun w eq => by cases eq; exact ⟨same, rfl⟩⟩
    next => cases responded
  | error e =>
    obtain rfl := Option.some.inj responded
    refine ⟨?_, fun v same => by cases same⟩
    cases applied
    · exact .inl rfl
    · exact .inr rfl

/-- What one step preserves. -/
lemma Safe.next {h : List Event} {s t : State} {e : Event} (safe : Safe own h s)
    (taken : step true s e = some t) (spares : Undisturbed own h s e) : Safe own (e :: h) t := by
  have orderly := safe.orderly.next taken
  cases e with
  | begin request =>
    obtain rfl := Option.some.inj taken
    refine ⟨orderly, safe.undisputed, fun {i call} at_ => ?_, fun confirmed => ?_⟩
    · by_cases hi : i = s.nextCall
      · subst hi
        obtain rfl : request.code true = call := by simpa using at_
        exact code_spares request spares
      · exact safe.calls (by simpa [hi] using at_)
    · rcases confirmed.of_cons with old | ⟨i, applied, new⟩
      · exact safe.stored old
      · cases new
  | op i op result applied =>
    obtain ⟨call, at_, taken⟩ := Option.bind_eq_some_iff.mp taken
    obtain ⟨rest, answered, taken⟩ := Option.bind_eq_some_iff.mp taken
    obtain ⟨store, responded, taken⟩ := Option.bind_eq_some_iff.mp taken
    obtain rfl := Option.some.inj taken
    obtain ⟨left_, ok⟩ := respond_cases responded
    obtain ⟨required, goes⟩ := (safe.calls at_).answered answered
    have placed : op.Placed := by
      obtain ⟨next, performs, -⟩ := answered?_eq_some.mp answered
      have uses := safe.orderly.calls at_
      rw [performs] at uses
      exact uses.1
    have told : (spareMonitor own).assumes () op result := by
      rintro v same
      rw [(ok v same).1]
      exact safe.undisputed.told safe.orderly.store op
    refine ⟨orderly, ?_, fun {k call} at_' => ?_, fun confirmed => ?_⟩
    · rcases left_ with rfl | rfl
      · exact safe.undisputed
      · exact safe.undisputed.answer required
    · by_cases hk : k = i
      · subst hk
        obtain rfl : rest = call := by simpa using at_'
        exact goes told
      · exact safe.calls (by simpa [hk] using at_')
    · rcases confirmed.of_cons with old | ⟨i', applied', new⟩
      · rcases left_ with rfl | rfl
        · exact safe.stored old
        · exact (safe.stored old).answer placed required
      · cases new
        obtain rfl := (ok () rfl).2
        exact .of_storeRegistration s.store
  | lose =>
    obtain rfl := Option.some.inj taken
    refine ⟨orderly, safe.undisputed.lost, safe.calls, fun confirmed => ?_⟩
    rcases confirmed.of_cons with old | ⟨i, applied, new⟩
    · exact ⟨(safe.stored old).service, (safe.stored old).job⟩
    · cases new

lemma orderly_of_run {C : Condition State Event} {h : List Event} {s : State}
    (run : RunWhere (system true) C h s) : s.Orderly := by
  refine run.state_invariant State.Orderly ⟨.empty, fun at_ => ?_⟩ ?_
  · simp [system] at at_
  · exact fun h s t e ok taken _ => ok.next taken

/-- A registration that etcd has confirmed stays in etcd, and every lookup of its service name finds
it, whatever fails meanwhile. -/
theorem confirmed_stays (own : JobRegistration) (h₀ h : List Event) (s₀ s : State)
    (before : Run (system true) h₀ s₀) (rest : s₀.AtRest) (undisputed : Undisputed own s₀.store)
    (run : RunFrom (system true) (Undisturbed own) [] s₀ h s) (confirmed : Confirmed own h) :
    Stored own s.store ∧ ∀ answer t,
      Returns (get true ⟨own.serviceName.val⟩) s.store (.ok answer) t →
        ∃ reg, answer = some reg ∧ (reg = own ∨ reg.jobId.val = own.serviceName.val) := by
  have begins : Safe own [] s₀ := by
    refine ⟨orderly_of_run before, undisputed, fun {i call} at_ => ?_, fun none_ => ?_⟩
    · rw [rest i call at_]
      trivial
    · obtain ⟨i, applied, mem⟩ := none_
      cases mem
  have safe : Safe own h s := run.invariant (fun h s => Safe own h s) begins
    fun h s t e _ safe taken spares => safe.next taken spares
  have stored := safe.stored confirmed
  exact ⟨stored, fun answer t got => stored.found safe.undisputed safe.orderly.store got⟩

/-! ## A lost cache -/

instance (own reg : JobRegistration) : Decidable (Claimed own reg) :=
  inferInstanceAs (Decidable (reg.serviceName = own.serviceName → reg = own))

instance (own : JobRegistration) (h : List Event) (s : State) (e : Event) :
    Decidable (Undisturbed own h s e) :=
  match e with
  | .begin (.register reg) => inferInstanceAs (Decidable (Claimed own reg))
  | .begin (.deregister job) => inferInstanceAs (Decidable (job ≠ own.jobId))
  | .begin (.get _) | .begin .listAll | .begin .syncFromDurable => isTrue trivial
  | .op .. | .lose => isTrue trivial

/-- Whether the event confirms the write. -/
def Event.confirms (own : JobRegistration) : Event → Bool
  | .op _ (.etcdTxn ops) (.ok _) _ =>
    ops = [.put .jobs own.jobId.val own, .put .services own.serviceName.val own]
  | _ => false

lemma confirmed_of_confirms {own : JobRegistration} {h : List Event}
    (confirms : h.any (Event.confirms own) = true) : Confirmed own h := by
  obtain ⟨e, mem, confirms⟩ := List.any_eq_true.mp confirms
  unfold Event.confirms at confirms
  split at confirms
  · obtain rfl := of_decide_eq_true confirms
    exact ⟨_, _, mem⟩
  · cases confirms

/-- The cache is not written, and what there is of it is lost while another job goes. -/
def cacheLost : List Event :=
  [.begin (.register webReg),
    .op 0 (.etcdTxn [.put .jobs webReg.jobId.val webReg, .put .services webReg.serviceName.val webReg])
      (.ok ()) true,
    .begin (.deregister ⟨"blog"⟩), .op 1 (.hget .byJob "blog") (.ok none) true,
    .op 0 (.hset .byJob webReg.jobId.val webReg) (.error (.store "timeout")) true, .lose,
    .op 1 (.hget .byService "blog") (.ok none) true, .op 1 (.etcdGet .jobs "blog") (.ok none) true,
    .op 1 (.etcdGet .services "blog") (.ok none) true,
    .op 1 (.etcdRange .services) (.ok [(webReg.serviceName.val, webReg)]) true,
    .op 1 (.etcdTxn [.delete .jobs "blog"]) (.error (.store "timeout")) true]

theorem webReg_stays : ∃ s : State, s.store.byJob.lookup "shop" = none ∧ Stored webReg s.store ∧
    ∀ answer t, Returns (get true ⟨webReg.serviceName.val⟩) s.store (.ok answer) t →
      ∃ reg, answer = some reg ∧ (reg = webReg ∨ reg.jobId.val = webReg.serviceName.val) := by
  obtain ⟨h, s, run, confirms, lost⟩ := exists_run (T := system true) (C := Undisturbed webReg)
    (fun h s => h.any (Event.confirms webReg) = true ∧ s.store.byJob.lookup "shop" = none)
    cacheLost (by decide +kernel)
  have rest : (system true).start.AtRest := fun i call at_ => by cases at_
  have empty : Undisputed webReg (system true).start.store := by
    constructor <;> intro key reg held <;> cases held
  exact ⟨s, lost, confirmed_stays webReg [] h _ s .nil rest empty run (confirmed_of_confirms confirms)⟩

end NScale.RegistryFailures
