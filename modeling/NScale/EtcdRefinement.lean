import NScale.EtcdClient
import NScale.RegistryReplicas

/-!
# Several deployments on one etcd

The clients of any number of deployments run side by side on one etcd. As long as no prefix lies
inside of a space of another deployment, they do what they would do on tables of their own.
-/
namespace NScale.Etcd
open JobRegistry RegistrationText

variable {δ ι α β : Type}

/-- The requests of the deployments, each for tables of its own. -/
abbrev DeployedOps (δ : Type) : Signature := ⟨δ × StoreOp, fun op => Result op.2.Value⟩

def RespondsIn [DecidableEq δ] (op : δ × StoreOp) (stores : δ → Store) (result : Result op.2.Value)
    (stores' : δ → Store) : Prop :=
  ∃ store, RegistryFailures.Responds op.2 (stores op.1) result store ∧
    stores' = Function.update stores op.1 store

/-- Code of the deployment. -/
def deployed (d : δ) (x : Action α) : Program (DeployedOps δ) (Result α) :=
  x.run.lift (fun op => (d, op)) fun _ result => result

/-- The tables of the deployments lie in etcd, with whatever else is kept there. -/
structure Laid (codec : Decoder) (prefixes : δ → KeyPrefix) (foreign : String → Option String)
    (stores : δ → Store) (t : Kv) : Prop where
  entries : ∀ d space name, (t.lookup ((prefixes d).key space name)).map codec.decode =
    (((stores d).space space).lookup name).map .ok
  others : ∀ key, (∀ d space, within ((prefixes d).dir space) key = false) → t.lookup key = foreign key

/-- Each deployment has a prefix of its own, outside of the spaces of the others. -/
def Apart (prefixes : δ → KeyPrefix) : Prop :=
  ∀ d d', d ≠ d' → prefixes d ≠ prefixes d' ∧ ¬ (prefixes d).Contains (prefixes d')

variable {codec : Decoder} {prefixes : δ → KeyPrefix} {foreign : String → Option String}
  {stores : δ → Store} {t t' : Kv} {d d' : δ} {p : KeyPrefix} {space space' : Space}
  {name name' : String}

/-! ## Keys -/

lemma key_inj_own (same : p.key space name = p.key space' name') : space = space' ∧ name = name' := by
  have texts := congrArg String.toList same
  cases space <;> cases space' <;>
    simp [KeyPrefix.key, KeyPrefix.dir, Space.dir, String.toList_inj] at texts <;> simp [texts]

lemma Apart.key_inj (apart : Apart prefixes)
    (same : (prefixes d).key space name = (prefixes d').key space' name') :
    d = d' ∧ space = space' ∧ name = name' := by
  by_cases own : d = d'
  · subst own
    exact ⟨rfl, key_inj_own same⟩
  · have sees : (prefixes d).Sees (prefixes d') := ⟨space, space', name', within_iff.mpr ⟨name, same⟩⟩
    rcases (sees_iff (apart d d' own).1).mp (.inl sees) with contains | contains
    · exact absurd contains (apart d d' own).2
    · exact absurd contains (apart d' d (Ne.symm own)).2

lemma key_within (p : KeyPrefix) (space : Space) (name : String) :
    within (p.dir space) (p.key space name) = true := within_iff.mpr ⟨name, rfl⟩

namespace Laid

/-- The entries of a space. -/
lemma range (laid : Laid codec prefixes foreign stores t) (d : δ) (space : Space) :
    (t.range (within ((prefixes d).dir space))).map (fun e => (e.1, codec.decode e.2)) =
      ((stores d).space space).range.map fun e => ((prefixes d).key space e.1, .ok e.2) := by
  have all : ((stores d).space space).range = KeyValue.range ((stores d).space space) fun _ => true := by
    rw [KeyValue.range, List.filter_true]
    rfl
  rw [all]
  exact KeyValue.range_map (key_strictMono (prefixes d) space)
    (fun key => within_iff) (laid.entries d space)

variable [DecidableEq δ]

/-- One key is written, and the entry that it stands for. -/
lemma write (laid : Laid codec prefixes foreign stores t) (apart : Apart prefixes) {s : Store}
    {text : Option String} {reg : Option JobRegistration} (space : Space) (name : String)
    (low : ∀ key, t'.lookup key = if key = (prefixes d).key space name then text else t.lookup key)
    (up : ∀ space' name', (s.space space').lookup name' =
      if space' = space ∧ name' = name then reg else ((stores d).space space').lookup name')
    (same : text.map codec.decode = reg.map .ok) :
    Laid codec prefixes foreign (Function.update stores d s) t' where
  entries := by
    intro d' space' name'
    rw [low]
    by_cases here : (prefixes d').key space' name' = (prefixes d).key space name
    · obtain ⟨rfl, rfl, rfl⟩ := apart.key_inj here
      rw [if_pos here, Function.update_self, up, if_pos ⟨rfl, rfl⟩, same]
    · rw [if_neg here]
      by_cases own : d' = d
      · subst own
        have other : ¬ (space' = space ∧ name' = name) := by
          rintro ⟨rfl, rfl⟩
          exact here rfl
        rw [Function.update_self, up, if_neg other, laid.entries]
      · rw [Function.update_of_ne own, laid.entries]
  others := by
    intro key outside
    have other : key ≠ (prefixes d).key space name := by
      rintro rfl
      exact absurd (key_within (prefixes d) space name) (by simp [outside d space])
    rw [low, if_neg other, laid.others key outside]

end Laid

/-- An operation of a transaction on keys, and the one on tables that it stands for. -/
inductive Means (p : KeyPrefix) : TxnOp → KvTxnOp → Prop
  | put (space : Space) (name : String) (reg : JobRegistration) :
    Means p (.put space name reg) (.put (p.key space name) (encodeRegistration reg))
  | delete (space : Space) (name : String) : Means p (.delete space name) (.delete (p.key space name))

lemma lookup_put (s : Store) (space space' : Space) (name name' : String) (reg : JobRegistration) :
    ((s.txn (.put space name reg)).space space').lookup name' =
      if space' = space ∧ name' = name then some reg else (s.space space').lookup name' := by
  simp only [Store.txn, RegistryReplicas.space_setSpace]
  by_cases here : space = space'
  · subst here
    by_cases own : name' = name
    · subst own
      simp
    · simp [own, AList.lookup_insert_ne]
  · simp [here, Ne.symm here]

lemma lookup_delete (s : Store) (space space' : Space) (name name' : String) :
    ((s.txn (.delete space name)).space space').lookup name' =
      if space' = space ∧ name' = name then none else (s.space space').lookup name' := by
  simp only [Store.txn, RegistryReplicas.space_setSpace]
  by_cases here : space = space'
  · subst here
    by_cases own : name' = name
    · subst own
      simp [AList.lookup_erase]
    · simp [own, AList.lookup_erase_ne]
  · simp [here, Ne.symm here]

namespace Laid

variable [DecidableEq δ]

lemma txnOp (laid : Laid codec prefixes foreign stores t) (apart : Apart prefixes) {op : TxnOp}
    {op' : KvTxnOp} (means : Means (prefixes d) op op') :
    Laid codec prefixes foreign (Function.update stores d ((stores d).txn op)) (op'.apply t) := by
  cases means with
  | put space name reg =>
    have low (key : String) : (KvTxnOp.apply t (.put ((prefixes d).key space name)
        (encodeRegistration reg))).lookup key =
          if key = (prefixes d).key space name then some (encodeRegistration reg) else t.lookup key := by
      split_ifs with same
      · rw [same]
        exact AList.lookup_insert t
      · exact AList.lookup_insert_ne same
    exact laid.write apart space name low (fun _ _ => lookup_put ..) (by simp [codec.reads])
  | delete space name =>
    have low (key : String) : (KvTxnOp.apply t (.delete ((prefixes d).key space name))).lookup key =
        if key = (prefixes d).key space name then none else t.lookup key := by
      split_ifs with same
      · rw [same]
        exact AList.lookup_erase _ t
      · exact AList.lookup_erase_ne same
    exact laid.write apart space name low (fun _ _ => lookup_delete ..) rfl

lemma txn (laid : Laid codec prefixes foreign stores t) (apart : Apart prefixes) {ops : List TxnOp}
    {ops' : List KvTxnOp} (means : List.Forall₂ (Means (prefixes d)) ops ops') :
    Laid codec prefixes foreign (Function.update stores d (ops.foldl Store.txn (stores d)))
      (ops'.foldl KvTxnOp.apply t) := by
  induction means generalizing stores t with
  | nil => simpa using laid
  | @cons op op' ops ops' first _ ih =>
    have next := ih (laid.txnOp apart first)
    rw [Function.update_self, Function.update_idem] at next
    exact next

end Laid

/-! ## What is read -/

section Read
variable {kvs : List (String × String)} {entries : List (String × JobRegistration)} {f : String → String}

lemma decodeAll_eq (all : kvs.map (fun e => (e.1, codec.decode e.2)) = entries.map fun e => (f e.1, .ok e.2)) :
    decodeAll codec kvs = pure (entries.map Prod.snd) := by
  induction kvs generalizing entries with
  | nil =>
    obtain rfl : entries = [] := by simpa using all.symm
    rfl
  | cons kv kvs ih =>
    cases entries with
    | nil => simp at all
    | cons e entries =>
      obtain ⟨first, rest⟩ := List.cons.inj all
      rw [decodeAll, (Prod.mk.inj first).2, ih rest]
      rfl

lemma keysForJob_eq (job : JobId)
    (all : kvs.map (fun e => (e.1, codec.decode e.2)) = entries.map fun e => (f e.1, .ok e.2)) :
    keysForJob codec job kvs = pure ((Table.keysOf job entries).map f) := by
  induction kvs generalizing entries with
  | nil =>
    obtain rfl : entries = [] := by simpa using all.symm
    rfl
  | cons kv kvs ih =>
    cases entries with
    | nil => simp at all
    | cons e entries =>
      obtain ⟨first, rest⟩ := List.cons.inj all
      obtain ⟨key, decoded⟩ := Prod.mk.inj first
      have step : keysForJob codec job (kv :: kvs) = pure (if e.2.jobId = job
          then f e.1 :: (Table.keysOf job entries).map f else (Table.keysOf job entries).map f) := by
        rw [keysForJob, decoded, ih rest, key]
        rfl
      rw [step]
      by_cases own : e.2.jobId = job <;> simp [Table.keysOf, own]

end Read

/-! ## The client follows the tables -/

section Follow
variable [DecidableEq δ]

abbrev FollowsTables (codec : Decoder) (prefixes : δ → KeyPrefix) (foreign : String → Option String)
    (d : δ) (x : KvAction α) (y : Action α) : Prop :=
  Program.Follows (S := DeployedOps δ) (T := KvOps) RespondsIn Serves (Laid codec prefixes foreign)
    x.run (deployed d y)

lemma follows_pure (a : α) : FollowsTables codec prefixes foreign d (pure a) (pure a) := rfl

/-- A request follows an operation on the tables if what it does when it does not fail is the same, and
what comes after its answer follows what comes after the other one. -/
lemma follows_bind {op : KvOp} {op' : StoreOp} {f : op.Value → KvAction α} {g : op'.Value → Action α}
    (same : ∀ stores t, Laid codec prefixes foreign stores t →
      Laid codec prefixes foreign (Function.update stores d ((stores d).answer op').2) (op.answer t).2 ∧
        FollowsTables codec prefixes foreign d (f (op.answer t).1) (g ((stores d).answer op').1)) :
    FollowsTables codec prefixes foreign d (request op >>= f) (JobRegistry.perform op' >>= g) := by
  refine ⟨(d, op'), _, rfl, fun stores t laid result t' served => ?_⟩
  obtain ⟨laid', follows⟩ := same stores t laid
  cases result with
  | ok v =>
    obtain ⟨-, rfl, rfl⟩ := served
    exact ⟨.ok _, _, ⟨_, ⟨true, if_pos rfl⟩, rfl⟩, laid', follows⟩
  | error e =>
    refine ⟨.error (.store e), ?_⟩
    rcases served with rfl | ⟨-, rfl⟩
    · exact ⟨stores, ⟨stores d, ⟨false, rfl⟩, (Function.update_eq_self d stores).symm⟩, laid, rfl⟩
    · exact ⟨_, ⟨_, ⟨true, rfl⟩, rfl⟩, laid', rfl⟩

lemma Laid.unchanged {stores : δ → Store} {t : Kv} (laid : Laid codec prefixes foreign stores t) (d : δ) :
    Laid codec prefixes foreign (Function.update stores d (stores d)) t := by
  rwa [Function.update_eq_self]

lemma follows_txn (apart : Apart prefixes) {ops : List TxnOp} {ops' : List KvTxnOp}
    (means : List.Forall₂ (Means (prefixes d)) ops ops') :
    FollowsTables codec prefixes foreign d (applyTxn ops') (JobRegistry.perform (.etcdTxn ops)) := by
  rw [← bind_pure (applyTxn ops'), ← bind_pure (JobRegistry.perform (.etcdTxn ops))]
  exact follows_bind fun stores t laid => ⟨laid.txn apart means, follows_pure ()⟩

lemma follows_getByKey (space : Space) (name : String) :
    FollowsTables codec prefixes foreign d (getByKey codec ((prefixes d).key space name))
      (JobRegistry.perform (.etcdGet space name)) := by
  rw [← bind_pure (JobRegistry.perform (.etcdGet space name))]
  refine follows_bind fun stores t laid => ⟨laid.unchanged d, ?_⟩
  have entry := laid.entries d space name
  simp only [KvOp.answer, Store.answer]
  cases found : t.lookup ((prefixes d).key space name) with
  | none =>
    rw [found, Option.map_none] at entry
    have none_ : ((stores d).space space).lookup name = none := by simpa using entry.symm
    rw [none_]
    exact follows_pure none
  | some text =>
    rw [found, Option.map_some] at entry
    obtain ⟨reg, here, decoded⟩ := Option.map_eq_some_iff.mp entry.symm
    rw [here]
    simp only [Option.toList_some, List.map_cons, List.head?_cons, ← decoded]
    exact follows_pure (some reg)

lemma follows_listByPrefix (space : Space) : FollowsTables codec prefixes foreign d
    (listByPrefix codec ((prefixes d).dir space))
    (List.map Prod.snd <$> JobRegistry.perform (.etcdRange space)) := by
  rw [map_eq_pure_bind]
  refine follows_bind fun stores t laid => ⟨laid.unchanged d, ?_⟩
  have read := decodeAll_eq (laid.range d space)
  simp only [KvOp.answer, Store.answer, read]
  exact follows_pure _

lemma follows_removeRegistration (apart : Apart prefixes) (job : JobId) :
    FollowsTables codec prefixes foreign d (removeRegistration codec (prefixes d) job)
      (JobRegistry.EtcdClient.removeRegistration job) := by
  simp only [removeRegistration, serviceKeysForJob, JobRegistry.EtcdClient.removeRegistration,
    JobRegistry.EtcdClient.serviceKeysForJob, bind_assoc, pure_bind]
  refine follows_bind fun stores t laid => ⟨laid.unchanged d, ?_⟩
  have keys := keysForJob_eq job (laid.range d .services)
  simp only [KvOp.answer, Store.answer, keys, pure_bind]
  refine follows_txn apart (List.rel_append ?_ (.cons (.delete .jobs job.val) .nil))
  simp only [Table.keysOf, List.map_map, List.forall₂_map_left_iff, List.forall₂_map_right_iff,
    List.forall₂_same]
  exact fun e _ => .delete .services e.1

lemma follows_listAll : FollowsTables codec prefixes foreign d (listAll codec (prefixes d))
    JobRegistry.EtcdClient.listAll := by
  have branch (entries : List (String × JobRegistration)) : FollowsTables codec prefixes foreign d
      (if !(entries.map Prod.snd).isEmpty then pure (entries.map Prod.snd)
        else listByPrefix codec ((prefixes d).dir .jobs))
      (if !entries.isEmpty then return entries.map Prod.snd
        else do
          let jobs ← JobRegistry.perform (.etcdRange .jobs)
          return jobs.map Prod.snd) := by
    cases entries with
    | nil => exact follows_listByPrefix .jobs
    | cons e entries => exact follows_pure _
  rw [listAll, listByPrefix, JobRegistry.EtcdClient.listAll, bind_assoc]
  refine follows_bind fun stores t laid => ⟨laid.unchanged d, ?_⟩
  have read := decodeAll_eq (laid.range d .services)
  simp only [KvOp.answer, Store.answer, read, pure_bind]
  exact branch _

/-- The methods of the client follow those of the registry's model. -/
theorem follows_call (apart : Apart prefixes) (call : Call) :
    FollowsTables codec prefixes foreign d (call.onKeys codec (prefixes d)) call.onTables := by
  cases call with
  | storeRegistration reg =>
    exact follows_txn apart (.cons (.put .jobs ..) (.cons (.put .services ..) .nil))
  | removeRegistration job => exact follows_removeRegistration apart job
  | getByJobId job => exact follows_getByKey .jobs job.val
  | getByServiceName service => exact follows_getByKey .services service.val
  | listAll => exact follows_listAll

end Follow

/-! ## The transactions of the client -/

section Legal
variable {kvs : List (String × String)}

lemma request_legal {op : KvOp} (legal : op.Legal) : Program.Uses KvOp.Legal (request op).run :=
  ⟨legal, fun _ => trivial⟩

lemma decodeAll_legal (kvs : List (String × String)) :
    Program.Uses KvOp.Legal (decodeAll codec kvs).run := by
  induction kvs with
  | nil => trivial
  | cons kv kvs ih => exact .bind_run trivial fun _ => .bind_run ih fun _ => trivial

lemma keysForJob_legal (job : JobId) (kvs : List (String × String)) :
    Program.Uses KvOp.Legal (keysForJob codec job kvs).run := by
  induction kvs with
  | nil => trivial
  | cons kv kvs ih => exact .bind_run trivial fun _ => .bind_run ih fun _ => trivial

lemma getByKey_legal (key : String) : Program.Uses KvOp.Legal (getByKey codec key).run := by
  refine .bind_run (request_legal trivial) fun kvs => ?_
  cases kvs.head? with
  | none => trivial
  | some kv => exact .bind_run trivial fun _ => trivial

lemma listByPrefix_legal (dir : String) : Program.Uses KvOp.Legal (listByPrefix codec dir).run :=
  .bind_run (request_legal trivial) fun kvs => decodeAll_legal kvs

/-- Etcd accepts every transaction of the client. -/
lemma call_legal (codec : Decoder) (p : KeyPrefix) (call : Call) :
    Program.Uses KvOp.Legal (call.onKeys codec p).run := by
  cases call with
  | storeRegistration reg =>
    refine request_legal ⟨?_, nofun⟩
    have apart : p.key .jobs reg.jobId.val ≠ p.key .services reg.serviceName.val := fun same =>
      absurd (key_inj_own same).1 (by decide)
    simpa [KvTxnOp.put?] using apart
  | removeRegistration job =>
    refine .bind_run (.bind_run (request_legal trivial) fun kvs => keysForJob_legal job kvs) fun keys => ?_
    have none_ : (keys.map KvTxnOp.delete ++ [KvTxnOp.delete (p.key .jobs job.val)]).filterMap KvTxnOp.put? = [] := by
      simp [List.filterMap_append, KvTxnOp.put?]
    exact request_legal ⟨by rw [none_]; exact List.nodup_nil, fun key _ => by rw [none_]; exact List.not_mem_nil⟩
  | getByJobId job => exact getByKey_legal _
  | getByServiceName service => exact getByKey_legal _
  | listAll =>
    refine .bind_run (listByPrefix_legal _) fun regs => ?_
    split
    · trivial
    · exact listByPrefix_legal _

end Legal

/-- Any number of calls of any number of deployments, side by side on one etcd whose requests may
fail: what they return and leave is what the registry's model says of tables that each deployment
has for itself, and no other key is touched. -/
theorem deployments_apart [DecidableEq δ] [DecidableEq ι] (codec : Decoder) (prefixes : δ → KeyPrefix)
    (apart : Apart prefixes) (foreign : String → Option String) (stores : δ → Store) (t t' : Kv)
    (laid : Laid codec prefixes foreign stores t) (client : ι → δ) (call : ι → Call)
    (ps : ∀ i, Program KvOps (Result (call i).Value))
    (run : Program.Pool Serves (fun i => ((call i).onKeys codec (prefixes (client i))).run) t ps t') :
    (∃ (qs : ∀ i, Program (DeployedOps δ) (Result (call i).Value)) (stores' : δ → Store),
      Program.Pool RespondsIn (fun i => deployed (client i) (call i).onTables) stores qs stores' ∧
        Laid codec prefixes foreign stores' t' ∧ ∀ i result, ps i = .pure result → qs i = .pure result) ∧
      ∀ i, Program.Uses KvOp.Legal ((call i).onKeys codec (prefixes (client i))).run := by
  refine ⟨?_, fun i => call_legal codec _ (call i)⟩
  obtain ⟨qs, stores', run', laid', follows⟩ :=
    run.follows (fun i => follows_call apart (call i)) laid
  refine ⟨qs, stores', run', laid', fun i result returned => ?_⟩
  have own := follows i
  rw [returned] at own
  exact own

/-! ## Two deployments, one of them looking -/

/-- Answer every request, alone. -/
def handle (op : KvOp) (t : Kv) : Except String op.Value × Kv := (.ok (op.answer t).1, (op.answer t).2)

/-- What is in etcd after the deployment has stored the registration, and nobody else anything. -/
def storedBy (q : KeyPrefix) (reg : JobRegistration) : Kv :=
  (Program.exec handle (storeRegistration q reg) ∅).2

/-- The deployment `p` lists a registration that only `q` has stored. -/
def Finds (codec : Decoder) (p q : KeyPrefix) : Prop :=
  ∃ reg regs, (Program.exec handle (listAll codec p) (storedBy q reg)).1 = .ok regs ∧ regs ≠ []

section Finds
variable {q : KeyPrefix} {reg : JobRegistration} {dir key text : String}

lemma lookup_storedBy (q : KeyPrefix) (reg : JobRegistration) (key : String) :
    (storedBy q reg).lookup key =
      if key = q.key .services reg.serviceName.val ∨ key = q.key .jobs reg.jobId.val
        then some (encodeRegistration reg) else none := by
  have stored : storedBy q reg = (((∅ : Kv).insert (q.key .jobs reg.jobId.val) (encodeRegistration reg)).insert
      (q.key .services reg.serviceName.val) (encodeRegistration reg)) := rfl
  rw [stored]
  by_cases service : key = q.key .services reg.serviceName.val
  · rw [if_pos (.inl service), service]
    exact AList.lookup_insert _
  · rw [AList.lookup_insert_ne service]
    by_cases job : key = q.key .jobs reg.jobId.val
    · rw [if_pos (.inr job), job]
      exact AList.lookup_insert _
    · rw [AList.lookup_insert_ne job, if_neg (by simp [service, job])]
      rfl

/-- What is read of the keys in a directory. -/
lemma listByPrefix_storedBy (codec : Decoder) (q : KeyPrefix) (reg : JobRegistration) (dir : String) :
    Program.exec handle (listByPrefix codec dir) (storedBy q reg) =
      (.ok (((storedBy q reg).range (within dir)).map fun _ => reg), storedBy q reg) := by
  have texts : ((storedBy q reg).range (within dir)).map (fun e => (e.1, codec.decode e.2)) =
      (((storedBy q reg).range (within dir)).map fun e => (e.1, reg)).map fun e => (id e.1, .ok e.2) := by
    rw [List.map_map]
    refine List.map_congr_left fun e mem => ?_
    have found := (KeyValue.mem_range.mp mem).1
    rw [lookup_storedBy] at found
    split_ifs at found
    rw [← Option.some.inj found, codec.reads]
    rfl
  have read := decodeAll_eq texts
  rw [List.map_map] at read
  have answered : Program.exec handle (request (.getPrefix dir)) (storedBy q reg) =
      (.ok ((storedBy q reg).range (within dir)), storedBy q reg) := rfl
  rw [listByPrefix, Program.exec_bind_ok answered, read]
  rfl

lemma finds_iff_sees : Finds codec p q ↔ p.Sees q := by
  have lists (reg : JobRegistration) : Program.exec handle (listAll codec p) (storedBy q reg) =
      (.ok (if !((storedBy q reg).range (within (p.dir .services))).isEmpty
        then ((storedBy q reg).range (within (p.dir .services))).map fun _ => reg
        else ((storedBy q reg).range (within (p.dir .jobs))).map fun _ => reg), storedBy q reg) := by
    rw [listAll, Program.exec_bind_ok (listByPrefix_storedBy codec q reg _), List.isEmpty_map]
    split
    · rfl
    · exact listByPrefix_storedBy codec q reg _
  constructor
  · rintro ⟨reg, regs, listed, some_⟩
    rw [lists reg] at listed
    obtain rfl := Except.ok.inj listed
    have there : ∃ space, (storedBy q reg).range (within (p.dir space)) ≠ [] := by
      by_contra none_
      have empty (space : Space) : (storedBy q reg).range (within (p.dir space)) = [] :=
        of_not_not fun there => none_ ⟨space, there⟩
      simp [empty] at some_
    obtain ⟨space, there⟩ := there
    obtain ⟨⟨key, text⟩, mem⟩ := List.exists_mem_of_ne_nil _ there
    obtain ⟨found, inside⟩ := KeyValue.mem_range.mp mem
    rw [lookup_storedBy] at found
    split_ifs at found with own
    rcases own with rfl | rfl
    · exact ⟨space, _, _, inside⟩
    · exact ⟨space, _, _, inside⟩
  · rintro ⟨space, space', name, inside⟩
    let reg : JobRegistration := ⟨⟨name⟩, ⟨name⟩, ""⟩
    have own : (storedBy q reg).lookup (q.key space' name) = some (encodeRegistration reg) := by
      rw [lookup_storedBy, if_pos]
      cases space' with
      | jobs => exact .inr rfl
      | services => exact .inl rfl
    have mem : (q.key space' name, encodeRegistration reg) ∈ (storedBy q reg).range (within (p.dir space)) :=
      KeyValue.mem_range.mpr ⟨own, inside⟩
    refine ⟨reg, _, congrArg Prod.fst (lists reg), ?_⟩
    cases space with
    | jobs =>
      split
      next services => simpa using services
      next => simpa using List.ne_nil_of_mem mem
    | services =>
      have some_ := List.ne_nil_of_mem mem
      simp [some_]

end Finds

/-- Two deployments with different prefixes list nothing of each other exactly if neither has its
prefix inside of a space of the other. -/
theorem finds_iff (codec : Decoder) (p q : KeyPrefix) (other : p ≠ q) :
    (Finds codec p q ∨ Finds codec q p) ↔ (p.Contains q ∨ q.Contains p) := by
  rw [finds_iff_sees, finds_iff_sees, sees_iff other]

/-! ## Two prefixes -/

/-- Reads the texts that nscale writes, and no others. -/
def ownTexts : Decoder where
  decode text := (decodeRegistration text).elim (.error (.store "expected value")) .ok
  reads reg := by rw [decode_encode, Option.elim_some]

def east : KeyPrefix := .new "east/nscale/"

def west : KeyPrefix := .new "/west/nscale"

/-- A prefix inside of the services of `east`. -/
def inner : KeyPrefix := .new "/east/nscale/services/inner"

theorem inner_found : Finds ownTexts east inner ∨ Finds ownTexts inner east :=
  (finds_iff ownTexts east inner (by decide +kernel)).mpr (.inl (by decide +kernel))

def sites : Bool → KeyPrefix
  | false => east
  | true => west

def siteReg : Bool → JobRegistration
  | false => webReg
  | true => apiReg

lemma sites_laid : Laid ownTexts sites (fun _ => none) (fun _ => Store.empty) ∅ where
  entries _ space _ := by
    cases space <;> rfl
  others _ _ := rfl

/-- Both deployments register a job of the same name. -/
theorem sites_stored : ∃ (stores : Bool → Store) (t : Kv) (qs : Bool → Program (DeployedOps Bool) (Result Unit)),
    Program.Pool RespondsIn (fun i => deployed i (Call.storeRegistration (siteReg i)).onTables)
      (fun _ => Store.empty) qs stores ∧ Laid ownTexts sites (fun _ => none) stores t ∧
        ∀ i, qs i = .pure (.ok ()) := by
  let codes : Bool → Program KvOps (Result Unit) := fun i => (storeRegistration (sites i) (siteReg i)).run
  let ops (i : Bool) : List KvTxnOp := [.put ((sites i).key .jobs (siteReg i).jobId.val) (encodeRegistration (siteReg i)),
    .put ((sites i).key .services (siteReg i).serviceName.val) (encodeRegistration (siteReg i))]
  have legal (i : Bool) : KvOp.Legal (.txn (ops i)) :=
    (call_legal ownTexts (sites i) (.storeRegistration (siteReg i))).1
  have stores {cs : Bool → Program KvOps (Result Unit)} {t : Kv} (i : Bool)
      (prior : Program.Pool Serves codes ∅ cs t) (here : cs i = codes i) :
      Program.Pool Serves codes ∅ (Function.update cs i (.pure (.ok ()))) ((KvOp.txn (ops i)).answer t).2 := by
    have requests : cs i = .perform (.txn (ops i)) fun result => .pure (result.mapError .store) := here
    have done : Serves (.txn (ops i)) t (.ok ()) ((KvOp.txn (ops i)).answer t).2 := ⟨legal i, rfl, rfl⟩
    exact .step i prior requests done
  have both := stores true (stores false .nil rfl) rfl
  obtain ⟨⟨qs, stores, run, laid, returned⟩, -⟩ := deployments_apart ownTexts sites (by
      unfold Apart
      decide +kernel) (fun _ => none) (fun _ => Store.empty) ∅ _ sites_laid id
    (fun i => .storeRegistration (siteReg i)) _ both
  refine ⟨stores, _, qs, run, laid, fun i => returned i (.ok ()) ?_⟩
  cases i <;> rfl

end NScale.Etcd
