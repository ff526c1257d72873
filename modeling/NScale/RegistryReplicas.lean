import NScale.RegistryCache

/-!
# Replicas that share the registry

Calls of `register`, `deregister` and `get`, by any number of replicas, with their store
operations in any order. Between the operations of a call, Redis and etcd disagree; what
matters is that a call in progress is bound to overwrite or remove the entry.
-/
namespace NScale.RegistryReplicas
open Transition Program JobRegistry

/-- A call that a replica makes, in durable mode. -/
inductive Request
  | register (reg : JobRegistration)
  | deregister (job : JobId)
  | get (lookup : JobId)
  deriving DecidableEq, Repr

abbrev Code := Program StoreOps Unit

/-- The code of a call, without its result. -/
def run {α : Type} (x : Action α) : Code := do
  let _ ← x.run
  return ()

def Request.code : Request → Code
  | .register reg => run (JobRegistry.register true reg)
  | .deregister job => run (JobRegistry.deregister true job)
  | .get lookup => run (JobRegistry.get true lookup)

structure State where
  store : Store
  calls : ℕ → Option Code
  nextCall : ℕ

inductive Event
  | begin (request : Request)
  | op (i : ℕ) (op : StoreOp)
  deriving DecidableEq, Repr

def step (s : State) : Event → Option State
  | .begin request => some { s with
      calls := Function.update s.calls s.nextCall (some request.code)
      nextCall := s.nextCall + 1 }
  | .op i op => do
    let call ← s.calls i
    let rest ← call.answered? op (.ok (s.store.answer op).1)
    return { s with
      store := (s.store.answer op).2
      calls := Function.update s.calls i (some rest) }

/-- No operation fails. -/
def system (store : Store) : System State Event := ⟨⟨store, fun _ => none, 0⟩, step⟩

def returned : Option Code → Bool
  | some (.perform _ _) => false
  | _ => true

/-- All calls have returned. -/
def State.Quiet (s : State) : Prop := ∀ i, returned (s.calls i) = true

/-! ## Entries of Redis -/

structure Entry where
  hash : Hash
  field : String
  reg : JobRegistration
  deriving DecidableEq, Repr

/-- The key space of etcd that a hash is a cache of. -/
def spaceOf : Hash → Space
  | .byJob => .jobs
  | .byService => .services

def Holds (s : Store) (e : Entry) : Prop := (s.hash e.hash).lookup e.field = some e.reg

/-- etcd has the entry under the same key. -/
def Backs (s : Store) (e : Entry) : Prop := (s.space (spaceOf e.hash)).lookup e.field = some e.reg

def Agrees (s : Store) : Prop := ∀ e, Holds s e → Backs s e

lemma agrees_empty : Agrees .empty := fun e holds => by
  obtain ⟨hash, field, reg⟩ := e
  cases hash <;> simp [Holds, Store.empty, Store.hash] at holds

instance (s : Store) (e : Entry) : Decidable (Holds s e) := inferInstanceAs (Decidable (_ = _))

instance (s : Store) (e : Entry) : Decidable (Backs s e) := inferInstanceAs (Decidable (_ = _))

/-- The operation overwrites or removes the entry. -/
def Writes (e : Entry) : StoreOp → Prop
  | .hset hash field _ | .hdel hash field => hash = e.hash ∧ field = e.field
  | _ => False

/-- What an operation can answer while the entry is there. -/
def Shows (e : Entry) : (op : StoreOp) → op.Value → Prop
  | .hget hash field, v => hash = e.hash ∧ field = e.field → v = some e.reg
  | .hgetall hash, v => hash = e.hash → (e.field, e.reg) ∈ v
  | _, _ => True

/-- Whatever else the call is answered, it overwrites or removes the entry if it stays. -/
def Touches {α : Type} (e : Entry) : Program StoreOps α → Prop
  | .pure _ => False
  | .perform op next => Writes e op ∨ ∀ v, Shows e op v → Touches e (next (.ok v))

/-- The same from the next operation of the call on. -/
def TouchesLater {α : Type} (e : Entry) : Program StoreOps α → Prop
  | .pure _ => False
  | .perform op next => ∀ v, Shows e op v → Touches e (next (.ok v))

/-- Another call, or this one after its next operation, is bound to write the entry. -/
def Bound (s : State) (i : ℕ) (e : Entry) : Prop :=
  ∃ k call, s.calls k = some call ∧ if k = i then TouchesLater e call else Touches e call

/-- A registration is written to Redis while etcd has it, and a service is deleted from etcd
while Redis has it for the same job, or else a call in progress is bound to write the entry. -/
def Current : Condition State Event := fun _ s e =>
  match e with
  | .op i (.hset hash field reg) =>
    Backs s.store ⟨hash, field, reg⟩ ∨ Bound s i ⟨hash, field, reg⟩
  | .op i (.etcdTxn ops) => ∀ field reg, .delete .services field ∈ ops →
    Holds s.store ⟨.byService, field, reg⟩ →
      .delete .jobs reg.jobId.val ∈ ops ∨ Bound s i ⟨.byService, field, reg⟩
  | _ => True

/-! ## What an operation does to an entry -/

section Answer
variable {s : Store} {e : Entry} {op : StoreOp}

lemma shows_answer (holds : Holds s e) (op : StoreOp) : Shows e op (s.answer op).1 := by
  cases op with
  | hget hash field =>
    rintro ⟨rfl, rfl⟩
    exact holds
  | hgetall hash =>
    rintro rfl
    exact Table.mem_toList.mpr holds
  | _ => trivial

lemma hash_setHash (s : Store) (hash hash' : Hash) (t : Table) :
    (s.setHash hash t).hash hash' = if hash = hash' then t else s.hash hash' := by
  cases hash <;> cases hash' <;> rfl

lemma space_setHash (s : Store) (hash : Hash) (t : Table) (space : Space) :
    (s.setHash hash t).space space = s.space space := by
  cases hash <;> cases space <;> rfl

lemma space_setSpace (s : Store) (space space' : Space) (t : Table) :
    (s.setSpace space t).space space' = if space = space' then t else s.space space' := by
  cases space <;> cases space' <;> rfl

lemma hash_foldl_txn (s : Store) (ops : List TxnOp) (hash : Hash) :
    (ops.foldl Store.txn s).hash hash = s.hash hash := by
  induction ops generalizing s with
  | nil => rfl
  | cons o ops ih =>
    rw [List.foldl_cons, ih]
    cases o with
    | put space _ _ | delete space _ => cases space <;> cases hash <;> rfl

/-- A key that no part of the transaction is about keeps its value. -/
lemma lookup_foldl_txn {space : Space} {key : String} {ops : List TxnOp}
    (puts : ∀ reg, .put space key reg ∉ ops) (deletes : .delete space key ∉ ops) (s : Store) :
    ((ops.foldl Store.txn s).space space).lookup key = (s.space space).lookup key := by
  induction ops generalizing s with
  | nil => rfl
  | cons o ops ih =>
    rw [List.foldl_cons, ih (fun reg h => puts reg (List.mem_cons_of_mem _ h))
      fun h => deletes (List.mem_cons_of_mem _ h)]
    cases o with
    | put space' key' reg =>
      simp only [Store.txn, space_setSpace]
      split_ifs with same
      · subst same
        have other : key ≠ key' := by
          rintro rfl
          exact puts reg List.mem_cons_self
        exact Table.lookup_insert_other other
      · rfl
    | delete space' key' =>
      simp only [Store.txn, space_setSpace]
      split_ifs with same
      · subst same
        have other : key ≠ key' := by
          rintro rfl
          exact deletes List.mem_cons_self
        exact AList.lookup_erase_ne other
      · rfl

/-- An entry that is there was just written, or was there and not written. -/
lemma holds_answer (holds : Holds (s.answer op).2 e) :
    op = .hset e.hash e.field e.reg ∨ (Holds s e ∧ ¬ Writes e op) := by
  cases op with
  | hset hash field reg =>
    simp only [Holds, Store.answer, hash_setHash] at holds
    split_ifs at holds with same
    · subst same
      by_cases here : e.field = field
      · subst here
        obtain rfl : reg = e.reg := by simpa using holds
        exact .inl rfl
      · rw [Table.lookup_insert_other here] at holds
        exact .inr ⟨holds, fun writes => here writes.2.symm⟩
    · exact .inr ⟨holds, fun writes => same writes.1⟩
  | hdel hash field =>
    simp only [Holds, Store.answer, hash_setHash] at holds
    split_ifs at holds with same
    · subst same
      have other : e.field ≠ field := by
        rintro rfl
        simp [AList.lookup_erase] at holds
      rw [AList.lookup_erase_ne other] at holds
      exact .inr ⟨holds, fun writes => other writes.2.symm⟩
    · exact .inr ⟨holds, fun writes => same writes.1⟩
  | etcdTxn ops =>
    simp only [Holds, Store.answer, hash_foldl_txn] at holds
    exact .inr ⟨holds, id⟩
  | _ => exact .inr ⟨holds, id⟩

/-- Only a transaction about its key makes etcd disagree with an entry. -/
lemma backs_answer (backs : Backs s e) (lost : ¬ Backs (s.answer op).2 e) :
    ∃ ops, op = .etcdTxn ops ∧
      ((∃ reg, .put (spaceOf e.hash) e.field reg ∈ ops) ∨ .delete (spaceOf e.hash) e.field ∈ ops) := by
  cases op with
  | etcdTxn ops =>
    refine ⟨ops, rfl, ?_⟩
    by_contra untouched
    push Not at untouched
    refine lost ?_
    simp only [Backs, Store.answer, lookup_foldl_txn untouched.1 untouched.2]
    exact backs
  | hset hash field reg | hdel hash field =>
    simp only [Backs, Store.answer, space_setHash] at lost
    exact absurd backs lost
  | _ => exact absurd backs lost

end Answer

/-! ## What the calls are bound to write -/

/-- The transaction is about the key of the entry, and it is not one that deletes the service
of another job. -/
def Disturbs (e : Entry) (ops : List TxnOp) : Prop :=
  (∃ reg, .put (spaceOf e.hash) e.field reg ∈ ops) ∨
    (.delete (spaceOf e.hash) e.field ∈ ops ∧
      (e.hash = .byJob ∨ .delete .jobs e.reg.jobId.val ∈ ops))

def transacts : StoreOp → Bool
  | .etcdTxn _ => true
  | _ => false

/-- After an operation, the program is bound to write what it may have made Redis disagree with. -/
def Fine {α : Type} : (op : StoreOp) → (Result op.Value → Program StoreOps α) → Prop
  | .etcdTxn ops, next => ∀ e, Disturbs e ops → Touches e (next (.ok ()))
  | _, _ => True

/-- The same from every operation of the program on, which ends in the postcondition. -/
def Repairs {α : Type} (post : α → Prop) : Program StoreOps α → Prop
  | .pure a => post a
  | .perform op next => Fine op next ∧ ∀ v, Repairs post (next (.ok v))

section Programs
variable {α β : Type} {e : Entry} {p : Program StoreOps α} {f : α → Program StoreOps β}

lemma Touches.bind (touches : Touches e p) (f : α → Program StoreOps β) : Touches e (p >>= f) := by
  induction p with
  | pure a => exact touches.elim
  | perform op next ih => exact touches.imp_right fun rest v shown => ih (.ok v) (rest v shown)

lemma Repairs.bind {post : α → Prop} {post' : β → Prop} (first : Repairs post p)
    (rest : ∀ a, post a → Repairs post' (f a)) : Repairs post' (p >>= f) := by
  induction p with
  | pure a => exact rest a first
  | perform op next ih =>
    refine ⟨?_, fun v => ih (.ok v) (first.2 v)⟩
    cases op with
    | etcdTxn ops => exact fun e disturbs => (first.1 e disturbs).bind f
    | _ => trivial

end Programs

section Codes
variable {e : Entry} {β : Type}

/-- Code that may fail repairs what it does, and does not fail by itself. -/
def Succeeds (x : Action β) : Prop := Repairs (fun r => ∃ b, r = .ok b) x.run

/-- The next operation of code that may fail, and what follows it when it does not. -/
lemma touches_perform {op : StoreOp} {g : op.Value → Action β}
    (rest : Writes e op ∨ ∀ v, Shows e op v → Touches e (g v).run) :
    Touches e (JobRegistry.perform op >>= g).run := rest

lemma repairs_perform {op : StoreOp} {g : op.Value → Action β} {post : Result β → Prop}
    (plain : transacts op = false) (rest : ∀ v, Repairs post (g v).run) :
    Repairs post (JobRegistry.perform op >>= g).run := by
  refine ⟨?_, rest⟩
  cases op with
  | etcdTxn ops => simp [transacts] at plain
  | _ => trivial

lemma repairs_txn {ops : List TxnOp} {g : Unit → Action β} {post : Result β → Prop}
    (fine : ∀ e, Disturbs e ops → Touches e (g ()).run) (rest : Repairs post (g ()).run) :
    Repairs post (JobRegistry.perform (.etcdTxn ops) >>= g).run := ⟨fine, fun _ => rest⟩

lemma succeeds_perform {op : StoreOp} (plain : transacts op = false) :
    Succeeds (JobRegistry.perform op) := by
  refine ⟨?_, fun v => ⟨v, rfl⟩⟩
  cases op with
  | etcdTxn ops => simp [transacts] at plain
  | _ => trivial

lemma Succeeds.bind {α : Type} {x : Action α} {f : α → Action β} {post : Result β → Prop}
    (first : Succeeds x) (rest : ∀ a, Repairs post (f a).run) : Repairs post (x >>= f).run := by
  refine Repairs.bind first fun r ok => ?_
  obtain ⟨a, rfl⟩ := ok
  exact rest a

/-- An error handler is not run. -/
lemma Succeeds.tryCatch {x : Action β} (succeeds : Succeeds x) (f : NscaleError → Action β) :
    Succeeds (tryCatch x f) := by
  refine Repairs.bind succeeds fun r ok => ?_
  obtain ⟨b, rfl⟩ := ok
  exact ⟨b, rfl⟩

lemma succeeds_cacheRegistration (reg : JobRegistration) : Succeeds (cacheRegistration reg) :=
  repairs_perform rfl fun _ => succeeds_perform rfl

lemma succeeds_register (reg : JobRegistration) : Succeeds (JobRegistry.register true reg) := by
  refine repairs_txn (fun e disturbs => ?_) (succeeds_cacheRegistration reg)
  obtain ⟨hash, field, r⟩ := e
  obtain ⟨reg', put⟩ | ⟨delete, -⟩ := disturbs
  · cases hash with
    | byJob =>
      obtain ⟨rfl, rfl⟩ : field = reg.jobId.val ∧ reg' = reg := by simpa [spaceOf] using put
      exact touches_perform (.inl ⟨rfl, rfl⟩)
    | byService =>
      obtain ⟨rfl, rfl⟩ : field = reg.serviceName.val ∧ reg' = reg := by simpa [spaceOf] using put
      exact touches_perform (.inr fun _ _ => .inl ⟨rfl, rfl⟩)
  · simp at delete

lemma succeeds_durableHit (lookup : JobId) : Succeeds (durableHit lookup) := by
  refine repairs_perform rfl fun hit => ?_
  cases hit with
  | some reg => exact ⟨_, rfl⟩
  | none => exact succeeds_perform rfl

lemma succeeds_get (lookup : JobId) : Succeeds (JobRegistry.get true lookup) := by
  refine repairs_perform rfl fun hit => ?_
  cases hit with
  | some reg => exact ⟨_, rfl⟩
  | none =>
    refine repairs_perform rfl fun hit => ?_
    cases hit with
    | some reg => exact ⟨_, rfl⟩
    | none =>
      refine (succeeds_durableHit lookup).bind fun hit => ?_
      cases hit with
      | none => exact ⟨_, rfl⟩
      | some reg => exact (succeeds_cacheRegistration reg).bind fun _ => ⟨_, rfl⟩

/-- The loop over the listed services removes those of its job. -/
lemma touches_removeServices {job : JobId} {entries : List (String × JobRegistration)}
    {g : Unit → Action Unit}
    (rest : (e.hash = .byService ∧ (e.field, e.reg) ∈ entries ∧ e.reg.jobId = job) ∨
      Touches e (g ()).run) : Touches e (removeServices job entries >>= g).run := by
  induction entries with
  | nil => exact rest.resolve_left fun listed => by simp at listed
  | cons entry entries ih =>
    obtain ⟨service, reg⟩ := entry
    rw [removeServices]
    by_cases own : reg.jobId = job
    · rw [if_pos own, bind_assoc]
      by_cases here : e.hash = .byService ∧ e.field = service
      · exact touches_perform (.inl ⟨here.1.symm, here.2.symm⟩)
      · refine touches_perform (.inr fun _ _ => ih (rest.imp_left ?_))
        rintro ⟨hash, listed, job⟩
        have later : (e.field, e.reg) ∈ entries :=
          (List.mem_cons.mp listed).resolve_left fun same => here ⟨hash, (Prod.mk.inj same).1⟩
        exact ⟨hash, later, job⟩
    · rw [if_neg own]
      refine ih (rest.imp_left ?_)
      rintro ⟨hash, listed, job⟩
      have later : (e.field, e.reg) ∈ entries :=
        (List.mem_cons.mp listed).resolve_left fun same => own ((Prod.mk.inj same).2 ▸ job)
      exact ⟨hash, later, job⟩

lemma touches_removeCachedRegistration {job : JobId}
    (own : (e.hash = .byJob ∧ e.field = job.val) ∨ (e.hash = .byService ∧ e.reg.jobId = job)) :
    Touches e (removeCachedRegistration job).run := by
  refine touches_perform (.inr fun entries shown => touches_removeServices ?_)
  rcases own with ⟨hash, field⟩ | ⟨hash, job⟩
  · exact .inr (.inl ⟨hash.symm, field.symm⟩)
  · exact .inl ⟨hash, shown hash.symm, job⟩

lemma succeeds_removeServices (job : JobId) (entries : List (String × JobRegistration)) :
    Succeeds (removeServices job entries) := by
  induction entries with
  | nil => exact ⟨_, rfl⟩
  | cons entry entries ih =>
    rw [removeServices]
    split
    · exact (succeeds_perform rfl).bind fun _ => ih
    · exact ih

lemma succeeds_removeCachedRegistration (job : JobId) : Succeeds (removeCachedRegistration job) :=
  repairs_perform rfl fun entries =>
    (succeeds_removeServices job entries).bind fun _ => succeeds_perform rfl

lemma succeeds_deregister (job : JobId) : Succeeds (JobRegistry.deregister true job) := by
  refine (succeeds_get job).bind fun existing => ?_
  rw [if_pos rfl, EtcdClient.removeRegistration, EtcdClient.serviceKeysForJob, bind_assoc, bind_assoc]
  refine repairs_perform rfl fun entries => ?_
  rw [pure_bind]
  refine repairs_txn (fun e disturbs => ?_) ((succeeds_removeCachedRegistration job).tryCatch _)
  obtain ⟨reg, put⟩ | ⟨delete, own⟩ := disturbs
  · simp at put
  · refine Touches.bind (touches_removeCachedRegistration ?_) _
    obtain ⟨hash, field, r⟩ := e
    cases hash with
    | byJob =>
      obtain rfl : field = job.val := by simpa [spaceOf] using delete
      exact .inl ⟨rfl, rfl⟩
    | byService =>
      have same : r.jobId.val = job.val := by simpa using own
      exact .inr ⟨rfl, congrArg JobId.mk same⟩

lemma repairs_code (request : Request) : Repairs (fun _ => True) request.code := by
  cases request with
  | register reg => exact Repairs.bind (succeeds_register reg) fun _ _ => trivial
  | deregister job => exact Repairs.bind (succeeds_deregister job) fun _ _ => trivial
  | get lookup => exact Repairs.bind (succeeds_get lookup) fun _ _ => trivial

end Codes

/-! ## Runs -/

/-- The ids of calls to come are unused. -/
def State.Fresh (s : State) : Prop := ∀ i, s.nextCall ≤ i → s.calls i = none

lemma State.Fresh.next {s t : State} {e : Event} (fresh : s.Fresh) (taken : step s e = some t) :
    t.Fresh := by
  intro i hi
  cases e with
  | begin request =>
    obtain rfl := Option.some.inj taken
    have later : s.nextCall + 1 ≤ i := hi
    have other : i ≠ s.nextCall := by omega
    simpa [Function.update_of_ne other] using fresh i (by omega)
  | op k op =>
    simp only [step, Option.bind_eq_bind, Option.bind_eq_some_iff] at taken
    obtain ⟨call, hk, rest, -, made⟩ := taken
    obtain rfl := Option.some.inj made
    have other : i ≠ k := by
      rintro rfl
      simp [fresh i hi] at hk
    simpa [Function.update_of_ne other] using fresh i hi

/-- A run ends quietly if the calls that were made have returned. -/
lemma quiet_of_run {store : Store} {C : Condition State Event} {h : List Event} {s : State}
    (run : RunWhere (system store) C h s) (done : ∀ i < s.nextCall, returned (s.calls i) = true) :
    s.Quiet := by
  have fresh : s.Fresh := run.state_invariant State.Fresh (fun _ _ => rfl)
    fun _ _ _ _ fresh taken _ => fresh.next taken
  intro i
  by_cases made : i < s.nextCall
  · exact done i made
  · rw [fresh i (by omega)]
    rfl

/-- Where Redis disagrees with etcd, a call in progress is bound to write the entry. -/
structure Converging (s : State) : Prop where
  repairs : ∀ {i call}, s.calls i = some call → Repairs (fun _ => True) call
  fresh : s.Fresh
  bound : ∀ {e}, Holds s.store e → Backs s.store e ∨ ∃ i call, s.calls i = some call ∧ Touches e call

namespace Converging
variable {s t : State} {i : ℕ} {op : StoreOp}

lemma start {store : Store} (agrees : Agrees store) : Converging (system store).start where
  repairs := fun h => by cases h
  fresh := fun _ _ => rfl
  bound := fun holds => .inl (agrees _ holds)

lemma begin (ok : Converging s) {request : Request} (taken : step s (.begin request) = some t) :
    Converging t := by
  have fresh := ok.fresh.next taken
  obtain rfl := Option.some.inj taken
  refine ⟨fun {i call} h => ?_, fresh, fun {e} holds => ?_⟩
  · by_cases new : i = s.nextCall
    · subst new
      obtain rfl : request.code = call := by simpa using h
      exact repairs_code request
    · exact ok.repairs (by simpa [Function.update_of_ne new] using h)
  · refine (ok.bound holds).imp_right ?_
    rintro ⟨i, call, hi, touches⟩
    have other : i ≠ s.nextCall := by
      rintro rfl
      simp [ok.fresh _ le_rfl] at hi
    exact ⟨i, call, by simpa [Function.update_of_ne other] using hi, touches⟩

/-- What was bound to be written still is, after an operation that does not write it. -/
lemma touched {e : Entry} {next : Result op.Value → Code} {k : ℕ} {call : Code}
    (hi : s.calls i = some (.perform op next)) (hk : s.calls k = some call)
    (shows : Shows e op (s.store.answer op).1)
    (touches : if k = i then TouchesLater e call else Touches e call) :
    ∃ k call, Function.update s.calls i (some (next (.ok (s.store.answer op).1))) k = some call ∧
      Touches e call := by
  by_cases own : k = i
  · subst own
    obtain rfl : Program.perform op next = call := Option.some.inj (hi.symm.trans hk)
    rw [if_pos rfl] at touches
    exact ⟨k, _, Function.update_self .., touches _ shows⟩
  · rw [if_neg own] at touches
    exact ⟨k, call, by simpa [Function.update_of_ne own] using hk, touches⟩

lemma answered (ok : Converging s) {h : List Event} (taken : step s (.op i op) = some t)
    (current : Current h s (.op i op)) : Converging t := by
  have fresh := ok.fresh.next taken
  simp only [step, Option.bind_eq_bind, Option.bind_eq_some_iff, answered?_eq_some] at taken
  obtain ⟨call, hi, -, ⟨next, rfl, rfl⟩, made⟩ := taken
  obtain rfl := Option.some.inj made
  have ⟨fine, rest⟩ := ok.repairs hi
  refine ⟨fun {k call} hk => ?_, fresh, fun {e} holds => ?_⟩
  · by_cases own : k = i
    · subst own
      obtain rfl : next _ = call := by simpa using hk
      exact rest _
    · exact ok.repairs (by simpa [Function.update_of_ne own] using hk)
  · rcases holds_answer holds with written | ⟨before, unwritten⟩
    · subst written
      rcases current with backs | ⟨k, call, hk, touches⟩
      · refine .inl (by_contra fun lost => ?_)
        obtain ⟨ops, txn, -⟩ := backs_answer backs lost
        cases txn
      · exact .inr (touched hi hk trivial touches)
    · refine or_iff_not_imp_left.mpr fun lost => ?_
      have shows := shows_answer before op
      rcases ok.bound before with backs | ⟨k, call, hk, touches⟩
      · -- a transaction took the entry out of etcd
        obtain ⟨ops, rfl, changed⟩ := backs_answer backs lost
        by_cases disturbs : Disturbs e ops
        · exact ⟨i, _, Function.update_self .., fine e disturbs⟩
        · have delete := changed.resolve_left fun put => disturbs (.inl put)
          obtain ⟨hash, field, reg⟩ := e
          cases hash with
          | byJob => exact absurd (.inr ⟨delete, .inl rfl⟩) disturbs
          | byService =>
            have other : .delete .jobs reg.jobId.val ∉ ops :=
              fun own => disturbs (.inr ⟨delete, .inr own⟩)
            obtain ⟨k, call, hk, touches⟩ := (current field reg delete before).resolve_left other
            exact touched hi hk shows touches
      · refine touched hi hk shows ?_
        split_ifs with own
        · subst own
          obtain rfl : Program.perform op next = call := Option.some.inj (hi.symm.trans hk)
          exact touches.resolve_left unwritten
        · exact touches

end Converging

lemma converging_of_run {store : Store} (agrees : Agrees store) {h : List Event} {s : State}
    (run : RunWhere (system store) Current h s) : Converging s := by
  refine run.state_invariant Converging (.start agrees) fun h s t e ok taken current => ?_
  cases e with
  | begin request => exact ok.begin taken
  | op i op => exact ok.answered taken current

/-- Once all calls have returned, every entry of Redis equals the one of etcd. -/
theorem agrees_of_quiet (store : Store) (agrees : Agrees store) (h : List Event) (s : State)
    (run : RunWhere (system store) Current h s) (quiet : s.Quiet) : Agrees s.store := by
  intro e holds
  refine ((converging_of_run agrees run).bound holds).resolve_right ?_
  rintro ⟨i, call, hi, touches⟩
  have done := quiet i
  rw [hi] at done
  cases call with
  | pure a => exact touches
  | perform op next => simp [returned] at done

/-- The condition where no other call has to make up for a step. -/
def Alone : Condition State Event := fun _ s e =>
  match e with
  | .op _ (.hset hash field reg) => Backs s.store ⟨hash, field, reg⟩
  | .op _ (.etcdTxn ops) => ∀ o ∈ ops, match o with
    | .delete .services field =>
      ∀ reg ∈ s.store.byService.lookup field, .delete .jobs reg.jobId.val ∈ ops
    | _ => True
  | _ => True

instance (h : List Event) (s : State) (e : Event) : Decidable (Alone h s e) := by
  unfold Alone
  split
  · infer_instance
  · refine @List.decidableBAll _ _ (fun o => ?_) _
    split <;> infer_instance
  · infer_instance

lemma Alone.current {h : List Event} {s : State} {e : Event} (alone : Alone h s e) :
    Current h s e := by
  cases e with
  | begin request => trivial
  | op i op =>
    cases op with
    | hset hash field reg => exact .inl alone
    | etcdTxn ops => exact fun field reg delete holds => .inl (alone _ delete reg holds)
    | _ => trivial

def registerScript (i : ℕ) : List Event := [.op i (.etcdTxn [.put .jobs "shop" webReg,
  .put .services "shop-web" webReg]), .op i (.hset .byJob "shop" webReg),
  .op i (.hset .byService "shop-web" webReg)]

def deregisterScript (i : ℕ) : List Event := [.op i (.hget .byJob "shop"),
  .op i (.etcdRange .services),
  .op i (.etcdTxn [.delete .services "shop-web", .delete .jobs "shop"]),
  .op i (.hgetall .byService), .op i (.hdel .byService "shop-web"), .op i (.hdel .byJob "shop")]

/-- A registration and its removal, one after the other. -/
theorem agrees_registered_deregistered : ∃ h s, RunWhere (system .empty) Current h s ∧
    s.nextCall = 2 ∧ s.Quiet ∧ Agrees s.store := by
  obtain ⟨h, s, run, made, done⟩ := exists_run (T := system .empty) (C := Alone)
    (fun _ s => s.nextCall = 2 ∧ ∀ i < s.nextCall, returned (s.calls i) = true)
    (.begin (.register webReg) :: registerScript 0 ++
      .begin (.deregister ⟨"shop"⟩) :: deregisterScript 1) (by decide +kernel)
  have current := run.mono fun _ _ _ _ _ _ => Alone.current
  have quiet := quiet_of_run run done
  exact ⟨h, s, current, made, quiet, agrees_of_quiet .empty agrees_empty h s current quiet⟩

/-- A lookup that missed Redis brings back what was deregistered in the meantime. -/
theorem not_agrees_of_quiet : ¬ ∀ (store : Store), Agrees store → ∀ h s,
    Run (system store) h s → s.Quiet → Agrees s.store := by
  intro all
  obtain ⟨h, s, run, done, holds, lost⟩ := exists_run (T := system .empty) (C := fun _ _ _ => True)
    (fun _ s => (∀ i < s.nextCall, returned (s.calls i) = true) ∧
      Holds s.store ⟨.byJob, "shop", webReg⟩ ∧ ¬ Backs s.store ⟨.byJob, "shop", webReg⟩)
    ([.begin (.register webReg), .op 0 (.etcdTxn [.put .jobs "shop" webReg,
      .put .services "shop-web" webReg]), .begin (.get ⟨"shop"⟩), .op 1 (.hget .byJob "shop"),
      .op 1 (.hget .byService "shop"), .op 1 (.etcdGet .jobs "shop"),
      .op 0 (.hset .byJob "shop" webReg), .op 0 (.hset .byService "shop-web" webReg),
      .begin (.deregister ⟨"shop"⟩)] ++ deregisterScript 2 ++
      [.op 1 (.hset .byJob "shop" webReg), .op 1 (.hset .byService "shop-web" webReg)])
    (by decide +kernel)
  exact lost (all .empty agrees_empty h s run (quiet_of_run run done) _ holds)

end NScale.RegistryReplicas
