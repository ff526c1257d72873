import NScale.Provenance
import NScale.RegistryReplicas
import NScale.Coordinators
import NScale.ExchangeGuard

/-!
# Whom a request can reach

In every run of the replicas, whatever the interleaving and whatever is answered, nscale acts on
jobs that an admin has registered and on no others, and a request is sent to a backend only if
Consul or Nomad has reported it for the job that is registered under the host of the request.
-/
namespace NScale.WakeCoordinator

/-- The endpoint that a refresh is about to return, with its job. -/
def Call.refreshing? : Call → Option (JobId × Endpoint)
  | .refreshReady reg _ ep => some (reg.jobId, ep)
  | .refreshed reg (.ok (.confirmed ep)) | .refreshed reg (.ok (.updated ep)) => some (reg.jobId, ep)
  | _ => none

@[simp] lemma Reset.refreshing?_finish (job : JobId) (by_ : Reset) :
    (by_.finish job).refreshing? = none := by
  cases by_ <;> rfl

@[simp] lemma Call.refreshing?_deliver (w : ℕ) (msg : WakeResult) (c : Call) :
    (c.deliver w msg).refreshing? = c.refreshing? := by
  cases c with
  | spawn reg v inbox | recv reg v inbox => cases inbox <;> rfl
  | _ => rfl

@[simp] lemma Operation.refreshing?_call (op : Operation) : op.call.refreshing? = none := by
  cases op <;> rfl

/-- Every endpoint that a refresh returns has the property for its job. -/
structure Refreshes (P : JobId → Endpoint → Prop) (s : State) : Prop where
  calls : ∀ {i c p}, s.calls i = some c → c.refreshing? = some p → P p.1 p.2

namespace Refreshes
variable {P Q : JobId → Endpoint → Prop} {s s' : State} {i w : ℕ} {c' : Call}

lemma of_eq (ok : Refreshes P s) (calls : s'.calls = s.calls) : Refreshes P s' :=
  ⟨fun hc => ok.calls (calls ▸ hc)⟩

lemma mono (ok : Refreshes P s) (imp : ∀ job ep, P job ep → Q job ep) : Refreshes Q s :=
  ⟨fun hc hp => imp _ _ (ok.calls hc hp)⟩

lemma setCall (ok : Refreshes P s) (own : ∀ p, c'.refreshing? = some p → P p.1 p.2) :
    Refreshes P (s.setCall i c') := by
  refine ⟨fun {j d p} hd hp => ?_⟩
  by_cases hj : j = i
  · subst hj
    obtain rfl : c' = d := by simpa using hd
    exact own p hp
  · exact ok.calls (by simpa [hj] using hd) hp

lemma broadcast (ok : Refreshes P s) {msg : WakeResult} : Refreshes P (s.broadcast w msg) := by
  refine ⟨fun {i c p} hc hp => ?_⟩
  obtain ⟨d, hd, rfl⟩ := Option.map_eq_some_iff.mp hc
  exact ok.calls hd (by simpa using hp)

/-- A caller goes on without an endpoint of a refresh. -/
lemma moved (ok : Refreshes P s) (calls : s'.calls = s.calls) (none_ : c'.refreshing? = none) :
    Refreshes P (s'.setCall i c') :=
  (ok.of_eq calls).setCall (by simp [none_])

/-- A refresh returns what it has stored. -/
theorem next {e : Event} (ok : Refreshes P s) (carried : Carried P s) (en : e.enabled s = true) :
    Refreshes P (e.next s) := by
  cases e with
  | begin op => exact (ok.moved rfl (by simp) : Refreshes P (s.setCall s.nextCall op.call)).of_eq rfl
  | spawn i reg w inbox => exact (ok.moved rfl rfl : Refreshes P (s.setCall i (.recv reg w inbox))).of_eq rfl
  | refreshStore i reg current ep =>
    have stored : Refreshes P (s.setEndpoint reg.jobId (some ep)) := ok.of_eq rfl
    refine stored.setCall fun p hp => ?_
    obtain rfl : (reg.jobId, ep) = p := Option.some.inj hp
    exact carried.calls (of_decide_eq_true en) rfl
  | refreshReady i reg current ep =>
    refine (ok.of_eq (by simp)).setCall fun p hp => ?_
    have stored : (reg.jobId, ep) = p := by
      unfold refreshReply at hp
      split at hp <;> exact Option.some.inj hp
    exact stored ▸ ok.calls (of_decide_eq_true en) rfl
  | entry i reg => exact ok.moved (by simp) rfl
  | reset i job by_ => exact ok.moved (by simp) rfl
  | remove i job by_ => exact ok.moved rfl (by simp)
  | fastPath | load | cached | fetched | queried =>
    simp only [Event.next]
    split <;> exact ok.moved rfl rfl
  | tryStart =>
    simp only [Event.next]
    split <;> exact ok.moved rfl rfl
  | store | subscribe | ownSubscribe | recv | timeout => exact ok.moved rfl rfl
  | dropFetch | dropRecv | dropQuery | evict => exact ok.moved rfl rfl
  | sendReady | sendFailure => exact ok.broadcast.of_eq rfl
  | scaled | healthy =>
    simp only [Event.next]
    split <;> exact ok.of_eq rfl
  | pollReceivers =>
    simp only [Event.next]
    split_ifs <;> exact ok.of_eq rfl
  | acquire | publish | storeReady | storeDormant | removeEntry => exact ok.of_eq rfl

end Refreshes
end NScale.WakeCoordinator

namespace NScale.JobRegistry.Store
variable {R R' : JobRegistration → Prop} {s : Store}

/-- Every entry of every table has the property. -/
structure Holds (R : JobRegistration → Prop) (s : Store) : Prop where
  hash : ∀ hash key reg, (s.hash hash).lookup key = some reg → R reg
  space : ∀ space key reg, (s.space space).lookup key = some reg → R reg

namespace Holds

lemma mono (holds : Holds R s) (imp : ∀ reg, R reg → R' reg) : Holds R' s :=
  ⟨fun hash key reg held => imp reg (holds.hash hash key reg held),
    fun space key reg held => imp reg (holds.space space key reg held)⟩

lemma empty : Holds R .empty := by
  constructor
  · intro hash key reg held
    cases hash <;> simp [Store.empty, Store.hash] at held
  · intro space key reg held
    cases space <;> simp [Store.empty, Store.space] at held

lemma setHash (holds : Holds R s) {hash : Hash} {t : Table}
    (all : ∀ key reg, t.lookup key = some reg → R reg) : Holds R (s.setHash hash t) := by
  refine ⟨fun hash' key reg held => ?_, fun space key reg held => ?_⟩
  · rw [RegistryReplicas.hash_setHash] at held
    split_ifs at held
    · exact all key reg held
    · exact holds.hash hash' key reg held
  · rw [RegistryReplicas.space_setHash] at held
    exact holds.space space key reg held

lemma setSpace (holds : Holds R s) {space : Space} {t : Table}
    (all : ∀ key reg, t.lookup key = some reg → R reg) : Holds R (s.setSpace space t) := by
  refine ⟨fun hash key reg held => ?_, fun space' key reg held => ?_⟩
  · have same : (s.setSpace space t).hash hash = s.hash hash := by cases space <;> rfl
    exact holds.hash hash key reg (same ▸ held)
  · rw [RegistryReplicas.space_setSpace] at held
    split_ifs at held
    · exact all key reg held
    · exact holds.space space' key reg held

lemma txn (holds : Holds R s) {o : TxnOp} (own : ∀ reg, o.reg? = some reg → R reg) :
    Holds R (s.txn o) := by
  cases o with
  | put space key reg =>
    exact holds.setSpace (Table.all_insert (holds.space space) (own reg rfl))
  | delete space key => exact holds.setSpace (Table.all_erase (holds.space space))

/-- An operation adds what it writes and nothing else. -/
lemma answer (holds : Holds R s) {op : StoreOp} (own : ∀ reg ∈ op.writes, R reg) :
    Holds R (s.answer op).2 := by
  cases op with
  | hset hash field reg =>
    exact holds.setHash (Table.all_insert (holds.hash hash) (own reg (List.mem_singleton_self reg)))
  | hdel hash field => exact holds.setHash (Table.all_erase (holds.hash hash))
  | etcdTxn ops =>
    change Holds R (ops.foldl Store.txn s)
    induction ops generalizing s with
    | nil => exact holds
    | cons o ops ih =>
      refine ih (holds.txn fun reg same => ?_) fun reg mem => own reg ?_
      · exact own reg (List.mem_filterMap.mpr ⟨o, List.mem_cons_self, same⟩)
      · obtain ⟨o', mem, same⟩ := List.mem_filterMap.mp mem
        exact List.mem_filterMap.mpr ⟨o', List.mem_cons_of_mem _ mem, same⟩
  | _ => exact holds

end Holds
end NScale.JobRegistry.Store

namespace NScale.Deployment
open Service Transition
open WakeCoordinator (Carried Refreshes)

/-- An admin has registered the job and its service. -/
def Registered (h : List Event) (reg : JobRegistration) : Prop := ∃ r, Event.admin r reg ∈ h

/-- Consul or Nomad has answered replica `r` with the endpoint, for the job. -/
def Reported (h : List Event) (r : ℕ) (job : JobId) (ep : Endpoint) : Prop :=
  ∃ ev reg, Event.coord r ev ∈ h ∧ ev.answer? = some (reg, ep) ∧ reg.jobId = job

/-- The thread was started by the arrival of the request. -/
def Serves (cfg : Config) (h : List Event) (i : ℕ) (req : Request) : Prop :=
  ∃ h₁ h₂ s₁ r, h = h₂ ++ .arrive r req :: h₁ ∧ Run (system cfg) h₁ s₁ ∧ s₁.nextThread = i

variable {cfg : Config} {C : Condition State Event} {h : List Event} {s t : State} {e : Event}
  {r i : ℕ} {m : Known} {reg : JobRegistration} {job : JobId} {ep : Endpoint} {req : Request}

lemma Registered.mono (registered : Registered h reg) : Registered (e :: h) reg :=
  registered.imp fun _ mem => List.mem_cons_of_mem _ mem

lemma Reported.mono (reported : Reported h r job ep) : Reported (e :: h) r job ep := by
  obtain ⟨ev, reg, mem, told⟩ := reported
  exact ⟨ev, reg, List.mem_cons_of_mem _ mem, told⟩

lemma Serves.mono (serves : Serves cfg h i req) : Serves cfg (e :: h) i req := by
  obtain ⟨h₁, h₂, s₁, r, rfl, at_⟩ := serves
  exact ⟨h₁, e :: h₂, s₁, r, rfl, at_⟩

/-- Every entry of the registry has been registered and stands under one of its own names. -/
structure Entries (h : List Event) (store : JobRegistry.Store) : Prop where
  placed : store.Placed
  registered : store.Holds (Registered h)

/-- A task knows what is the case. -/
structure Sound (h : List Event) (r : ℕ) (m : Known) : Prop where
  found : ∀ {key reg}, (key, reg) ∈ m.found →
    Registered h reg ∧ (reg.jobId.val = key ∨ reg.serviceName.val = key)
  endpoints : ∀ {job ep}, (job, ep) ∈ m.endpoints → Reported h r job ep

lemma Sound.mono (sound : Sound h r m) : Sound (e :: h) r m :=
  ⟨fun mem => (sound.found mem).imp_left .mono, fun mem => (sound.endpoints mem).mono⟩

lemma Sound.nothing : Sound h r .nothing := ⟨nofun, nofun⟩

/-- What a task knows and names. -/
structure Confined (cfg : Config) (h : List Event) (i : ℕ) (th : Thread) : Prop where
  keeps : ∃ own m, th.code.Meets (nameMonitor own) (fun _ _ => True) m ∧ Sound h th.replica m ∧
    ∀ req, own = some req → Serves cfg h i req

/-- The whole deployment. -/
structure Provenance (cfg : Config) (h : List Event) (s : State) : Prop where
  entries : Entries h s.store
  threads : ∀ {i th}, s.threads i = some th → Confined cfg h i th
  registered : ∀ r, WakeCoordinator.Registered (Registered h) (s.coordinator r)
  carried : ∀ r, Carried (Reported h r) (s.coordinator r)
  refreshes : ∀ r, Refreshes (Reported h r) (s.coordinator r)

/-! ## What a task learns -/

section Learn
variable {store : JobRegistry.Store} {u : State} {own : Own} {key : String}

lemma hash_entry (entries : Entries h store) {hash : JobRegistry.Hash}
    (held : (store.hash hash).lookup key = some reg) :
    Registered h reg ∧ (reg.jobId.val = key ∨ reg.serviceName.val = key) := by
  refine ⟨entries.registered.hash hash key reg held, ?_⟩
  cases hash with
  | byJob => exact .inl (entries.placed.byJob held).symm
  | byService => exact .inr (entries.placed.byService held).symm

lemma space_entry (entries : Entries h store) {space : JobRegistry.Space}
    (held : (store.space space).lookup key = some reg) :
    Registered h reg ∧ (reg.jobId.val = key ∨ reg.serviceName.val = key) := by
  refine ⟨entries.registered.space space key reg held, ?_⟩
  cases space with
  | jobs => exact .inl (entries.placed.jobs held).symm
  | services => exact .inr (entries.placed.services held).symm

lemma Sound.find (sound : Sound h r m) {answer : Result (Option JobRegistration)}
    (true_ : ∀ reg, answer = .ok (some reg) →
      Registered h reg ∧ (reg.jobId.val = key ∨ reg.serviceName.val = key)) :
    Sound h r (m.find key answer) := by
  match answer with
  | .ok (some reg) =>
    refine ⟨fun {key' reg'} mem => ?_, sound.endpoints⟩
    rcases Set.mem_insert_iff.mp mem with same | mem
    · obtain ⟨rfl, rfl⟩ := Prod.mk.inj same
      exact true_ reg' rfl
    · exact sound.found mem
  | .ok none => exact sound
  | .error e => exact sound

lemma Sound.reach (sound : Sound h r m) (reported : Reported h r job ep) : Sound h r (m.reach job ep) := by
  refine ⟨sound.found, fun {job' ep'} mem => ?_⟩
  rcases Set.mem_insert_iff.mp mem with same | mem
  · obtain ⟨rfl, rfl⟩ := Prod.mk.inj same
    exact reported
  · exact sound.endpoints mem

/-- A command that succeeds answers from the store. -/
lemma answer_store {op : JobRegistry.StoreOp} {v : op.Value}
    (answered : s.answer r own (.store op) (.ok v) = some u) :
    v = (s.store.answer op).1 ∧ u.store = (s.store.answer op).2 := by
  simp only [State.answer] at answered
  split at answered
  next told =>
    obtain rfl := Option.some.inj answered
    exact ⟨told, rfl⟩
  next => cases answered

lemma answer_others {op : Op} {a : op.Answer} (other : ∀ o, op ≠ .store o)
    (answered : s.answer r own op a = some u) : u.store = s.store := by
  unfold State.answer at answered
  split at answered
  case h_3 => exact absurd rfl (other _)
  case h_13 =>
    obtain rfl := Option.some.inj answered
    cases own.guard <;> rfl
  all_goals
    first
    | (cases answered; rfl)
    | (split at answered <;> cases answered <;> first | rfl | (split <;> rfl))

lemma Sound.next (sound : Sound h r m) (entries : Entries h s.store)
    (carried : Carried (Reported h r) (s.coordinator r))
    (refreshes : Refreshes (Reported h r) (s.coordinator r)) {op : Op} {a : op.Answer}
    (answered : s.answer r own op a = some u) : Sound h r (m.next op a) := by
  cases op with
  | store op =>
    cases op with
    | hget hash field =>
      refine sound.find fun reg told => ?_
      subst told
      exact hash_entry entries (answer_store answered).1.symm
    | etcdGet space key =>
      refine sound.find fun reg told => ?_
      subst told
      exact space_entry entries (answer_store answered).1.symm
    | _ => exact sound
  | ensured reg c =>
    cases a with
    | error e => exact sound
    | ok ep =>
      simp only [State.answer] at answered
      split at answered
      next returned => exact sound.reach (carried.calls returned rfl)
      next => cases answered
  | refreshed reg c =>
    cases a with
    | error e => exact sound
    | ok result =>
      cases result with
      | updated ep =>
        simp only [State.answer] at answered
        split at answered
        next returned => exact sound.reach (refreshes.calls returned rfl)
        next => cases answered
      | _ => exact sound
  | _ => exact sound

end Learn

/-! ## What a step keeps -/

lemma Confined.mono {th : Thread} (confined : Confined cfg h i th) : Confined cfg (e :: h) i th := by
  obtain ⟨own, m, names, sound, serves⟩ := confined
  exact ⟨own, m, names, sound.mono, fun req same => (serves req same).mono⟩

lemma Confined.of_names {th : Thread} {o : Option Request} (names : Names o th.code m)
    (sound : Sound h th.replica m) (serves : ∀ req, o = some req → Serves cfg h i req) :
    Confined cfg h i th := ⟨o, m, names.mono fun _ _ _ => trivial, sound, serves⟩

/-- A new thread knows nothing, or the registration that an admin has sent. -/
lemma starts_confined {th : Thread} (run : Run (system cfg) h s) (started : starts cfg s e = some th) :
    Confined cfg (e :: h) s.nextThread th := by
  cases e with
  | arrive r req =>
    obtain rfl := Option.some.inj started
    refine .of_names (activityService_names req .nothing) .nothing fun req' same => ?_
    obtain rfl := Option.some.inj same
    exact ⟨h, [], s, r, rfl, run, rfl⟩
  | admin r reg =>
    obtain rfl := Option.some.inj started
    have has : Known.Has ⟨{(reg.jobId.val, reg)}, ∅⟩ reg := ⟨_, rfl⟩
    refine .of_names (o := none) (adminRegister_names has) ⟨?_, nofun⟩ nofun
    rintro key reg' ⟨rfl, rfl⟩
    exact ⟨⟨r, List.mem_cons_self⟩, .inl rfl⟩
  | tick r =>
    obtain rfl := Option.some.inj started
    exact .of_names (o := none) (ScaleDownController.tick_names .nothing) .nothing nofun
  | allocation r a =>
    obtain rfl := Option.some.inj started
    exact .of_names (o := none) (processAllocationEvent_names a .nothing) .nothing nofun
  | op j op a =>
    obtain ⟨parent, -, hs⟩ := Option.bind_eq_some_iff.mp started
    cases op with
    | spawn task =>
      have code : th.code = task.code := by
        cases task <;> obtain rfl := Option.some.inj hs <;> rfl
      exact .of_names (o := none) (code ▸ task_names task .nothing) .nothing nofun
    | _ => simp [spawned] at hs
  | beat j =>
    obtain ⟨parent, -, hs⟩ := Option.bind_eq_some_iff.mp started
    obtain ⟨job, -, rfl⟩ := Option.map_eq_some_iff.mp hs
    exact .of_names (o := none) (task_names (.recordActivity job) .nothing) .nothing nofun
  | _ => simp [starts] at started

namespace Provenance

/-- A thread that performs an operation may name what it names there. -/
lemma performs {op : Op} {a : op.Answer} (prov : Provenance cfg h s)
    (taken : step cfg s (.op i op a) = some t) : ∃ th own m u, s.threads i = some th ∧
      (nameMonitor own).requires m op ∧ Sound h th.replica m ∧
      (∀ req, own = some req → Serves cfg h i req) ∧ s.answer th.replica th.own op a = some u ∧
      t.store = u.store := by
  obtain ⟨th, at_, taken⟩ := Option.bind_eq_some_iff.mp taken
  obtain ⟨code, done, taken⟩ := Option.bind_eq_some_iff.mp taken
  obtain ⟨u, answered, taken⟩ := Option.bind_eq_some_iff.mp taken
  obtain rfl := Option.some.inj taken
  obtain ⟨own, m, names, sound, serves⟩ := prov.threads at_
  have store := congrArg Shared.store (startedAll_shared (u.setThread i
    { th with code := code, own := th.own.after op a }) (spawned th op))
  exact ⟨th, own, m, u, at_, (names.answered done).1, sound, serves, answered, store⟩

lemma entries_next (prov : Provenance cfg h s) (taken : step cfg s e = some t) :
    Entries (e :: h) t.store := by
  have kept : Entries (e :: h) s.store :=
    ⟨prov.entries.placed, prov.entries.registered.mono fun _ => .mono⟩
  rcases step_shared taken with ⟨-, shared⟩ | ⟨i, op, a, -, -, rfl, -, -, -⟩ | ⟨millis, -, shared⟩
  · have store : t.store = s.store := congrArg Shared.store shared
    rwa [store]
  · obtain ⟨th, own, m, u, at_, required, sound, -, answered, store⟩ := prov.performs taken
    rw [store]
    by_cases stores : ∃ o, op = .store o
    · obtain ⟨op, rfl⟩ := stores
      cases a with
      | error e =>
        obtain rfl := Option.some.inj answered
        exact kept
      | ok v =>
        obtain ⟨placed, known⟩ := required
        rw [(answer_store answered).2]
        refine ⟨prov.entries.placed.answer placed, kept.registered.answer fun reg mem => ?_⟩
        obtain ⟨key, found⟩ := known reg mem
        exact (sound.found found).1.mono
    · rwa [answer_others (fun o same => stores ⟨o, same⟩) answered]
  · have store : t.store = s.store := congrArg Shared.store shared
    rwa [store]

lemma threads_next (run : Run (system cfg) h s) (prov : Provenance cfg h s)
    (taken : step cfg s e = some t) {th : Thread} (at_ : t.threads i = some th) :
    Confined cfg (e :: h) i th := by
  rcases thread_cases taken at_ with ⟨before, stood, moved⟩ | ⟨rfl, started⟩
  · cases moved with
    | same other => exact (prov.threads stood).mono
    | relayed done =>
      obtain ⟨own, m, names, sound, serves⟩ := prov.threads stood
      exact ⟨own, m, names, sound.mono, fun req same => (serves req same).mono⟩
    | dropped => exact ⟨none, .nothing, trivial, .nothing, nofun⟩
    | @answered op a code done =>
      obtain ⟨own, m, names, sound, serves⟩ := prov.threads stood
      obtain ⟨th', stood', taken⟩ := Option.bind_eq_some_iff.mp taken
      obtain rfl : before = th' := Option.some.inj (stood.symm.trans stood')
      obtain ⟨code', -, taken⟩ := Option.bind_eq_some_iff.mp taken
      obtain ⟨u, answered, -⟩ := Option.bind_eq_some_iff.mp taken
      have told := sound.next prov.entries (prov.carried _) (prov.refreshes _) answered
      exact ⟨own, _, (names.answered done).2 trivial, told.mono, fun req same => (serves req same).mono⟩
  · exact starts_confined run started

/-- A call is made for a registration that its thread has found. -/
lemma registered_next (prov : Provenance cfg h s) (taken : step cfg s e = some t) (r : ℕ) :
    WakeCoordinator.Registered (Registered (e :: h)) (t.coordinator r) := by
  have kept : WakeCoordinator.Registered (Registered (e :: h)) (s.coordinator r) :=
    ⟨fun hc hr => ((prov.registered r).calls hc hr).mono,
      fun hk hr => ((prov.registered r).tasks hk hr).mono⟩
  rcases coordinator_cases taken r with same | ⟨ev, en, moved, drives⟩
  · exact same ▸ kept
  · rw [moved]
    refine kept.next en fun op reg begins made => ?_
    subst begins
    cases drives with
    | internal own => cases own
    | drops drop => cases drop
    | begins at_ here =>
      obtain ⟨th, own, m, u, -, required, sound, -⟩ := prov.performs taken
      cases op with
      | ensureRunning reg' | refreshEndpoint reg' current =>
        obtain rfl := Option.some.inj made
        obtain ⟨req, -, found⟩ := required
        exact (sound.found found).1.mono
      | markDormant | invalidate => cases made

lemma carried_next (run : Run (system cfg) h s) (prov : Provenance cfg h s)
    (taken : step cfg s e = some t) (r : ℕ) :
    Carried (Reported (e :: h) r) (t.coordinator r) ∧
      Refreshes (Reported (e :: h) r) (t.coordinator r) := by
  have carried : Carried (Reported (e :: h) r) (s.coordinator r) :=
    (prov.carried r).mono fun _ _ => .mono
  have refreshes : Refreshes (Reported (e :: h) r) (s.coordinator r) :=
    (prov.refreshes r).mono fun _ _ => .mono
  rcases coordinator_cases taken r with same | ⟨ev, en, moved, drives⟩
  · exact same ▸ ⟨carried, refreshes⟩
  · rw [moved]
    refine ⟨carried.next (coordinator_wellFormed run r) en fun reg ep told => ?_,
      refreshes.next carried en⟩
    cases drives with
    | internal own => exact ⟨ev, reg, List.mem_cons_self, told, rfl⟩
    | begins => cases told
    | drops drop =>
      cases ev with
      | dropFetch | dropRecv | dropQuery => cases told
      | _ => cases drop

lemma initial (cfg : Config) : Provenance cfg [] (initial cfg) where
  entries := ⟨.empty, .empty⟩
  threads at_ := by simp [Deployment.initial] at at_
  registered r := by
    constructor <;> intros <;> simp_all [State.coordinator, Deployment.initial, WakeCoordinator.initial]
  carried r := by
    constructor <;> intros <;> simp_all [State.coordinator, Deployment.initial, WakeCoordinator.initial]
  refreshes r := by
    constructor; intros; simp_all [State.coordinator, Deployment.initial, WakeCoordinator.initial]

theorem next (run : Run (system cfg) h s) (prov : Provenance cfg h s) (taken : step cfg s e = some t) :
    Provenance cfg (e :: h) t where
  entries := prov.entries_next taken
  threads at_ := threads_next run prov taken at_
  registered r := registered_next prov taken r
  carried r := (carried_next run prov taken r).1
  refreshes r := (carried_next run prov taken r).2

end Provenance

lemma provenance_of_run (run : Run (system cfg) h s) : Provenance cfg h s :=
  run.invariant (Provenance cfg) (.initial cfg) fun _ _ _ _ prior prov taken _ =>
    prov.next prior taken

/-- The request that wakes the echo job is forwarded. -/
def echoSend : Event := .op 1 (.send echoJob WakeCoordinator.echoReady .get "/") ()

lemma exists_echoSend : ∃ h s t, Run (system echoConfig) h s ∧ step echoConfig s echoSend = some t := by
  obtain ⟨h, s, run, taken⟩ := exists_run (T := system echoConfig) (C := fun _ _ _ => True)
    (fun _ s => (step echoConfig s echoSend).isSome = true) echoForwarded.dropLast (by decide)
  obtain ⟨t, taken⟩ := Option.isSome_iff_exists.mp taken
  exact ⟨h, s, t, run, taken⟩

/-- nscale manages registered jobs only: it starts and stops no other group of no other job, and
the registry has no other entry. -/
theorem manages_registered (cfg : Config) (h : List Event) (s t : State) (e : Event)
    (run : Run (system cfg) h s) (taken : step cfg s e = some t) :
    (∀ i job group answer, e = .op i (.scaleDown job group) answer →
      ∃ reg, Registered h reg ∧ reg.jobId = job ∧ reg.nomadGroup = group) ∧
    (∀ r k reg w answer, e = .coord r (.scaled k reg w answer) → Registered h reg) ∧
    (∀ hash key reg, (s.store.hash hash).lookup key = some reg → Registered h reg) ∧
    ∀ space key reg, (s.store.space space).lookup key = some reg → Registered h reg := by
  have prov := provenance_of_run run
  refine ⟨?_, ?_, prov.entries.registered.hash, prov.entries.registered.space⟩
  · rintro i job group answer rfl
    obtain ⟨th, own, m, u, -, ⟨-, reg, ⟨key, found⟩, same, sameGroup⟩, sound, -⟩ := prov.performs taken
    exact ⟨reg, (sound.found found).1, same, sameGroup⟩
  · rintro r k reg w answer rfl
    simp only [step] at taken
    split at taken
    next ok => exact (prov.registered r).tasks (of_decide_eq_true ok.2) rfl
    next => cases taken

/-- Nomad scales the echo job up. -/
theorem echoScaled_managed : ∃ h s, Run (system echoConfig) h s ∧
    (s.coordinator 0).tasks 0 = some (.scaleUp WakeCoordinator.echoReg 0) ∧
    Registered h WakeCoordinator.echoReg := by
  obtain ⟨h, s, run, at_, taken⟩ := exists_run (T := system echoConfig) (C := fun _ _ _ => True)
    (fun _ s => (s.coordinator 0).tasks 0 = some (.scaleUp WakeCoordinator.echoReg 0) ∧
      (step echoConfig s (.coord 0 (.scaled 0 WakeCoordinator.echoReg 0 (.ok ())))).isSome = true)
    (echoArrived ++ (echoForwarded.drop echoArrived.length).take 7) (by decide)
  obtain ⟨t, taken⟩ := Option.isSome_iff_exists.mp taken
  exact ⟨h, s, run, at_, (manages_registered echoConfig h s t _ run taken).2.1 0 0 _ 0 _ rfl⟩

end NScale.Deployment
