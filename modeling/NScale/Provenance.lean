import NScale.Footprint
import NScale.ProgramLift

/-!
# What the code may name

The code of a replica knows a registration when a lookup has returned it, and an endpoint when
its wake coordinator has. It names no other registration, job or endpoint in what it writes and
sends, and a request is sent as it came, to a job that was found under its own host.
-/
namespace NScale.JobRegistry

/-- The registrations that an operation writes. -/
def TxnOp.reg? : TxnOp → Option JobRegistration
  | .put _ _ reg => some reg
  | .delete .. => none

def StoreOp.writes : StoreOp → List JobRegistration
  | .hset _ _ reg => [reg]
  | .etcdTxn ops => ops.filterMap TxnOp.reg?
  | _ => []

end NScale.JobRegistry

namespace NScale.Service
open JobRegistry (StoreOp StoreOps)

/-- What a task has been told: registrations, with the strings they were looked up by, and the
endpoints of jobs. -/
@[ext] structure Known where
  found : Set (String × JobRegistration)
  endpoints : Set (JobId × Endpoint)

namespace Known

def nothing : Known := ⟨∅, ∅⟩

instance : Preorder Known where
  le m n := m.found ⊆ n.found ∧ m.endpoints ⊆ n.endpoints
  le_refl _ := ⟨subset_rfl, subset_rfl⟩
  le_trans _ _ _ first second := ⟨first.1.trans second.1, first.2.trans second.2⟩

variable {m n : Known}

def find (m : Known) (lookup : String) : Result (Option JobRegistration) → Known
  | .ok (some reg) => { m with found := insert (lookup, reg) m.found }
  | _ => m

def reach (m : Known) (job : JobId) (ep : Endpoint) : Known :=
  { m with endpoints := insert (job, ep) m.endpoints }

lemma le_find (m : Known) (lookup : String) (answer : Result (Option JobRegistration)) :
    m ≤ m.find lookup answer := by
  match answer with
  | .ok (some reg) => exact ⟨Set.subset_insert .., subset_rfl⟩
  | .ok none => exact le_refl m
  | .error e => exact le_refl m

lemma le_reach (m : Known) (job : JobId) (ep : Endpoint) : m ≤ m.reach job ep :=
  ⟨subset_rfl, Set.subset_insert ..⟩

/-- The registration has been found, under some string. -/
def Has (m : Known) (reg : JobRegistration) : Prop := ∃ lookup, (lookup, reg) ∈ m.found

lemma Has.mono {reg : JobRegistration} (has : m.Has reg) (le : m ≤ n) : n.Has reg :=
  has.imp fun _ mem => le.1 mem

def afterStore (m : Known) : (op : StoreOp) → Result op.Value → Known
  | .hget _ field, answer => m.find field answer
  | .etcdGet _ key, answer => m.find key answer
  | _, _ => m

lemma le_afterStore (m : Known) (op : StoreOp) (answer : Result op.Value) :
    m ≤ m.afterStore op answer := by
  cases op with
  | hget | etcdGet => exact le_find ..
  | _ => exact le_refl m

end Known

/-- The registry writes registrations that are known, under their own keys. -/
def registryMonitor : Monitor StoreOps Known where
  requires m op := op.Placed ∧ ∀ reg ∈ op.writes, m.Has reg
  assumes _ _ _ := True
  next := Known.afterStore

/-- The string by which a request looks its registration up. -/
def Request.lookup (req : Request) : String := firstLabel ((req.host.getD none).getD "")

def Known.next (m : Known) : (op : Op) → op.Answer → Known
  | .store op, answer => m.afterStore op answer
  | .ensured reg _, .ok ep => m.reach reg.jobId ep
  | .refreshed reg _, .ok (.updated ep) => m.reach reg.jobId ep
  | _, _ => m

lemma Known.le_next (m : Known) (op : Op) (answer : op.Answer) : m ≤ m.next op answer := by
  cases op with
  | store op => exact le_afterStore m op answer
  | ensured reg c =>
    cases answer with
    | ok ep => exact le_reach ..
    | error e => exact le_refl m
  | refreshed reg c =>
    match answer with
    | .ok (.updated ep) => exact le_reach ..
    | .ok (.confirmed _) | .ok .missing | .error _ => exact le_refl m
  | _ => exact le_refl m

/-- What a task names that serves this request, or none. A sweep serves none. -/
def nameMonitor (own : Option Request) : Monitor Ops Known where
  requires m
    | .store op => registryMonitor.requires m op
    | .send job ep method uri => ∃ req, own = some req ∧ method = req.method ∧ uri = req.uri ∧
        (∃ reg, (req.lookup, reg) ∈ m.found ∧ reg.jobId = job) ∧ (job, ep) ∈ m.endpoints
    | .call (.ensureRunning reg) | .call (.refreshEndpoint reg _) =>
        ∃ req, own = some req ∧ (req.lookup, reg) ∈ m.found
    | .scaleDown job group =>
        own = none ∧ ∃ reg, m.Has reg ∧ reg.jobId = job ∧ reg.nomadGroup = group
    | .cancelled | .deferral _ | .dropDeferral _ | .defer .. => own = none
    | _ => True
  assumes _ _ _ := True
  next := Known.next

/-- From what is known, whatever it is answered, the code names only what it may. -/
abbrev Names {α : Type} (own : Option Request) (p : Code α) (m : Known) : Prop :=
  p.Meets (nameMonitor own) (fun _ n => m ≤ n) m

/-! ## The registry -/

section Registry
open JobRegistry Known
variable {α : Type} {m : Known} {durable : Bool} {lookup job : JobId} {reg : JobRegistration}

/-- The same for code of the registry. -/
abbrev Writes (x : Action α) (m : Known) : Prop :=
  Program.Meets registryMonitor (fun _ n => m ≤ n) x.run m

lemma Writes.bind {β : Type} {x : Action α} {f : α → Action β} (first : Writes x m)
    (rest : ∀ a n, m ≤ n → Writes (f a) n) : Writes (x >>= f) m :=
  .bind_run first (fun a n le => (rest a n le).mono fun _ _ => le_trans le) fun _ _ => id

lemma Writes.pure (a : α) (m : Known) : Writes (Pure.pure a) m := le_refl m

lemma Writes.throw (e : NscaleError) (m : Known) : Writes (MonadExcept.throw e : Action α) m :=
  le_refl m

/-- An operation that writes nothing, or what is known. -/
lemma performs {op : StoreOp} (placed : op.Placed) (known : ∀ reg ∈ op.writes, m.Has reg) :
    Program.Meets registryMonitor (fun result n => n = m.afterStore op result) (JobRegistry.perform op).run m :=
  ⟨⟨placed, known⟩, fun _ _ => rfl⟩

lemma performs_writes {op : StoreOp} (placed : op.Placed) (known : ∀ reg ∈ op.writes, m.Has reg) :
    Writes (JobRegistry.perform op) m :=
  (performs placed known).mono fun _ _ same => same ▸ le_afterStore ..

lemma performs_find {op : StoreOp} (placed : op.Placed) (reads : op.writes = []) :
    Program.Meets registryMonitor (fun result n => n = m.afterStore op result) (JobRegistry.perform op).run m :=
  performs placed (by simp [reads])

lemma cacheRegistration_writes (has : m.Has reg) : Writes (cacheRegistration reg) m := by
  refine .bind (performs_writes rfl fun r mem => ?_) fun _ n le =>
    performs_writes rfl fun r mem => ?_
  · rwa [List.mem_singleton.mp mem]
  · rw [List.mem_singleton.mp mem]
    exact has.mono le

lemma storeRegistration_writes (has : m.Has reg) : Writes (EtcdClient.storeRegistration reg) m := by
  refine performs_writes (by simp [StoreOp.Placed, TxnOp.Placed]) fun r mem => ?_
  obtain rfl : r = reg := by simpa [StoreOp.writes, TxnOp.reg?] using mem
  exact has

lemma register_writes (has : m.Has reg) : Writes (register durable reg) m := by
  cases durable with
  | false => exact cacheRegistration_writes has
  | true =>
    exact .bind (storeRegistration_writes has) fun _ n le => cacheRegistration_writes (has.mono le)

/-- What a lookup returns is known from then on. -/
def Found (lookup : JobId) (m : Known) (result : Result (Option JobRegistration)) (n : Known) : Prop :=
  m ≤ n ∧ ∀ reg, result = .ok (some reg) → (lookup.val, reg) ∈ n.found

lemma found_find (lookup : JobId) (m : Known) (answer : Result (Option JobRegistration)) :
    Found lookup m answer (m.find lookup.val answer) := by
  refine ⟨le_find .., ?_⟩
  rintro reg rfl
  exact Set.mem_insert ..

lemma Found.trans {n k : Known} {result : Result (Option JobRegistration)}
    (found : Found lookup n result k) (le : m ≤ n) : Found lookup m result k :=
  ⟨le_trans le found.1, found.2⟩

/-- Looking in one place after another. -/
lemma found_bind {x : Action (Option JobRegistration)}
    {f : Option JobRegistration → Action (Option JobRegistration)}
    (first : Program.Meets registryMonitor (Found lookup m) x.run m)
    (hit : ∀ reg n, m ≤ n → (lookup.val, reg) ∈ n.found →
      Program.Meets registryMonitor (Found lookup n) (f (some reg)).run n)
    (miss : ∀ n, m ≤ n → Program.Meets registryMonitor (Found lookup n) (f none).run n) :
    Program.Meets registryMonitor (Found lookup m) (x >>= f).run m := by
  refine .bind_run first (fun answer n found => ?_) fun e n found => ⟨found.1, nofun⟩
  cases answer with
  | some reg => exact (hit reg n found.1 (found.2 reg rfl)).mono fun _ _ after => after.trans found.1
  | none => exact (miss n found.1).mono fun _ _ after => after.trans found.1

lemma found_some {n : Known} (mem : (lookup.val, reg) ∈ n.found) : Program.Meets registryMonitor
    (Found lookup n) (Pure.pure (some reg) : Action (Option JobRegistration)).run n := by
  refine ⟨le_refl n, ?_⟩
  rintro _ ⟨⟩
  exact mem

lemma found_none (n : Known) : Program.Meets registryMonitor (Found lookup n)
    (Pure.pure none : Action (Option JobRegistration)).run n := ⟨le_refl n, nofun⟩

lemma hget_found (hash : Hash) : Program.Meets registryMonitor (Found lookup m)
    (JobRegistry.perform (.hget hash lookup.val)).run m :=
  (performs_find (by trivial) rfl).mono fun result _ same => same ▸ found_find lookup m result

lemma etcdGet_found (space : Space) : Program.Meets registryMonitor (Found lookup m)
    (JobRegistry.perform (.etcdGet space lookup.val)).run m :=
  (performs_find (by trivial) rfl).mono fun result _ same => same ▸ found_find lookup m result

lemma durableHit_found (lookup : JobId) (m : Known) :
    Program.Meets registryMonitor (Found lookup m) (durableHit lookup).run m :=
  found_bind (etcdGet_found .jobs) (fun _ _ _ mem => found_some mem) fun _ _ => etcdGet_found .services

lemma readThrough_found (durable : Bool) (lookup : JobId) (m : Known) :
    Program.Meets registryMonitor (Found lookup m) (readThrough durable lookup).run m := by
  cases durable with
  | false => exact found_none m
  | true =>
    refine found_bind (durableHit_found lookup m) (fun reg n _ mem => ?_) fun n _ => found_none n
    refine .bind_run (cacheRegistration_writes ⟨_, mem⟩) (fun _ k le => ?_) fun _ _ le => ⟨le, nofun⟩
    exact (found_some (le.1 mem)).mono fun _ _ after => after.trans le

lemma get_found (durable : Bool) (lookup : JobId) (m : Known) :
    Program.Meets registryMonitor (Found lookup m) (JobRegistry.get durable lookup).run m := by
  refine found_bind (hget_found .byJob) (fun _ _ _ mem => found_some mem) fun n _ => ?_
  exact found_bind (hget_found .byService) (fun _ _ _ mem => found_some mem) fun n _ =>
    readThrough_found durable lookup n

lemma reads_writes {op : StoreOp} (placed : op.Placed) (reads : op.writes = []) :
    Writes (JobRegistry.perform op) m := performs_writes placed (by simp [reads])

lemma removeServices_writes (job : JobId) (entries : List (String × JobRegistration)) (m : Known) :
    Writes (removeServices job entries) m := by
  induction entries generalizing m with
  | nil => exact .pure () m
  | cons e entries ih =>
    rw [removeServices]
    by_cases own : e.2.jobId = job
    · rw [if_pos own]
      exact .bind (reads_writes (by trivial) rfl) fun _ n _ => ih n
    · rw [if_neg own]
      exact ih m

lemma removeCachedRegistration_writes (job : JobId) (m : Known) :
    Writes (removeCachedRegistration job) m :=
  .bind (reads_writes (by trivial) rfl) fun entries n _ =>
    .bind (removeServices_writes job entries n) fun _ _ _ => reads_writes (by trivial) rfl

lemma removeRegistration_writes (job : JobId) (m : Known) :
    Writes (EtcdClient.removeRegistration job) m := by
  refine .bind (.bind (reads_writes (by trivial) rfl) fun _ n _ => .pure _ n) fun keys n _ => ?_
  refine reads_writes ?_ ?_
  · intro o mem
    rcases List.mem_append.mp mem with service | job
    · obtain ⟨key, -, rfl⟩ := List.mem_map.mp service
      trivial
    · obtain rfl := List.mem_singleton.mp job
      trivial
  · simp [StoreOp.writes, TxnOp.reg?, List.filterMap_append, List.filterMap_map, Function.comp_def]

lemma restore_writes {existing : Option JobRegistration} (has : ∀ reg, existing = some reg → m.Has reg) :
    Writes (restore existing) m := by
  cases existing with
  | none => exact .pure () m
  | some reg =>
    exact .tryCatch_run (storeRegistration_writes (has reg rfl)) (fun _ _ le => le) fun _ _ le => le

lemma deregister_writes (durable : Bool) (job : JobId) (m : Known) :
    Writes (deregister durable job) m := by
  refine .bind_run (get_found durable job m) (fun existing n found => ?_) fun _ _ found => found.1
  cases durable with
  | false => exact (removeCachedRegistration_writes job n).mono fun _ _ => le_trans found.1
  | true =>
    have has : ∀ reg, existing = some reg → n.Has reg := by
      rintro reg rfl
      exact ⟨_, found.2 reg rfl⟩
    have removed : Writes (do
        EtcdClient.removeRegistration job
        tryCatch (removeCachedRegistration job) fun err => do
          restore existing
          throw err) n := by
      refine .bind (removeRegistration_writes job n) fun _ k le => ?_
      refine .tryCatch_run (removeCachedRegistration_writes job k) (fun e k' le' => ?_) fun _ _ => id
      have known := fun reg same => (has reg same).mono (le_trans le le')
      exact (Writes.bind (restore_writes known) fun _ l _ => .throw e l).mono fun _ _ => le_trans le'
    exact removed.mono fun _ _ => le_trans found.1

end Registry

/-! ## The code of a replica -/

section Names
open Known
variable {α β : Type} {own : Option Request} {m n : Known} {cfg : Config}

lemma Names.bind {p : Code α} {f : α → Code β} (first : Names own p m)
    (rest : ∀ a n, m ≤ n → Names own (f a) n) : Names own (p >>= f) m :=
  Program.Meets.bind first fun a n le => (rest a n le).mono fun _ _ => le_trans le

lemma Names.pure (a : α) (m : Known) : Names own (Pure.pure a : Code α) m := le_refl m

lemma perform_names {op : Op} (required : (nameMonitor own).requires m op) :
    Names own (perform op) m := ⟨required, fun a _ => le_next m op a⟩

lemma registry_names {x : JobRegistry.Action α} {post : Result α → Known → Prop}
    (ok : Program.Meets registryMonitor post x.run m) :
    (registry x).Meets (nameMonitor own) post m :=
  .lift (T := Ops) (f := Op.store) (fun _ _ => id) (fun _ _ _ => id) (fun _ _ _ => rfl) ok

/-- What follows a program that is told something may use it. -/
lemma Names.bind_told {p : Code α} {f : α → Code β} {told : α → Known → Prop}
    (first : p.Meets (nameMonitor own) (fun a n => m ≤ n ∧ told a n) m)
    (rest : ∀ a n, m ≤ n → told a n → Names own (f a) n) : Names own (p >>= f) m :=
  Program.Meets.bind first fun a n holds =>
    (rest a n holds.1 holds.2).mono fun _ _ => le_trans holds.1

lemma lookup_names {lookup : JobId} {f : Result (Option JobRegistration) → Code β}
    (hit : ∀ reg n, m ≤ n → (lookup.val, reg) ∈ n.found → Names own (f (.ok (some reg))) n)
    (miss : ∀ n, m ≤ n → Names own (f (.ok none)) n) (failed : ∀ e n, m ≤ n → Names own (f (.error e)) n) :
    Names own (registry (JobRegistry.get cfg.durable lookup) >>= f) m := by
  refine .bind_told (registry_names (get_found cfg.durable lookup m)) fun result n le told => ?_
  match result with
  | .ok (some reg) => exact hit reg n le (told reg rfl)
  | .ok none => exact miss n le
  | .error e => exact failed e n le

lemma recordActivity_names (key : JobId) (m : Known) : Names own (recordActivity key) m :=
  .bind (perform_names trivial) fun _ _ _ => perform_names trivial

lemma recordActivity_then (key : JobId) (m : Known) : Names own (do
    let _ ← recordActivity key
    return ()) m := .bind (recordActivity_names key m) fun _ n _ => .pure () n

lemma markDormant_names (job : JobId) (m : Known) : Names own (markDormant job) m :=
  .bind (perform_names trivial) fun _ _ _ => perform_names trivial

lemma clearMissingJobCounter_names (job : JobId) (m : Known) :
    Names own (clearMissingJobCounter cfg job) m := by
  unfold clearMissingJobCounter
  split
  · exact .bind (perform_names trivial) fun _ n _ => .pure () n
  · exact .pure () m

lemma deregister_names (job : JobId) (m : Known) :
    Names own (registry (JobRegistry.deregister cfg.durable job)) m :=
  registry_names (deregister_writes cfg.durable job m)

lemma cleanupMissingJobState_names (job : JobId) (m : Known) :
    Names own (cleanupMissingJobState cfg job) m := by
  refine .bind (markDormant_names job m) fun _ n _ => .bind (perform_names trivial) fun _ n _ => ?_
  refine .bind (deregister_names job n) fun result n _ => ?_
  cases result with
  | error e => exact .pure _ n
  | ok _ => exact .bind (perform_names trivial) fun _ n _ => .pure _ n

lemma handleMissingJob_names (job : JobId) (source : String) (m : Known) :
    Names own (handleMissingJob cfg job source) m := by
  unfold handleMissingJob
  split
  · exact .pure _ m
  · refine .bind (perform_names trivial) fun counted n _ => ?_
    cases counted with
    | error e => exact .pure _ n
    | ok count =>
      dsimp only
      split
      · refine .bind (cleanupMissingJobState_names job n) fun result n _ => ?_
        cases result <;> exact .pure _ n
      · exact .pure _ n

/-! A request names the registration that it has found and the endpoints it is given. -/

section Request
variable {req : Request} {reg : JobRegistration} {ep : Endpoint}

/-- The request has found the registration. -/
abbrev Finds (req : Request) (reg : JobRegistration) (m : Known) : Prop :=
  (req.lookup, reg) ∈ m.found

lemma ensureRunning_names (finds : Finds req reg m) : (ensureRunning reg).Meets
    (nameMonitor (some req)) (fun result n => m ≤ n ∧
      ∀ ep, result = .ok ep → (reg.jobId, ep) ∈ n.endpoints) m := by
  have asked : Names (some req) (perform (.call (.ensureRunning reg))) m :=
    perform_names ⟨req, rfl, finds⟩
  refine Program.Meets.bind asked fun c n le => ⟨trivial, fun result _ => ⟨le_trans le (le_next n (.ensured reg c) result), ?_⟩⟩
  rintro ep rfl
  exact Set.mem_insert ..

lemma refreshEndpoint_names (finds : Finds req reg m) : (refreshEndpoint reg ep).Meets
    (nameMonitor (some req)) (fun result n => m ≤ n ∧
      ∀ ep, result = .ok (.updated ep) → (reg.jobId, ep) ∈ n.endpoints) m := by
  have asked : Names (some req) (perform (.call (.refreshEndpoint reg ep))) m :=
    perform_names ⟨req, rfl, finds⟩
  refine Program.Meets.bind asked fun c n le => ⟨trivial, fun result _ => ⟨le_trans le (le_next n (.refreshed reg c) result), ?_⟩⟩
  rintro ep rfl
  exact Set.mem_insert ..

/-- What a request may be sent to. -/
abbrev Reaches (req : Request) (job : JobId) (ep : Endpoint) (m : Known) : Prop :=
  (∃ reg, Finds req reg m ∧ reg.jobId = job) ∧ (job, ep) ∈ m.endpoints

lemma Reaches.mono {job : JobId} (reaches : Reaches req job ep m) (le : m ≤ n) :
    Reaches req job ep n :=
  ⟨reaches.1.imp fun _ found => ⟨le.1 found.1, found.2⟩, le.2 reaches.2⟩

lemma send_names {job : JobId} (reaches : Reaches req job ep m) :
    Names (some req) (perform (.send job ep req.method req.uri)) m :=
  perform_names ⟨req, rfl, rfl, rfl, reaches.1, reaches.2⟩

lemma forwardRequest_names {job : JobId} (reaches : Reaches req job ep m) :
    Names (some req) (forwardRequest job ep req.method req.uri) m :=
  .bind (send_names reaches) fun _ _ _ => perform_names trivial

lemma dropLifecycle_names (m : Known) : Names own dropLifecycle m :=
  .bind (perform_names trivial) fun _ _ _ => perform_names trivial

lemma forwardWebsocketUpgrade_names {job : JobId} (reaches : Reaches req job ep m) :
    Names (some req) (forwardWebsocketUpgrade job ep req) m := by
  refine .bind (perform_names trivial) fun connected n le => ?_
  cases connected with
  | error e => exact .bind (dropLifecycle_names n) fun _ n _ => .pure _ n
  | ok _ =>
    refine .bind (send_names (reaches.mono le)) fun _ n _ => .bind (perform_names trivial) fun result n _ => ?_
    cases result with
    | error e => exact .bind (dropLifecycle_names n) fun _ n _ => .pure _ n
    | ok resp =>
      dsimp only
      split
      · exact .bind (perform_names trivial) fun _ n _ => .pure _ n
      · exact .bind (dropLifecycle_names n) fun _ n _ => .pure _ n

lemma retry_names {job : JobId} (reaches : Reaches req job ep m) (delays : List ℕ)
    (err : ForwardRequestError) : Names (some req) (retry job ep req.method req.uri err delays) m := by
  induction delays generalizing err m with
  | nil => exact .pure _ m
  | cons millis delays ih =>
    refine .bind (perform_names trivial) fun _ n le => ?_
    refine .bind (forwardRequest_names (reaches.mono le)) fun result k le' => ?_
    cases result with
    | ok resp => exact .pure _ k
    | error e =>
      dsimp only
      split
      · exact ih (reaches.mono (le_trans le le')) e
      · exact .pure _ k

lemma clearAndForward_names (reaches : Reaches req reg.jobId ep m) : Names (some req) (do
    clearMissingJobCounter cfg reg.jobId
    return toResponse (← forwardRequest reg.jobId ep req.method req.uri)) m :=
  .bind (clearMissingJobCounter_names reg.jobId m) fun _ _ le =>
    .bind (forwardRequest_names (reaches.mono le)) fun _ n _ => .pure _ n

lemma cancelAndHandle_names (source : String) (m : Known) : Names own (do
    perform .cancelHeartbeat
    handleMissingJob cfg reg.jobId source) m :=
  .bind (perform_names trivial) fun _ n _ => handleMissingJob_names reg.jobId source n

lemma rewake_names (finds : Finds req reg m) :
    Names (some req) (rewake cfg reg req.method req.uri) m := by
  refine .bind_told (ensureRunning_names finds) fun woken n le told => ?_
  split
  · exact clearAndForward_names ⟨⟨reg, le.1 finds, rfl⟩, told _ rfl⟩
  · exact cancelAndHandle_names "rewake" n
  · exact .pure _ n

lemma refreshAndRetry_names (finds : Finds req reg m) (err : ForwardRequestError) :
    Names (some req) (refreshAndRetry cfg reg ep req.method req.uri err) m := by
  refine .bind_told (refreshEndpoint_names finds) fun refreshed n le told => ?_
  split
  · exact .bind (clearMissingJobCounter_names reg.jobId n) fun _ n _ => .pure _ n
  · exact clearAndForward_names ⟨⟨reg, le.1 finds, rfl⟩, told _ rfl⟩
  · exact rewake_names (le.1 finds)
  · exact cancelAndHandle_names "refresh" n
  · exact .pure _ n

lemma replayableMethod_eq {method method' : Method} (may : replayableMethod method = some method') :
    method' = method := by
  cases method with
  | get | head => exact (Option.some.inj may).symm
  | other name => cases may

lemma serveOrdinary_names (finds : Finds req reg m) (told : (reg.jobId, ep) ∈ m.endpoints) :
    Names (some req) (serveOrdinary cfg req reg ep) m := by
  have reaches : Reaches req reg.jobId ep m := ⟨⟨reg, finds, rfl⟩, told⟩
  refine .bind (forwardRequest_names reaches) fun result n le => ?_
  cases result with
  | ok resp => exact .pure _ n
  | error err =>
    dsimp only
    split
    · exact .pure _ n
    · cases may : replayableMethod req.method with
      | none => exact .pure _ n
      | some method =>
        obtain rfl := replayableMethod_eq may
        refine .bind (retry_names (reaches.mono le) _ err) fun retried k le' => ?_
        cases retried with
        | ok resp => exact .pure _ k
        | error err => exact refreshAndRetry_names (le'.1 (le.1 finds)) err

lemma serve_names (finds : Finds req reg m) (told : (reg.jobId, ep) ∈ m.endpoints) :
    Names (some req) (serve cfg req reg ep) m := by
  refine .bind (perform_names trivial) fun _ n le => .bind (perform_names trivial) fun _ k le' => ?_
  have both := le_trans le le'
  split
  · exact .bind (forwardWebsocketUpgrade_names ⟨⟨reg, both.1 finds, rfl⟩, both.2 told⟩)
      fun _ n _ => .pure _ n
  · refine .bind (serveOrdinary_names (both.1 finds) (both.2 told)) fun resp _ _ => ?_
    exact .bind (perform_names trivial) fun _ _ _ => .bind (perform_names trivial) fun _ n _ => .pure _ n

lemma wakeAndServe_names (finds : Finds req reg m) :
    Names (some req) (wakeAndServe cfg req reg) m := by
  refine .bind_told (ensureRunning_names finds) fun woken n le told => ?_
  split
  · exact .bind (clearMissingJobCounter_names reg.jobId n) fun _ _ le' =>
      serve_names (le'.1 (le.1 finds)) (le'.2 (told _ rfl))
  · exact handleMissingJob_names reg.jobId "wake" n
  · exact .pure _ n

lemma proxyHandler_names (req : Request) (m : Known) : Names (some req) (proxyHandler cfg req) m := by
  unfold proxyHandler
  cases host : req.host with
  | none => exact .pure _ m
  | some text =>
    have lookup : req.lookup = firstLabel (text.getD "") := by simp [Request.lookup, host]
    refine lookup_names (fun reg n _ mem => ?_) (fun n _ => .pure _ n) fun e n _ => .pure _ n
    exact wakeAndServe_names (by rwa [Finds, lookup])

lemma activityService_names (req : Request) (m : Known) :
    Names (some req) (activityService cfg req) m := by
  unfold activityService
  cases extractJobId req.host with
  | none => exact .bind (proxyHandler_names req m) fun _ n _ => .pure _ n
  | some key =>
    refine .bind (recordActivity_names key m) fun _ n _ => ?_
    exact .bind (proxyHandler_names req n) fun _ _ _ => perform_names trivial

end Request

/-! The other tasks send nothing, and a sweep scales down the registrations that it has found. -/

lemma task_names (task : Task) (m : Known) : Names own task.code m := by
  cases task with
  | recordActivity key => exact recordActivity_then key m
  | releaseLock => exact .bind (perform_names trivial) fun _ n _ => .pure _ n
  | tunnel =>
    exact .bind (perform_names trivial) fun _ _ _ => .bind (perform_names trivial) fun _ _ _ =>
      perform_names trivial

lemma handleAllocationEvent_names (a : Allocation) (m : Known) :
    Names own (handleAllocationEvent cfg a) m := by
  refine lookup_names (fun reg n _ _ => ?_) (fun n _ => .pure _ n) fun e n _ => .pure _ n
  dsimp only
  split
  · refine .bind (perform_names trivial) fun isNew n _ => ?_
    cases isNew with
    | true => exact recordActivity_names a.job n
    | false => exact .pure _ n
  · split
    · refine .bind (perform_names trivial) fun _ n _ => .bind (markDormant_names a.job n) fun _ _ _ => ?_
      exact .bind (perform_names trivial) fun _ n _ => .pure _ n
    · exact .pure _ n

lemma processAllocationEvent_names (a : Allocation) (m : Known) :
    Names own (processAllocationEvent cfg a) m :=
  .bind (handleAllocationEvent_names a m) fun _ n _ => .pure _ n

/-- An admin names the registration that is to be written. -/
lemma adminRegister_names {reg : JobRegistration} (has : m.Has reg) :
    Names own (adminRegister cfg reg) m := by
  refine .bind (registry_names (register_writes has)) fun result n _ => ?_
  cases result with
  | error e => exact .pure _ n
  | ok _ => exact recordActivity_then reg.jobId n

namespace ScaleDownController

lemma clearBaseline_names (key : JobId) (m : Known) : Names none (clearBaseline cfg key) m := by
  unfold clearBaseline
  split
  · exact perform_names trivial
  · exact .pure _ m

lemma hasActiveTraffic_names (key : JobId) (m : Known) : Names none (hasActiveTraffic key) m := by
  refine .bind (perform_names trivial) fun scraped n _ => ?_
  cases scraped with
  | error e => exact .pure _ n
  | ok total =>
    refine .bind (perform_names trivial) fun prev n _ => ?_
    cases prev <;> exact .pure _ n

lemma cleanupMissingJobState_names (key : JobId) (m : Known) :
    Names none (cleanupMissingJobState cfg key) m := by
  refine .bind (markDormant_names key m) fun _ _ _ => .bind (perform_names trivial) fun _ _ _ => ?_
  refine .bind (perform_names rfl) fun _ n _ => .bind (clearBaseline_names key n) fun _ n _ => ?_
  refine .bind (deregister_names key n) fun result n _ => ?_
  cases result with
  | error e => exact .pure _ n
  | ok _ => exact .bind (perform_names trivial) fun _ n _ => .pure _ n

lemma handleMissingJob_names (key : JobId) (m : Known) : Names none (handleMissingJob cfg key) m := by
  unfold handleMissingJob
  split
  · exact .pure _ m
  · refine .bind (perform_names trivial) fun counted n _ => ?_
    cases counted with
    | error e => exact .pure _ n
    | ok count =>
      dsimp only
      split
      · exact .bind (cleanupMissingJobState_names key n) fun _ n _ => .pure _ n
      · exact .pure _ n

lemma handleScaleDownResult_names (key : JobId) (result : Result Unit) (m : Known) :
    Names none (handleScaleDownResult cfg key result) m := by
  unfold handleScaleDownResult
  split
  · refine .bind (markDormant_names key m) fun _ _ _ => .bind (perform_names trivial) fun _ n _ => ?_
    exact .bind (clearBaseline_names key n) fun _ _ _ => perform_names rfl
  · exact .bind (perform_names trivial) fun _ _ _ => .bind (perform_names rfl) fun _ n _ =>
      recordActivity_then key n
  · exact .pure _ m

lemma afterScaleDown_names (key : JobId) (result : Result Unit) (m : Known) :
    Names none (afterScaleDown cfg key result) m := by
  unfold afterScaleDown
  split
  · exact .bind (clearMissingJobCounter_names key m) fun _ n _ => handleScaleDownResult_names key _ n
  · exact handleMissingJob_names key m
  · exact .bind (clearMissingJobCounter_names key m) fun _ n _ => handleScaleDownResult_names key _ n
  · exact handleScaleDownResult_names key _ m

lemma scaleDownRegistered_names (key : JobId) (m : Known) :
    Names none (scaleDownRegistered cfg key) m := by
  refine lookup_names (fun reg n _ mem => ?_) (fun n _ => ?_) fun e n _ => .pure _ n
  · exact .bind (perform_names ⟨rfl, reg, ⟨_, mem⟩, rfl, rfl⟩) fun result n _ =>
      afterScaleDown_names key result n
  · exact .bind (perform_names trivial) fun _ n _ => .pure _ n

lemma unlessTraffic_names (key : JobId) (m : Known) : Names none (unlessTraffic cfg key) m := by
  unfold unlessTraffic
  split
  · refine .bind (hasActiveTraffic_names key m) fun active n _ => ?_
    match active with
    | .error e => exact .pure _ n
    | .ok false => exact scaleDownRegistered_names key n
    | .ok true => exact recordActivity_then key n
  · exact scaleDownRegistered_names key m

lemma unlessInFlight_names (key : JobId) (m : Known) : Names none (unlessInFlight cfg key) m := by
  refine .bind (perform_names trivial) fun busy n _ => ?_
  cases busy with
  | true => exact recordActivity_then key n
  | false => exact unlessTraffic_names key n

lemma scaleDownJob_names (key : JobId) (m : Known) : Names none (scaleDownJob cfg key) m := by
  refine .bind (perform_names rfl) fun deferral n _ => ?_
  cases deferral with
  | none => exact unlessInFlight_names key n
  | some until_ =>
    refine .bind (perform_names trivial) fun now n _ => ?_
    split
    · exact .pure _ n
    · exact .bind (perform_names rfl) fun _ n _ => unlessInFlight_names key n

lemma sweep_names (keys : List JobId) (m : Known) : Names none (sweep cfg keys) m := by
  induction keys generalizing m with
  | nil => exact .pure _ m
  | cons key keys ih =>
    refine .bind (perform_names rfl) fun stop n _ => ?_
    cases stop with
    | true => exact .pure _ n
    | false => exact .bind (scaleDownJob_names key n) fun _ n _ => ih n

lemma tick_names (m : Known) : Names none (tick cfg) m := by
  refine .bind (perform_names trivial) fun acquired n _ => ?_
  match acquired with
  | .error e => exact .pure _ n
  | .ok false => exact .pure _ n
  | .ok true =>
    have idle : Names none (getIdleJobs cfg.idleThreshold) n :=
      .bind (perform_names trivial) fun _ _ _ => perform_names trivial
    refine .bind idle fun found n _ => ?_
    cases found with
    | error e => exact perform_names trivial
    | ok keys => exact .bind (sweep_names keys n) fun _ _ _ => perform_names trivial

end ScaleDownController

end Names

end NScale.Service
