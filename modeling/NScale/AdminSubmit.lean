import NScale.AdminRuns
import NScale.TagRegistrations

/-!
# What a submission registers

`POST /admin/jobs` run alone. Nothing is registered for a job that Nomad has not accepted, and
after an accepted one every Traefik-enabled service of the job is answered by the registry or
reported as a failure.
-/
namespace NScale.JobRegistry
open Program RegistryFailures

/-- Redis holds a registration of the job under the service name. -/
def Store.Serves (s : Store) (job : JobId) (key : String) : Prop :=
  ∃ reg, s.byService.lookup key = some reg ∧ reg.jobId = job

/-- The operations that cache registrations of one job only. -/
def StoreOp.Caches (job : JobId) : StoreOp → Prop
  | .hset _ _ reg => reg.jobId = job
  | .hdel .. => False
  | _ => True

variable {s t : Store} {job : JobId} {key : String} {reg : JobRegistration} {durable : Bool}

lemma register_caches (reg : JobRegistration) :
    Program.Uses (StoreOp.Caches reg.jobId) (register durable reg).run := by
  have cached : Program.Uses (StoreOp.Caches reg.jobId) (cacheRegistration reg).run :=
    .bind_run (perform_uses rfl) fun _ => perform_uses rfl
  cases durable with
  | false => exact cached
  | true => exact .bind_run (perform_uses trivial) fun _ => cached

lemma Store.Serves.answer (serves : s.Serves job key) {op : StoreOp} (caches : op.Caches job) :
    (s.answer op).2.Serves job key := by
  cases op with
  | hset hash field reg =>
    cases hash with
    | byJob => exact serves
    | byService =>
      by_cases same : key = field
      · subst same
        exact ⟨reg, Table.lookup_insert_self, caches⟩
      · obtain ⟨held, at_, own⟩ := serves
        exact ⟨held, (Table.lookup_insert_other same).trans at_, own⟩
  | hdel hash field => exact caches.elim
  | etcdTxn ops =>
    obtain ⟨held, at_, own⟩ := serves
    have kept := congrArg (AList.lookup key) (RegistryReplicas.hash_foldl_txn s ops .byService)
    exact ⟨held, kept.trans at_, own⟩
  | _ => exact serves

lemma Store.Serves.responds (serves : s.Serves job key) {op : StoreOp} {result : Result op.Value}
    (caches : op.Caches job) (responded : Responds op s result t) : t.Serves job key := by
  obtain ⟨applied, responded⟩ := responded
  cases result with
  | ok v =>
    simp only [respond] at responded
    split at responded
    · obtain rfl := Option.some.inj responded
      exact serves.answer caches
    · cases responded
  | error e =>
    obtain rfl := Option.some.inj responded
    cases applied with
    | false => exact serves
    | true => exact serves.answer caches

/-- A registration, whether it fails or not, takes no service from its job. -/
lemma Store.Serves.register {result : Result Unit} (serves : s.Serves reg.jobId key)
    (done : Returns (register durable reg) s result t) : t.Serves reg.jobId key :=
  Triple.of_uses (fun s : Store => s.Serves reg.jobId key) (register_caches reg)
    (fun _ _ _ _ caches serves responded => serves.responds caches responded) s result t serves done

lemma placed_of_register {result : Result Unit} (placed : s.Placed)
    (done : Returns (register durable reg) s result t) : t.Placed := by
  refine Triple.of_uses Store.Placed (register_adds reg) ?_ s result t placed done
  rintro op s result t adds placed ⟨applied, responded⟩
  exact respond_placed placed adds.placed responded

lemma register_plain (durable : Bool) (reg : JobRegistration) : Plain (register durable reg) := by
  cases durable with
  | false => exact cacheRegistration_plain reg
  | true => exact .bind (.perform _) fun _ => cacheRegistration_plain reg

lemma serves_of_register (done : Returns (register durable reg) s (.ok ()) t) :
    t.Serves reg.jobId reg.serviceName.val := by
  have done := (register_plain durable reg).exec_of_runs responds_ok done
  have cached (s : Store) : (s.cached reg).Serves reg.jobId reg.serviceName.val :=
    ⟨reg, Table.lookup_insert_self, rfl⟩
  cases durable with
  | false =>
    obtain rfl : s.cached reg = t := congrArg Prod.snd (exec_cacheRegistration.symm.trans done)
    exact cached s
  | true =>
    obtain rfl : (s.stored reg).cached reg = t := congrArg Prod.snd (exec_register.symm.trans done)
    exact cached (s.stored reg)

/-- The lookup of a service name is answered, and by its job unless another job has the name for
its id. -/
lemma Store.Serves.answered (serves : s.Serves job key) (placed : s.Placed)
    {answer : Option JobRegistration} (got : Returns (get durable ⟨key⟩) s (.ok answer) t) :
    ∃ reg, answer = some reg ∧ (reg.jobId = job ∨ reg.jobId.val = key) := by
  have answered := (exec_get_answers durable ⟨key⟩).symm.trans (exec_of_get got)
  have answered : s.answers durable ⟨key⟩ = answer := Except.ok.inj (Prod.mk.inj answered).1
  obtain ⟨held, at_, own⟩ := serves
  have found : ∃ reg, s.found key = some reg ∧ (reg.jobId = job ∨ reg.jobId.val = key) := by
    cases byJob : s.byJob.lookup key with
    | some reg => exact ⟨reg, by simp [Store.found, byJob], .inr (placed.byJob byJob).symm⟩
    | none => exact ⟨held, by simp [Store.found, byJob, at_], .inl own⟩
  obtain ⟨reg, hit, whose⟩ := found
  refine ⟨reg, ?_, whose⟩
  rw [← answered]
  cases durable with
  | false => exact hit
  | true => simp [Store.answers, hit]

end NScale.JobRegistry

namespace NScale.Admin
open Transition Program Service JobRegistry RegistryFailures JobMutator
open Json (Value)

variable {cfg : Config} {r : ℕ} {job : JobId} {s t : Deployment.State} {w u : World}
variable {durable : Bool}

lemma registered_of_runs {reg : JobRegistration} {result : Result Unit}
    (run : (service (registry (register durable reg))).Runs (Answers cfg r) w result u) :
    RegistryFailures.Returns (register durable reg) w.state.store result u.state.store ∧
      u = { w with state := { w.state with store := u.state.store } } := by
  obtain ⟨run, same⟩ := runs_service run
  obtain ⟨returned, kept⟩ := runs_registry run
  exact ⟨returned, by rw [same, ← kept]⟩

/-- What the loop over the registrations of one job leaves. -/
structure RegisteredAll (job : JobId) (regs : List JobRegistration)
    (failures : List RegistrationFailure) (w u : World) : Prop where
  serves : ∀ reg ∈ regs, (∃ f ∈ failures, f.serviceName = reg.serviceName.val) ∨
    u.state.store.Serves job reg.serviceName.val
  kept : ∀ {key}, w.state.store.Serves job key → u.state.store.Serves job key
  placed : w.state.store.Placed → u.state.store.Placed
  listed : ∀ f ∈ failures, ∃ reg ∈ regs, f.serviceName = reg.serviceName.val
  rest : u = { w with state := { w.state with store := u.state.store } }

lemma registeredAll_of_runs {regs : List JobRegistration} (own : ∀ reg ∈ regs, reg.jobId = job)
    {seeded : List JobId} {failures : List RegistrationFailure}
    (run : (registerAll durable regs).Runs (Answers cfg r) w (seeded, failures) u) :
    RegisteredAll job regs failures w u := by
  induction regs generalizing w seeded failures with
  | nil =>
    obtain ⟨same, rfl⟩ := run
    obtain ⟨rfl, rfl⟩ := Prod.mk.inj same
    exact ⟨nofun, id, id, nofun, rfl⟩
  | cons reg regs ih =>
    obtain ⟨result, v, registered, run⟩ := runs_bind.mp run
    obtain ⟨⟨seeded', failures'⟩, v', looped, run⟩ := runs_bind.mp run
    obtain ⟨returned, same⟩ := registered_of_runs registered
    obtain rfl := own reg List.mem_cons_self
    obtain rfl : v' = u := by cases result <;> exact run.2
    have later := ih (fun reg mem => own reg (List.mem_cons_of_mem _ mem)) looped
    -- the later failures are listed after the one of this registration, if it has failed
    have listed : ∀ f ∈ failures', f ∈ failures := by
      cases result with
      | ok _ =>
        obtain ⟨-, rfl⟩ := Prod.mk.inj run.1
        exact fun f mem => mem
      | error e =>
        obtain ⟨-, rfl⟩ := Prod.mk.inj run.1
        exact fun f mem => List.mem_cons_of_mem _ mem
    refine ⟨fun reg' mem => ?_, fun serves => later.kept (serves.register returned),
      fun placed => later.placed (placed_of_register placed returned), fun f mem => ?_, ?_⟩
    · rcases List.mem_cons.mp mem with rfl | mem
      · cases result with
        | ok _ => exact .inr (later.kept (serves_of_register returned))
        | error e =>
          obtain ⟨-, rfl⟩ := Prod.mk.inj run.1
          exact .inl ⟨_, List.mem_cons_self, rfl⟩
      · exact (later.serves reg' mem).imp_left fun ⟨f, mem, name⟩ => ⟨f, listed f mem, name⟩
    · have here : (∃ e, f = ⟨reg.serviceName.val, e⟩) ∨ f ∈ failures' := by
        cases result with
        | ok _ =>
          obtain ⟨-, rfl⟩ := Prod.mk.inj run.1
          exact .inr mem
        | error e =>
          obtain ⟨-, rfl⟩ := Prod.mk.inj run.1
          exact (List.mem_cons.mp mem).imp_left fun same => ⟨_, same⟩
      rcases here with ⟨e, rfl⟩ | later_
      · exact ⟨reg, List.mem_cons_self, rfl⟩
      · obtain ⟨reg', mem, name⟩ := later.listed f later_
        exact ⟨reg', List.mem_cons_of_mem _ mem, name⟩
    · rw [later.rest, same]

lemma recordActivity_runs {key : JobId} {result : Result Unit}
    (run : (recordActivity key).Runs (Replies cfg r) s result t) :
    t = { s with activity := t.activity } := by
  obtain ⟨now, v, told, run⟩ := runs_bind.mp run
  obtain ⟨time, told, -⟩ := answer_of_replies (runs_call.mp told) rfl
  simp only [Deployment.State.answer] at told
  split at told
  · obtain rfl := Option.some.inj told
    obtain ⟨b, added, -⟩ := answer_of_replies (runs_call.mp run) rfl
    cases b with
    | ok _ =>
      obtain rfl := Option.some.inj added
      rfl
    | error e =>
      obtain rfl := Option.some.inj added
      rfl
  · cases told

lemma seedAll_runs {jobs : List JobId} (run : (seedAll jobs).Runs (Answers cfg r) w () u) :
    u = { w with state := { w.state with activity := u.state.activity } } := by
  induction jobs generalizing w with
  | nil =>
    obtain ⟨-, rfl⟩ := run
    rfl
  | cons job jobs ih =>
    obtain ⟨result, v, seeded, run⟩ := runs_bind.mp run
    obtain ⟨seeded, same⟩ := runs_service seeded
    rw [ih run, same, recordActivity_runs seeded]

lemma jobId_of_managed {parsed out : Value} {fileProviderService : String}
    {managed : List JobRegistration}
    (done : injectNscaleTags parsed fileProviderService = .ok (out, managed)) :
    ∃ jobId, jobIdOf parsed = some jobId ∧ (∀ reg ∈ managed, reg.jobId = ⟨jobId⟩) ∧
      ∀ reg, reg ∈ managed ↔ reg ∈ occurrences jobId parsed := by
  obtain ⟨checked, -⟩ := injectNscaleTags_ok done
  obtain ⟨jobId, id, rfl⟩ := checkJob_ok checked
  have start : Collected jobId [] ⟨[], []⟩ := ⟨by simp, .nil⟩
  have first := (collected_pass ((itemsOf "TaskGroups" parsed).flatMap located) start).first
  rw [List.nil_append] at first
  refine ⟨jobId, id, fun reg mem => ?_, first.mem⟩
  obtain ⟨p, -, rfl⟩ := List.mem_map.mp ((first.mem reg).mp mem)
  rfl

/-- After a submission that Nomad has accepted. -/
structure Accepted (durable : Bool) (parsed job : Value) (status : ℕ) (body : SubmitJobResponse)
    (w u : World) : Prop where
  submitted : u.submitted = job :: w.submitted
  jobId : jobIdOf parsed = some body.jobId
  status : status = if body.registrationFailures = [] then 201 else 207
  managed : ∀ reg, reg ∈ body.managedServices ↔ reg ∈ occurrences body.jobId parsed
  failures : ∀ f ∈ body.registrationFailures, ∃ reg ∈ occurrences body.jobId parsed,
    f.serviceName = reg.serviceName.val
  answered : ∀ reg ∈ occurrences body.jobId parsed,
    (∃ f ∈ body.registrationFailures, f.serviceName = reg.serviceName.val) ∨
    ∀ answer store, RegistryFailures.Returns (get durable ⟨reg.serviceName.val⟩) u.state.store
        (.ok answer) store →
      ∃ found, answer = some found ∧
        (found.jobId.val = body.jobId ∨ found.jobId.val = reg.serviceName.val)
  rest : u.state = { w.state with store := u.state.store, activity := u.state.activity }

/-- What the answer to a submission says about the world it leaves. -/
def Submits (durable : Bool) (fileProviderService : String) (w u : World) : Response → Prop
  | .submitted status body => ∃ parsed job managed,
      injectNscaleTags parsed fileProviderService = .ok (job, managed) ∧
        Accepted durable parsed job status body w u
  | .error _ _ => u.state = w.state
  | _ => False

lemma accepted_of_runs {parsed job : Value} {fileProviderService : String}
    {first : JobRegistration} {managed : List JobRegistration} {response : JobSubmitResponse}
    {answer : Response} {v : World}
    (injected : injectNscaleTags parsed fileProviderService = .ok (job, first :: managed))
    (placed : w.state.store.Placed) (sent : v = { w with submitted := job :: w.submitted })
    (run : (registerSubmitted durable response (first :: managed) first).Runs (Answers cfg r) v
      answer u) :
    Submits durable fileProviderService w u answer := by
  obtain ⟨jobId, id, own, same⟩ := jobId_of_managed injected
  obtain ⟨⟨seeded, failures⟩, v₁, registered, run⟩ := runs_bind.mp run
  obtain ⟨⟨⟩, v₂, seeds, run⟩ := runs_bind.mp run
  obtain ⟨rfl, rfl⟩ := run
  have all := registeredAll_of_runs own registered
  have rest := seedAll_runs seeds
  have store : v₂.state.store = v₁.state.store := by rw [rest]
  obtain rfl : first.jobId.val = jobId := congrArg JobId.val (own first List.mem_cons_self)
  refine ⟨parsed, job, _, injected, ?_, id, ?_, same, fun f mem => ?_, fun reg mem => ?_, ?_⟩
  · rw [rest, all.rest, sent]
  · cases failures <;> rfl
  · obtain ⟨reg, mem, name⟩ := all.listed f mem
    exact ⟨reg, (same reg).mp mem, name⟩
  · refine (all.serves reg ((same reg).mpr mem)).imp_right fun serves answer store' got => ?_
    rw [store] at got
    obtain ⟨found, hit, whose⟩ := serves.answered (all.placed (by rwa [sent])) got
    exact ⟨found, hit, whose.imp_left (congrArg JobId.val)⟩
  · rw [rest, all.rest, sent]

lemma register_returns (durable : Bool) (reg : JobRegistration) (s : Store) :
    ∃ t, RegistryFailures.Returns (register durable reg) s (.ok ()) t := by
  cases durable with
  | false => exact ⟨_, Returns.of_exec exec_cacheRegistration⟩
  | true => exact ⟨_, Returns.of_exec exec_register⟩

lemma runs_registerAll (cfg : Config) (r : ℕ) (durable : Bool) (regs : List JobRegistration) (w : World) :
    ∃ u, (registerAll durable regs).Runs (Answers cfg r) w (regs.map JobRegistration.jobId, []) u := by
  induction regs generalizing w with
  | nil => exact ⟨w, rfl, rfl⟩
  | cons reg regs ih =>
    obtain ⟨store, registered⟩ := register_returns durable reg w.state.store
    obtain ⟨u, looped⟩ := ih { w with state := { w.state with store := store } }
    refine ⟨u, runs_bind.mpr ⟨.ok (), _, service_runs (registry_runs registered), ?_⟩⟩
    exact runs_bind.mpr ⟨_, u, looped, rfl, rfl⟩

lemma runs_seedAll (cfg : Config) (r : ℕ) (jobs : List JobId) (w : World) :
    ∃ u, (seedAll jobs).Runs (Answers cfg r) w () u := by
  induction jobs generalizing w with
  | nil => exact ⟨w, rfl, rfl⟩
  | cons job jobs ih =>
    let scored : Deployment.State :=
      { w.state with activity := w.state.activity.insert job w.state.time }
    obtain ⟨u, looped⟩ := ih { w with state := scored }
    have seeded : (recordActivity job).Runs (Replies cfg r) w.state (.ok ()) scored :=
      runs_bind.mpr ⟨w.state.time, w.state, runs_call.mpr (replies_of_answer (if_pos rfl)),
        runs_call.mpr (replies_of_answer rfl)⟩
    exact ⟨u, runs_bind.mpr ⟨.ok (), _, service_runs seeded, looped⟩⟩

lemma runs_adminSubmitJob {parsed job : Value} {fileProviderService : String}
    {first : JobRegistration} {managed : List JobRegistration}
    (injected : injectNscaleTags parsed fileProviderService = .ok (job, first :: managed))
    (request : SubmitJobRequest) (response : JobSubmitResponse) (w : World) :
    ∃ u body, (adminSubmitJob durable fileProviderService request).Runs (Answers cfg r) w
      (.submitted 201 body) u := by
  let sent : World := { w with submitted := job :: w.submitted }
  obtain ⟨v, registered⟩ := runs_registerAll cfg r durable (first :: managed) sent
  obtain ⟨u, seeded⟩ := runs_seedAll cfg r (treeSet ((first :: managed).map JobRegistration.jobId)) v
  let body : SubmitJobResponse := ⟨first.jobId.val, response.evalId, response.jobModifyIndex,
    response.warnings.filter fun w => !w.isEmpty, first :: managed, []⟩
  refine ⟨u, body, runs_bind.mpr ⟨.ok parsed, w, runs_call.mpr rfl, ?_⟩⟩
  dsimp only
  rw [injected]
  refine runs_bind.mpr ⟨.ok response, sent, runs_call.mpr rfl, ?_⟩
  exact runs_bind.mpr ⟨_, v, registered, runs_bind.mpr ⟨(), u, seeded, rfl, rfl⟩⟩

end NScale.Admin
