import NScale.AdminRuns

/-!
# What a purge leaves

`DELETE /admin/jobs/{job_id}` run alone. A job that is in use is left alone unless the purge is
forced, and a purge that reports success has forgotten the job wherever nscale keeps it.
-/
namespace NScale.Admin
open Transition Program Service JobRegistry RegistryFailures

variable {cfg : Config} {r : ℕ} {job : JobId} {s t : Deployment.State} {w u : World}

/-! ## The clean-up -/

/-- The deployment after a job has been made dormant and other parts have changed with it. -/
def dormant (s : Deployment.State) (r : ℕ) (c : WakeCoordinator.State) (store : Store)
    (activity : AList fun _ : JobId => ℕ) (missing : JobId → ℕ) : Deployment.State :=
  { s.setCoordinator r c with store := store, activity := activity, missing := missing }

/-- What the clean-up leaves, with a warning for every command that has failed. -/
structure CleanedUp (durable : Bool) (r : ℕ) (job : JobId) (s t : Deployment.State)
    (result : Result (List String)) : Prop where
  frame : ∃ c, c.endpoints = Function.update (s.coordinator r).endpoints job none ∧
    t = dormant s r c t.store t.activity t.missing
  store : ∀ {warnings}, result = .ok warnings →
    RegistryFailures.Returns (deregister durable job) s.store (.ok ()) t.store
  activity : t.activity = s.activity.erase job ∨
    t.activity = s.activity ∧ result ≠ .ok []
  missing : t.missing = Function.update s.missing job 0 ∨
    t.missing = s.missing ∧ result ≠ .ok []

lemma warning_ne_nil (what : String) (e : NscaleError) : warning what (.error e) ≠ [] := by
  simp [warning]

lemma cleanedUp_of_runs {durable : Bool} {result : Result (List String)}
    (run : (cleanupAdminJobState durable job).Runs (Answers cfg r) w result u) :
    CleanedUp durable r job w.state u.state result ∧ u = { w with state := u.state } := by
  obtain ⟨⟨⟩, w₁, marked, run⟩ := runs_bind.mp run
  obtain ⟨removed, w₂, erased, run⟩ := runs_bind.mp run
  obtain ⟨gone, w₃, deregistered, run⟩ := runs_bind.mp run
  obtain ⟨marked, same₁⟩ := runs_service marked
  obtain ⟨erased, same₂⟩ := runs_service erased
  obtain ⟨deregistered, same₃⟩ := runs_service deregistered
  obtain ⟨c, dormant₁, evicted⟩ := runs_markDormant marked
  have erased := replies_zrem (runs_call.mp erased)
  obtain ⟨deregistered, kept₃⟩ := runs_registry deregistered
  have activity : w₃.state.activity = w.state.activity.erase job ∨
      w₃.state.activity = w.state.activity ∧ ∃ e, removed = .error e := by
    rw [kept₃]
    rcases erased with done | ⟨same, failed⟩
    · exact .inl (by rw [done, dormant₁]; rfl)
    · exact .inr ⟨by rw [same, dormant₁]; rfl, failed⟩
  have still : w₂.state.store = w.state.store ∧ w₂.state.missing = w.state.missing := by
    rcases erased with done | ⟨done, -⟩ <;> rw [done, dormant₁] <;> exact ⟨rfl, rfl⟩
  have frame : w₃.state = dormant w.state r c w₃.state.store w₃.state.activity w.state.missing := by
    rcases erased with done | ⟨done, -⟩ <;> rw [kept₃, done, dormant₁] <;> rfl
  have same : w₃ = { w with state := w₃.state } := by rw [same₃, same₂, same₁]
  have missing : w₃.state.missing = w.state.missing := by
    rw [frame]
    rfl
  rw [still.1] at deregistered
  cases gone with
  | error e =>
    obtain ⟨rfl, rfl⟩ := run
    exact ⟨⟨⟨c, evicted, by rw [missing]; exact frame⟩, nofun,
      activity.imp_right fun kept => ⟨kept.1, nofun⟩, .inr ⟨missing, nofun⟩⟩, same⟩
  | ok _ =>
    obtain ⟨cleared, w₄, cleared₁, run⟩ := runs_bind.mp run
    obtain ⟨cleared₁, same₄⟩ := runs_service cleared₁
    have cleared₁ := replies_clearNotFound (runs_call.mp cleared₁)
    obtain ⟨rfl, rfl⟩ := run
    have store : w₄.state.store = w₃.state.store := by
      rcases cleared₁ with done | ⟨done, -⟩ <;> rw [done]
    have scores : w₄.state.activity = w₃.state.activity := by
      rcases cleared₁ with done | ⟨done, -⟩ <;> rw [done]
    refine ⟨⟨⟨c, evicted, ?_⟩, fun _ => store ▸ deregistered, ?_, ?_⟩, by rw [same₄, same]⟩
    · rw [store, scores]
      rcases cleared₁ with done | ⟨done, -⟩
      · rw [done, frame]
        rfl
      · rw [done]
        exact missing ▸ frame
    · rw [scores]
      refine activity.imp_right fun ⟨kept, e, failed⟩ => ⟨kept, fun none_ => ?_⟩
      have none_ := (List.append_eq_nil_iff.mp (Except.ok.inj none_)).1
      exact warning_ne_nil _ e (failed ▸ none_)
    · rcases cleared₁ with done | ⟨done, e, failed⟩
      · exact .inl (by rw [done, ← missing])
      · refine .inr ⟨by rw [done, missing], fun none_ => ?_⟩
        have none_ := (List.append_eq_nil_iff.mp (Except.ok.inj none_)).2
        exact warning_ne_nil _ e (failed ▸ none_)

/-! ## The answer to a purge -/

/-- A job that nscale has forgotten. What it knows about other jobs is as it was. -/
structure Forgotten (durable : Bool) (r : ℕ) (job : JobId) (s t : Deployment.State)
    (warnings : List String) : Prop where
  lookups : ∀ lookup reg store,
    RegistryFailures.Returns (get durable lookup) t.store (.ok (some reg)) store → reg.jobId ≠ job
  dormant : ScaleDownTrace.isReady r job t = false
  activity : warnings = [] → t.activity.lookup job = none
  missing : warnings = [] → t.missing job = 0
  registrations : ∀ key reg, reg.jobId ≠ job →
    ((t.store.ofJobs durable).lookup key = some reg ↔
      (s.store.ofJobs durable).lookup key = some reg) ∧
    ((t.store.ofServices durable).lookup key = some reg ↔
      (s.store.ofServices durable).lookup key = some reg)
  others : ∀ other, other ≠ job →
    (t.coordinator r).endpoints other = (s.coordinator r).endpoints other ∧
      t.activity.lookup other = s.activity.lookup other ∧ t.missing other = s.missing other
  replicas : ∀ other, other ≠ r → t.replicas other = s.replicas other

/-- What the answer to a purge says about the world it leaves. -/
def Tells (durable : Bool) (r : ℕ) (job : JobId) (force : Bool) (w u : World) : Response → Prop
  | .conflict key inFlight => key = job ∧ inFlight = w.state.inFlight r job ∧ u = w
  | .notPurged _ key => key = job ∧ u.state = w.state
  | .notCleaned _ key purged => key = job ∧ ScaleDownTrace.isReady r job u.state = false ∧
      (purged = true → u.purged = job :: w.purged)
  | .purged report => report.jobId = job ∧ report.force = force ∧
      report.inFlight = w.state.inFlight r job ∧
      (report.purged = true → u.purged = job :: w.purged) ∧
      Forgotten durable r job w.state u.state report.warnings
  | _ => False

section Purge
variable {durable force : Bool}

lemma coordinator_dormant (s : Deployment.State) (r : ℕ) (c : WakeCoordinator.State) (store : Store)
    (activity : AList fun _ : JobId => ℕ) (missing : JobId → ℕ) :
    (dormant s r c store activity missing).coordinator r = c := coordinator_setCoordinator s r c

lemma CleanedUp.endpoints {result : Result (List String)}
    (clean : CleanedUp durable r job s t result) :
    (t.coordinator r).endpoints = Function.update (s.coordinator r).endpoints job none := by
  obtain ⟨c, evicted, frame⟩ := clean.frame
  rw [frame, coordinator_dormant, evicted]

lemma CleanedUp.isReady {result : Result (List String)}
    (clean : CleanedUp durable r job s t result) : ScaleDownTrace.isReady r job t = false := by
  simp [ScaleDownTrace.isReady, clean.endpoints]

lemma CleanedUp.replicas {result : Result (List String)}
    (clean : CleanedUp durable r job s t result) {other : ℕ} (apart : other ≠ r) :
    t.replicas other = s.replicas other := by
  obtain ⟨c, -, frame⟩ := clean.frame
  rw [frame]
  exact Function.update_of_ne apart ..

lemma CleanedUp.forgotten {warnings : List String} (placed : s.store.Placed)
    (clean : CleanedUp durable r job s t (.ok warnings)) :
    Forgotten durable r job s t warnings := by
  have gone := removed_of_exec (exec_of_deregister (clean.store rfl))
  refine ⟨fun lookup reg store got => ?_, clean.isReady, fun none_ => ?_, fun none_ => ?_,
    fun key reg other => gone.others placed other, fun other apart => ⟨?_, ?_, ?_⟩,
    fun other apart => clean.replicas apart⟩
  · have answered := (exec_get_answers durable lookup).symm.trans (exec_of_get got)
    exact (gone.lacks placed).answers_ne (Except.ok.inj (Prod.mk.inj answered).1)
  · rcases clean.activity with erased | ⟨-, failed⟩
    · rw [erased, AList.lookup_erase]
    · exact absurd (congrArg Except.ok none_) failed
  · rcases clean.missing with cleared | ⟨-, failed⟩
    · rw [cleared, Function.update_self]
    · exact absurd (congrArg Except.ok none_) failed
  · rw [clean.endpoints, Function.update_of_ne apart]
  · rcases clean.activity with erased | ⟨same, -⟩
    · rw [erased, AList.lookup_erase_ne apart]
    · rw [same]
  · rcases clean.missing with cleared | ⟨same, -⟩
    · rw [cleared, Function.update_of_ne apart]
    · rw [same]

lemma tells_of_cleanup {evalId : Option String} {response : Response} {v : World}
    (placed : w.state.store.Placed) (same : v.state = w.state)
    (purged : evalId.isSome = true → v.purged = job :: w.purged)
    (run : (cleanupPurged durable job force (w.state.inFlight r job) evalId).Runs (Answers cfg r) v
      response u) :
    Tells durable r job force w u response ∧ response.status ≠ 409 := by
  obtain ⟨result, u', cleaned, run⟩ := runs_bind.mp run
  obtain ⟨clean, kept⟩ := cleanedUp_of_runs cleaned
  rw [same] at clean
  have told : evalId.isSome = true → u'.purged = job :: w.purged := by
    rw [kept]
    exact purged
  cases result with
  | error e =>
    obtain ⟨rfl, rfl⟩ := run
    exact ⟨⟨rfl, clean.isReady, told⟩, by simp [Response.status]⟩
  | ok warnings =>
    obtain ⟨rfl, rfl⟩ := run
    exact ⟨⟨rfl, rfl, rfl, told, clean.forgotten placed⟩, by simp [Response.status]⟩

/-- A job that is not in use is purged when every step succeeds. -/
lemma adminPurgeJob_runs (free : w.state.inFlight r job = 0) (response : JobStopResponse)
    {store : Store}
    (removed : RegistryFailures.Returns (deregister durable job) w.state.store (.ok ()) store) :
    ∃ u, (adminPurgeJob durable job force).Runs (Answers cfg r) w
      (.purged ⟨job, true, force, 0, some response.evalId, []⟩) u := by
  obtain ⟨c, marked⟩ := markDormant_runs cfg r job w.state
  let stopped : World := { w with purged := job :: w.purged }
  let dormant : World := { stopped with state := w.state.setCoordinator r c }
  let erased : World := { stopped with
    state := { dormant.state with activity := dormant.state.activity.erase job } }
  let deregistered : World := { stopped with state := { erased.state with store := store } }
  let cleared : World := { stopped with
    state := { deregistered.state with
      missing := Function.update deregistered.state.missing job 0 } }
  have cleaned : (cleanupAdminJobState durable job).Runs (Answers cfg r) stopped (.ok []) cleared := by
    refine runs_bind.mpr ⟨(), dormant, service_runs marked, ?_⟩
    refine runs_bind.mpr ⟨.ok (), erased, service_runs (runs_call.mpr (replies_of_answer rfl)), ?_⟩
    refine runs_bind.mpr ⟨.ok (), deregistered, service_runs (registry_runs removed), ?_⟩
    exact runs_bind.mpr
      ⟨.ok (), cleared, service_runs (runs_call.mpr (replies_of_answer rfl)), rfl, rfl⟩
  refine ⟨cleared, runs_bind.mpr ⟨0, w, runs_call.mpr ⟨free.symm, rfl⟩, ?_⟩⟩
  rw [if_neg (by simp)]
  refine runs_bind.mpr ⟨.ok response, stopped, runs_call.mpr rfl, ?_⟩
  exact runs_bind.mpr ⟨.ok [], cleared, cleaned, rfl, rfl⟩

/-- A purge is refused exactly when the job is in use and the purge is not forced, and its answer
tells what it has left. -/
theorem adminPurgeJob_tells (cfg : Config) (r : ℕ) (durable : Bool) (job : JobId) (force : Bool)
    (h : List RegistryFailures.Event) (past : RegistryFailures.State) (w u : World)
    (response : Response) (run : Run (RegistryFailures.system durable) h past)
    (same : w.state.store = past.store)
    (done : (adminPurgeJob durable job force).Runs (Answers cfg r) w response u) :
    (response.status = 409 ↔ 0 < w.state.inFlight r job ∧ force = false) ∧
      Tells durable r job force w u response := by
  have placed : w.state.store.Placed := same ▸ placed_of_run run
  obtain ⟨inFlight, v, counted, done⟩ := runs_bind.mp done
  obtain ⟨rfl, rfl⟩ := runs_call.mp counted
  by_cases refused : 0 < v.state.inFlight r job ∧ force = false
  · rw [if_pos refused] at done
    obtain ⟨rfl, rfl⟩ := done
    exact ⟨iff_of_true rfl refused, rfl, rfl, rfl⟩
  rw [if_neg refused] at done
  obtain ⟨result, v', stopped, done⟩ := runs_bind.mp done
  have stopped := runs_call.mp stopped
  -- the clean-up starts where Nomad has left the replicas
  have cleaned {evalId : Option String} (state : v'.state = v.state)
      (told : evalId.isSome = true → v'.purged = job :: v.purged)
      (rest : (cleanupPurged durable job force (v.state.inFlight r job) evalId).Runs
        (Answers cfg r) v' response u) :
      (response.status = 409 ↔ 0 < v.state.inFlight r job ∧ force = false) ∧
        Tells durable r job force v u response := by
    obtain ⟨tells, other⟩ := tells_of_cleanup placed state told rest
    exact ⟨iff_of_false other refused, tells⟩
  cases result with
  | ok response =>
    obtain rfl := stopped
    exact cleaned rfl (fun _ => rfl) done
  | error e =>
    have state : v'.state = v.state := by rcases stopped with rfl | rfl <;> rfl
    cases e with
    | jobNotFound _ => exact cleaned state (by simp) done
    | _ =>
      obtain ⟨rfl, rfl⟩ := done
      exact ⟨iff_of_false (by simp [Response.status]) refused, rfl, state⟩

/-- A job with two services is purged, and forgotten under both their names. -/
theorem shop_purged : ∃ h past w u, Run (RegistryFailures.system true) h past ∧
    past.store.ofServices true ≠ ∅ ∧
    (adminPurgeJob true ⟨"shop"⟩ false).Runs (Answers Deployment.echoConfig 0) w
      (.purged ⟨⟨"shop"⟩, true, false, 0, some "e1", []⟩) u ∧
    Forgotten true 0 ⟨"shop"⟩ w.state u.state [] := by
  obtain ⟨h, past, run, held⟩ := exists_run (T := RegistryFailures.system true)
    (C := fun _ _ _ => True) (fun _ s => (s.store.services.lookup "shop-web").isSome = true)
    (registering 0 webReg ++ registering 1 apiReg ++ [.lose]) (by decide)
  let w : World := ⟨{ Deployment.initial Deployment.echoConfig with store := past.store }, [], []⟩
  obtain ⟨store, removed, -⟩ := exec_deregister past.store ⟨"shop"⟩
  obtain ⟨u, done⟩ : ∃ u, (adminPurgeJob true ⟨"shop"⟩ false).Runs (Answers Deployment.echoConfig 0) w
      (.purged ⟨⟨"shop"⟩, true, false, 0, some "e1", []⟩) u :=
    adminPurgeJob_runs rfl ⟨"e1", 1, 1⟩ (Returns.of_exec removed)
  have tells := (adminPurgeJob_tells Deployment.echoConfig 0 true ⟨"shop"⟩ false h past w u _ run
    rfl done).2
  refine ⟨h, past, w, u, run, ?_, done, tells.2.2.2.2⟩
  rintro empty
  have none_ : past.store.services = ∅ := empty
  simp [none_] at held

end Purge
end NScale.Admin
