import NScale.EventReplay

/-!
# A failed activity write

One delivery of an event in which the activity record cannot be written, and the repetition of
the event, with other events of the job in between. The run beside it is the one without the
failed delivery.
-/
namespace NScale.EventProcessor
open Service Program JobRegistry

/-- The answers while activity writes fail. Redis may have carried out a write whose reply was
lost. -/
def handleFailing (clock : ℕ → ℕ) (alloc error : String) (applied : Bool) (op : Op) (w : World) :
    op.Answer × World :=
  match op with
  | .zadd key score => (.error (.store error),
      if applied then { w with activity := w.activity.insert key score } else w)
  | op => handle clock alloc op w

/-- The result of `handle_event` and the world after it. -/
def World.receiveFailing (cfg : Config) (clock : ℕ → ℕ) (error : String) (applied : Bool)
    (w : World) (event : NomadEvent) : Result Unit × World :=
  let alloc := (event.allocation.map Allocation.id).getD ""
  Program.run (handleFailing clock alloc error applied) (handleEvent cfg event) w

/-- The job has an activity record, and everything is as in the other world. -/
structure Repeated (job : JobId) (again direct : World) : Prop where
  recorded : job ∈ again.activity
  activity : ∀ key, again.activity.lookup key = direct.activity.lookup key
  seenRunning : again.seenRunning = direct.seenRunning
  effects : again.effects = direct.effects
  store : again.store = direct.store

section Failed
variable {cfg : Config} {clock : ℕ → ℕ} {error : String} {applied : Bool} {w w₁ : World}
  {event : NomadEvent} {a : Allocation} {e : NscaleError}

lemma run_registry_failing {α : Type} (x : JobRegistry.Action α) (alloc : String) (w : World) :
    Program.run (handleFailing clock alloc error applied) (registry x) w =
      ((exec Store.handle x w.store).1, { w with store := (exec Store.handle x w.store).2 }) :=
  run_lift (fun s w => { w with store := s }) World.store (fun _ _ => rfl) (fun _ => rfl)
    (fun _ _ _ => rfl) (fun _ _ => rfl) (fun _ _ => rfl) x.run w

/-- A delivery fails after the allocation was put into the set. -/
lemma receiveFailing_eq (reads : event.allocation = some a)
    (failed : w.receiveFailing cfg clock error applied event = (.error e, w₁)) :
    registered cfg.durable w.store a.job = true ∧ a.isRunning = true ∧
      w.seenRunning a.id = false ∧ w₁ = { w with
        store := looked cfg.durable w.store a.job
        readings := w.readings + 1
        seenRunning := Function.update w.seenRunning a.id true
        activity := if applied then w.activity.insert a.job (clock w.readings) else w.activity } := by
  obtain ⟨found, done, some_⟩ := exec_lookup cfg.durable w.store a.job
  simp only [World.receiveFailing, reads, handleEvent, Option.map_some, Option.getD_some,
    handleAllocationEvent, run_bind, run_registry_failing, done] at failed
  rw [← some_]
  cases found with
  | none => cases failed
  | some reg =>
    by_cases running : a.isRunning = true
    · cases seen : w.seenRunning a.id with
      | true =>
        simp only [running, if_true, run_bind, Service.perform, Program.call, Program.run,
          handleFailing, handle, seen] at failed
        cases failed
      | false =>
        simp only [running, if_true, run_bind, Service.perform, Program.call, Program.run,
          handleFailing, handle, seen, recordActivity] at failed
        refine ⟨rfl, running, rfl, (Prod.mk.inj failed).2.symm.trans ?_⟩
        cases applied <;> rfl
    · by_cases stopped : a.isStopped = true
      · simp only [running, stopped] at failed
        cases failed
      · simp only [running, stopped] at failed
        cases failed

/-- The clock of the run without the failed delivery, which had read it once. -/
def later (clock : ℕ → ℕ) : ℕ → ℕ := fun n => clock (n + 1)

/-- The world after the failed delivery beside the one without it. -/
structure Beside (a : Allocation) (w₁ w : World) : Prop where
  readings : w₁.readings = w.readings + 1
  seenRunning : ∀ id, id ≠ a.id → w₁.seenRunning id = w.seenRunning id
  activity : ∀ key, key ≠ a.job → w₁.activity.lookup key = w.activity.lookup key
  effects : w₁.effects = w.effects

variable {b : Allocation} {L : List Allocation}

lemma lookup_insert_congr {m m' : AList fun _ : JobId => ℕ} {job key : JobId} (n : ℕ)
    (same : key ≠ job → m.lookup key = m'.lookup key) :
    (m.insert job n).lookup key = (m'.insert job n).lookup key := by
  by_cases here : key = job
  · rw [here, AList.lookup_insert, AList.lookup_insert]
  · rw [AList.lookup_insert_ne here, AList.lookup_insert_ne here, same here]

/-- An event of the job that does not report the allocation running again. -/
lemma Beside.apply (beside : Beside a w₁ w) (about : b.job = a.job)
    (other : ¬ (b.id = a.id ∧ b.isRunning = true)) :
    Beside a (w₁.apply clock b) (w.apply (later clock) b) := by
  have updated (v : Bool) (id : String) (away : id ≠ a.id) :
      Function.update w₁.seenRunning b.id v id = Function.update w.seenRunning b.id v id := by
    by_cases here : id = b.id
    · rw [here, Function.update_self, Function.update_self]
    · rw [Function.update_of_ne here, Function.update_of_ne here, beside.seenRunning id away]
  unfold World.apply
  by_cases running : b.isRunning = true
  · have away : b.id ≠ a.id := fun same => other ⟨same, running⟩
    rw [if_pos running, if_pos running, beside.seenRunning b.id away]
    split_ifs
    · exact beside
    · have time : later clock w.readings = clock w₁.readings := by rw [beside.readings, later]
      refine ⟨congrArg (· + 1) beside.readings, updated true, fun key away => ?_, beside.effects⟩
      rw [time]
      exact lookup_insert_congr _ fun _ => beside.activity key away
  · rw [if_neg running, if_neg running]
    split_ifs
    · refine ⟨beside.readings, updated false, fun key away => ?_, by rw [beside.effects]⟩
      rw [about, AList.lookup_erase_ne away, AList.lookup_erase_ne away, beside.activity key away]
    · exact beside

lemma Beside.foldl (clock : ℕ → ℕ) (beside : Beside a w₁ w)
    (about : ∀ b ∈ L, b.job = a.job)
    (other : ∀ b ∈ L, ¬ (b.id = a.id ∧ b.isRunning = true)) :
    Beside a (L.foldl (World.apply clock) w₁) (L.foldl (World.apply (later clock)) w) := by
  induction L generalizing w₁ w with
  | nil => exact beside
  | cons b L ih =>
    exact ih (beside.apply (about b List.mem_cons_self) (other b List.mem_cons_self))
      (fun c mem => about c (List.mem_cons_of_mem _ mem))
      (fun c mem => other c (List.mem_cons_of_mem _ mem))

/-- The allocation is forgotten if it stops. -/
lemma lastState_of_other {id : String} (other : ∀ b ∈ L, ¬ (b.id = id ∧ b.isRunning = true)) :
    lastState id L = if ∃ b ∈ L, b.id = id ∧ b.isStopped = true then some false else none := by
  induction L using List.reverseRecOn with
  | nil => simp [lastState]
  | append_singleton L b ih =>
    have last := other b (by simp)
    rw [lastState_concat, ih fun c mem => other c (List.mem_append_left _ mem)]
    by_cases same : b.id = id
    · have idle : b.isRunning = false := by simpa [same] using last
      by_cases stopped : b.isStopped = true
      · simp [same, idle, stopped]
      · simp [idle, stopped]
    · simp [same]

/-- The repetition, after whatever came in between. -/
lemma repeated_apply_iff (beside : Beside a w₁ w) (store : w₁.store = w.store)
    (running : a.isRunning = true) (unseen : w.seenRunning a.id = false) :
    Repeated a.job (w₁.apply clock a) (w.apply (later clock) a) ↔
      w₁.seenRunning a.id = false ∨ w₁.activity.lookup a.job = some (clock w₁.readings) := by
  have time : later clock w.readings = clock w₁.readings := by rw [beside.readings, later]
  have direct : w.apply (later clock) a = { w with
      readings := w.readings + 1
      activity := w.activity.insert a.job (clock w₁.readings)
      seenRunning := Function.update w.seenRunning a.id true } := by
    simp [World.apply, running, unseen, time]
  have seen : Function.update w₁.seenRunning a.id true =
      Function.update w.seenRunning a.id true := by
    funext id
    by_cases here : id = a.id
    · rw [here, Function.update_self, Function.update_self]
    · rw [Function.update_of_ne here, Function.update_of_ne here, beside.seenRunning id here]
  rw [direct]
  cases known : w₁.seenRunning a.id with
  | false =>
    have again : w₁.apply clock a = { w₁ with
        readings := w₁.readings + 1
        activity := w₁.activity.insert a.job (clock w₁.readings)
        seenRunning := Function.update w₁.seenRunning a.id true } := by
      simp [World.apply, running, known]
    rw [again]
    refine iff_of_true ⟨AList.mem_insert _ |>.mpr (.inl rfl), fun key => ?_, seen,
      beside.effects, store⟩ (.inl rfl)
    exact lookup_insert_congr _ fun away => beside.activity key away
  | true =>
    have again : w₁.apply clock a = w₁ := by simp [World.apply, running, known]
    rw [again]
    constructor
    · intro repeated
      right
      exact (repeated.activity a.job).trans (AList.lookup_insert _)
    · rintro (forgotten | written)
      · cases forgotten
      · refine ⟨AList.lookup_isSome.mp (by simp [written]), fun key => ?_, ?_, beside.effects, store⟩
        · by_cases here : key = a.job
          · rw [here, written, AList.lookup_insert]
          · rw [AList.lookup_insert_ne here, beside.activity key here]
        · rw [← seen, Function.update_eq_self_iff.mpr known.symm]

lemma beside_failed (reads : event.allocation = some a)
    (failed : w.receiveFailing cfg clock error applied event = (.error e, w₁)) : Beside a w₁ w := by
  obtain ⟨-, -, -, rfl⟩ := receiveFailing_eq reads failed
  refine ⟨rfl, fun id away => Function.update_of_ne away _ _, fun key away => ?_, rfl⟩
  cases applied with
  | true => exact AList.lookup_insert_ne away
  | false => rfl

/-! ## The repetition -/

lemma looked_looked (durable : Bool) (s : Store) (job : JobId) :
    looked durable (looked durable s job) job = looked durable s job := by
  cases durable with
  | false => rfl
  | true =>
    simp only [looked, if_true]
    cases known : s.found job.val with
    | some reg => simp [Store.refills, known, Store.cachedAll]
    | none =>
      cases held : s.source job.val with
      | none => simp [Store.refills, known, held, Store.cachedAll]
      | some reg =>
        have cached : s.cachedAll (s.refills job.val) = s.cached reg := by
          simp [Store.refills, known, held, Store.cachedAll]
        have source : (s.cached reg).source job.val = some reg := held
        rw [cached, Store.refills, source]
        split
        · simp [Store.cachedAll, Store.cached, AList.insert_insert]
        · rfl

lemma lookedAll_of_job {durable : Bool} {s : Store} {job : JobId} (about : ∀ b ∈ L, b.job = job) :
    lookedAll durable (looked durable s job) L = looked durable s job := by
  induction L with
  | nil => rfl
  | cons b L ih =>
    rw [lookedAll, List.foldl_cons, about b List.mem_cons_self, looked_looked]
    exact ih fun c mem => about c (List.mem_cons_of_mem _ mem)

lemma lookedAll_concat {durable : Bool} {s : Store} {job : JobId} (about : ∀ b ∈ L, b.job = job)
    (here : a.job = job) : lookedAll durable s (L ++ [a]) = looked durable s job := by
  cases L with
  | nil => simp [lookedAll, here]
  | cons b L =>
    have rest : ∀ c ∈ L ++ [a], c.job = job := by
      intro c mem
      rcases List.mem_append.mp mem with between | last
      · exact about c (List.mem_cons_of_mem _ between)
      · rwa [List.mem_singleton.mp last]
    rw [List.cons_append, lookedAll, List.foldl_cons, about b List.mem_cons_self]
    exact lookedAll_of_job rest

/-- What events of one registered job leave. -/
lemma receiveAll_of_job (K : List NomadEvent) (known : registered cfg.durable w.store a.job = true)
    (about : ∀ b ∈ allocations K, b.job = a.job) : w.receiveAll cfg clock K =
      { (allocations K).foldl (World.apply clock) w with
        store := lookedAll cfg.durable w.store (allocations K) } := by
  rw [receiveAll_eq, handled_of_job known about]

end Failed

/-- An event whose activity write failed is handled again, after other events of its job. The
failed delivery leaves no difference exactly when the allocation was reported stopped in
between, or the job has a record of the very time of the repetition. -/
theorem repeated_iff (cfg : Config) (clock : ℕ → ℕ) (error : String) (applied : Bool)
    (w w₁ : World) (event : NomadEvent) (a : Allocation) (K : List NomadEvent) (e : NscaleError)
    (reads : event.allocation = some a)
    (failed : w.receiveFailing cfg clock error applied event = (.error e, w₁))
    (about : ∀ b ∈ allocations K, b.job = a.job ∧ ¬ (b.id = a.id ∧ b.isRunning = true)) :
    Repeated a.job (w₁.receiveAll cfg clock (K ++ [event]))
        (w.receiveAll cfg (later clock) (K ++ [event])) ↔
      (∃ b ∈ allocations K, b.id = a.id ∧ b.isStopped = true) ∨
        (w₁.receiveAll cfg clock K).activity.lookup a.job =
          some (clock (w₁.receiveAll cfg clock K).readings) := by
  obtain ⟨known, running, unseen, left_⟩ := receiveFailing_eq reads failed
  have store : w₁.store = looked cfg.durable w.store a.job := congrArg World.store left_
  have seen : w₁.seenRunning a.id = true := by
    rw [left_]
    exact Function.update_self ..
  have known₁ : registered cfg.durable w₁.store a.job = true := by
    rw [store]
    exact registered_looked known a.job
  have jobs : ∀ b ∈ allocations K, b.job = a.job := fun b mem => (about b mem).1
  have others : ∀ b ∈ allocations K, ¬ (b.id = a.id ∧ b.isRunning = true) :=
    fun b mem => (about b mem).2
  have all : allocations (K ++ [event]) = allocations K ++ [a] := by simp [allocations, reads]
  have jobs' : ∀ b ∈ allocations (K ++ [event]), b.job = a.job := by
    intro b mem
    rcases List.mem_append.mp (all ▸ mem) with between | last
    · exact jobs b between
    · rw [List.mem_singleton.mp last]
  rw [receiveAll_of_job _ known₁ jobs', receiveAll_of_job _ known jobs',
    receiveAll_of_job _ known₁ jobs, store, lookedAll_of_job jobs', lookedAll_of_job jobs, all,
    lookedAll_concat jobs rfl, List.foldl_concat, List.foldl_concat, ← apply_withStore,
    ← apply_withStore]
  have beside := (beside_failed reads failed).foldl clock jobs others
  have beside' : Beside a
      { (allocations K).foldl (World.apply clock) w₁ with
        store := looked cfg.durable w.store a.job }
      { (allocations K).foldl (World.apply (later clock)) w with
        store := looked cfg.durable w.store a.job } :=
    ⟨beside.readings, beside.seenRunning, beside.activity, beside.effects⟩
  have unseen' : ((allocations K).foldl (World.apply (later clock)) w).seenRunning a.id = false := by
    rw [seenRunning_foldl, lastState_of_other others]
    split_ifs
    · rfl
    · exact unseen
  have forgotten : ((allocations K).foldl (World.apply clock) w₁).seenRunning a.id = false ↔
      ∃ b ∈ allocations K, b.id = a.id ∧ b.isStopped = true := by
    rw [seenRunning_foldl, lastState_of_other others]
    split_ifs with stops
    · exact iff_of_true rfl stops
    · simp [stops, seen]
  exact (repeated_apply_iff beside' rfl running unseen').trans (or_congr_left forgotten)

def shopStarts : NomadEvent := allocationEvent "shop" "a" "running" "run"

def shopStops : NomadEvent := allocationEvent "shop" "a" "complete" "stop"

/-- The world after a start of the job whose write failed. -/
def shopFailed : World :=
  ((World.start shopStore).receiveFailing durableConfig id "down" false shopStarts).2

theorem shopFailed_repeated :
    Repeated ⟨"shop"⟩ (shopFailed.receiveAll durableConfig id ([shopStops] ++ [shopStarts]))
        ((World.start shopStore).receiveAll durableConfig (later id)
          ([shopStops] ++ [shopStarts])) ↔
      (∃ b ∈ allocations [shopStops], b.id = "a" ∧ b.isStopped = true) ∨
        (shopFailed.receiveAll durableConfig id [shopStops]).activity.lookup ⟨"shop"⟩ =
          some (id (shopFailed.receiveAll durableConfig id [shopStops]).readings) :=
  repeated_iff durableConfig id "down" false (World.start shopStore) shopFailed shopStarts
    ⟨⟨"shop"⟩, "a", "running", "run"⟩ [shopStops] (.store "down") (by decide +kernel)
    (Prod.ext (by decide +kernel) rfl) (by decide +kernel)

/-- The write fails, and the repetition finds the allocation in the set. -/
theorem write_lost :
    ((World.start shopStore).receiveFailing durableConfig id "down" false shopStarts).1 =
      .error (.store "down") ∧
    ¬ Repeated ⟨"shop"⟩ (shopFailed.receiveAll durableConfig id [shopStarts])
      ((World.start shopStore).receiveAll durableConfig (later id) [shopStarts]) := by
  refine ⟨by decide +kernel, fun repeated => ?_⟩
  exact absurd repeated.recorded (by decide +kernel)

end NScale.EventProcessor
