import NScale.ScaleDownController
import NScale.RegistryCache
import NScale.Json

/-!
# The event processor alone

The events of the Nomad stream, handled one after the other with no failure and no other
writer. What an event does is put into one function on the state; a whole run then folds this
function over the events of registered jobs.
-/
namespace NScale.EventProcessor
open Service Program JobRegistry

/-- An event of the stream, as far as it is read. -/
structure NomadEvent where
  topic : String
  payload : Json.Value

/-- A string field, read with `get` and `as_str`. -/
def textOf (v : Json.Value) (name : String) : Option String :=
  (v.asObject.bind fun obj => Json.get obj name).bind Json.Value.asStr

/-- What the processor reads of an allocation event; one without a job is passed over. -/
def NomadEvent.allocation (event : NomadEvent) : Option Allocation :=
  if event.topic = "Allocation" then
    (event.payload.asObject.bind fun obj => Json.get obj "Allocation").bind fun alloc =>
      (textOf alloc "JobID").map fun job =>
        { job := ⟨job⟩
          id := (textOf alloc "ID").getD ""
          clientStatus := (textOf alloc "ClientStatus").getD ""
          desiredStatus := (textOf alloc "DesiredStatus").getD "" }
  else none

/-- `EventProcessor::handle_event`, whose error `run` logs. -/
def handleEvent (cfg : Config) (event : NomadEvent) : Code (Result Unit) :=
  match event.allocation with
  | some a => handleAllocationEvent cfg a
  | none => return .ok ()

/-- What the processor reads and writes. The effects on the coordinator are kept, newest
first, each with the allocation whose event had it. -/
structure World where
  readings : ℕ
  activity : AList fun _ : JobId => ℕ
  seenRunning : String → Bool
  store : Store
  effects : List (String × WakeCoordinator.Operation)

def World.start (store : Store) : World := ⟨0, ∅, fun _ => false, store, []⟩

section Alone
-- the readings of the clock, and the allocation whose event is handled
variable (clock : ℕ → ℕ) (alloc : String)

/-- The answers when nothing fails. The processor performs no other operation than these. -/
def handle (op : Op) (w : World) : op.Answer × World :=
  match op with
  | .now => (clock w.readings, { w with readings := w.readings + 1 })
  | .store op => ((w.store.handle op).1, { w with store := (w.store.handle op).2 })
  | .zadd key score => (.ok (), { w with activity := w.activity.insert key score })
  | .zrem key => (.ok (), { w with activity := w.activity.erase key })
  | .seeRunning a =>
    (!w.seenRunning a, { w with seenRunning := Function.update w.seenRunning a true })
  | .forgetRunning a => ((), { w with seenRunning := Function.update w.seenRunning a false })
  | .call op => (w.effects.length, { w with effects := (alloc, op) :: w.effects })
  | .cleared _ _ => ((), w)
  | _ => (default, w)

end Alone

section Run
variable (cfg : Config) (clock : ℕ → ℕ)

/-- The world after one event. -/
def World.receive (w : World) (event : NomadEvent) : World :=
  let alloc := (event.allocation.map Allocation.id).getD ""
  (Program.run (handle clock alloc) (handleEvent cfg event) w).2

/-- The world after a sequence of events. -/
def World.receiveAll (w : World) (events : List NomadEvent) : World :=
  events.foldl (World.receive cfg clock) w

end Run

/-- What the event of a registered job does. -/
def World.apply (clock : ℕ → ℕ) (w : World) (a : Allocation) : World :=
  if a.isRunning then
    if w.seenRunning a.id then w
    else { w with
      readings := w.readings + 1
      activity := w.activity.insert a.job (clock w.readings)
      seenRunning := Function.update w.seenRunning a.id true }
  else if a.isStopped then { w with
      activity := w.activity.erase a.job
      seenRunning := Function.update w.seenRunning a.id false
      effects := (a.id, .markDormant a.job) :: w.effects }
  else w

/-- The registry finds the job. -/
def registered (durable : Bool) (s : Store) (job : JobId) : Bool :=
  ((s.found job.val).or (if durable then s.source job.val else none)).isSome

/-- The store after a lookup. -/
def looked (durable : Bool) (s : Store) (job : JobId) : Store :=
  if durable then s.cachedAll (s.refills job.val) else s

section Spec
variable {cfg : Config} {clock : ℕ → ℕ} {w : World} {a : Allocation}

lemma exec_lookup (durable : Bool) (s : Store) (job : JobId) :
    ∃ found, exec Store.handle (JobRegistry.get durable job) s = (.ok found, looked durable s job) ∧
      found.isSome = registered durable s job := by
  cases durable with
  | true => exact ⟨_, exec_get job, rfl⟩
  | false => exact ⟨_, exec_get_redisOnly job, by simp [registered]⟩

lemma run_registry {α : Type} (x : JobRegistry.Action α) (alloc : String) (w : World) :
    Program.run (handle clock alloc) (registry x) w =
      ((exec Store.handle x w.store).1, { w with store := (exec Store.handle x w.store).2 }) :=
  run_lift (fun s w => { w with store := s }) World.store (fun _ _ => rfl) (fun _ => rfl)
    (fun _ _ _ => rfl) (fun _ _ => rfl) (fun _ _ => rfl) x.run w

/-- An event of a job that is not registered only looks it up. -/
lemma run_handleAllocationEvent (w : World) (a : Allocation) :
    (Program.run (handle clock a.id) (handleAllocationEvent cfg a) w).2 =
      let w' := { w with store := looked cfg.durable w.store a.job }
      if registered cfg.durable w.store a.job then w'.apply clock a else w' := by
  obtain ⟨found, done, some_⟩ := exec_lookup cfg.durable w.store a.job
  rw [handleAllocationEvent, run_bind, run_registry, done, ← some_]
  cases found with
  | none => rfl
  | some reg =>
    simp only [Option.isSome_some, if_true, World.apply]
    by_cases running : a.isRunning = true
    · simp only [running, if_true]
      cases seen : w.seenRunning a.id with
      | true =>
        -- the id is inserted again
        have same : Function.update w.seenRunning a.id true = w.seenRunning := by
          rw [Function.update_eq_self_iff, seen]
        simp only [run_bind, Service.perform, Program.call, Program.run, handle, seen, same]
        rfl
      | false =>
        simp only [run_bind, Service.perform, Program.call, Program.run, handle, seen]
        rfl
    · simp only [running]
      by_cases stopped : a.isStopped = true
      · simp only [stopped, if_true]
        rfl
      · simp only [stopped]
        rfl

end Spec

/-! ## The events that are acted on -/

/-- A lookup never makes the registry lose a job. -/
lemma registered_looked {durable : Bool} {s : Store} {k : JobId}
    (known : registered durable s k = true) (j : JobId) :
    registered durable (looked durable s j) k = true := by
  cases durable with
  | false => exact known
  | true =>
    simp only [registered, looked, if_true, Option.isSome_or, Bool.or_eq_true, Store.found,
      Store.source, Store.lookup_cachedAll_byJob, Store.lookup_cachedAll_byService,
      Store.cachedAll_jobs, Store.cachedAll_services] at known ⊢
    grind

def allocations (events : List NomadEvent) : List Allocation :=
  events.filterMap NomadEvent.allocation

section Handled
variable (durable : Bool)

/-- The allocation events of jobs that the registry finds when they come. -/
def handled (s : Store) : List Allocation → List Allocation
  | [] => []
  | a :: L =>
    if registered durable s a.job then a :: handled (looked durable s a.job) L
    else handled (looked durable s a.job) L

/-- The store after the lookups. -/
def lookedAll (s : Store) (L : List Allocation) : Store :=
  L.foldl (fun s a => looked durable s a.job) s

variable {durable} {s : Store} {L : List Allocation} {job : JobId}

lemma mem_of_mem_handled {a : Allocation} (mem : a ∈ handled durable s L) : a ∈ L := by
  induction L generalizing s with
  | nil => exact mem
  | cons b L ih =>
    rw [handled] at mem
    split_ifs at mem with known
    · exact List.mem_cons.mpr ((List.mem_cons.mp mem).imp_right ih)
    · exact List.mem_cons_of_mem _ (ih mem)

/-- The events of one job. -/
def ofJob (job : JobId) (L : List Allocation) : List Allocation := L.filter fun a => a.job = job

lemma ofJob_cons_self {a : Allocation} (here : a.job = job) (L : List Allocation) :
    ofJob job (a :: L) = a :: ofJob job L := by
  simp [ofJob, here]

lemma ofJob_of_forall (about : ∀ a ∈ L, a.job = job) : ofJob job L = L :=
  List.filter_eq_self.mpr fun a ha => decide_eq_true (about a ha)

/-- Every event of a job that is registered from the start is acted on. -/
lemma ofJob_handled (known : registered durable s job = true) :
    ofJob job (handled durable s L) = ofJob job L := by
  induction L generalizing s with
  | nil => rfl
  | cons a L ih =>
    have rest := ih (registered_looked known a.job)
    by_cases here : a.job = job
    · have found : registered durable s a.job = true := here ▸ known
      rw [handled, if_pos found, ofJob_cons_self here, ofJob_cons_self here, rest]
    · rw [handled]
      split_ifs <;> simpa [ofJob, List.filter_cons, here] using rest

lemma handled_of_job (known : registered durable s job = true) (about : ∀ a ∈ L, a.job = job) :
    handled durable s L = L := by
  have own : ofJob job (handled durable s L) = handled durable s L :=
    ofJob_of_forall fun a ha => about a (mem_of_mem_handled ha)
  rw [← own, ofJob_handled known, ofJob_of_forall about]

end Handled

section Fold
variable {cfg : Config} {clock : ℕ → ℕ}

lemma receive_eq (w : World) (event : NomadEvent) :
    w.receive cfg clock event = match event.allocation with
      | none => w
      | some a =>
        let w' := { w with store := looked cfg.durable w.store a.job }
        if registered cfg.durable w.store a.job then w'.apply clock a else w' := by
  unfold World.receive handleEvent
  cases event.allocation with
  | none => rfl
  | some a => exact run_handleAllocationEvent w a

lemma apply_withStore (w : World) (s : Store) (a : Allocation) :
    World.apply clock { w with store := s } a = { w.apply clock a with store := s } := by
  unfold World.apply
  split_ifs <;> rfl

lemma foldl_withStore (w : World) (s : Store) (L : List Allocation) :
    L.foldl (World.apply clock) { w with store := s } =
      { L.foldl (World.apply clock) w with store := s } := by
  induction L generalizing w with
  | nil => rfl
  | cons a L ih => rw [List.foldl_cons, apply_withStore, ih, List.foldl_cons]

/-- A run makes the lookups of all allocation events, and folds those that are acted on. -/
theorem receiveAll_eq (clock : ℕ → ℕ) (w : World) (events : List NomadEvent) :
    w.receiveAll cfg clock events =
      { (handled cfg.durable w.store (allocations events)).foldl (World.apply clock) w with
        store := lookedAll cfg.durable w.store (allocations events) } := by
  induction events generalizing w with
  | nil => rfl
  | cons event events ih =>
    have next : w.receiveAll cfg clock (event :: events) =
      (w.receive cfg clock event).receiveAll cfg clock events := rfl
    rw [next, receive_eq]
    cases read : event.allocation with
    | none =>
      have same : allocations (event :: events) = allocations events := by
        simp [allocations, read]
      rw [same]
      exact ih w
    | some a =>
      have first : allocations (event :: events) = a :: allocations events := by
        simp [allocations, read]
      rw [first, handled]
      cases known : registered cfg.durable w.store a.job with
      | true =>
        simp only [if_true, known, ih, apply_withStore, foldl_withStore, List.foldl_cons]
        rfl
      | false =>
        simp only [Bool.false_eq_true, if_false, known, ih, foldl_withStore]
        rfl

end Fold

/-! ## What a sequence of relevant events leaves -/

lemma not_isRunning_of_isStopped {a : Allocation} (stopped : a.isStopped = true) :
    a.isRunning = false := by
  simp only [Allocation.isStopped, Allocation.isRunning, decide_eq_true_eq, decide_eq_false_iff_not]
    at stopped ⊢
  rintro ⟨running, run⟩
  rw [running, run] at stopped
  exact absurd stopped (by decide)

/-- Whether the allocation was running or stopped when it was last reported as either. -/
def lastState (id : String) (L : List Allocation) : Option Bool :=
  (L.reverse.find? fun a => a.id = id ∧ (a.isRunning ∨ a.isStopped)).map Allocation.isRunning

def StopOf (job : JobId) (a : Allocation) : Prop := a.job = job ∧ a.isStopped = true

section Apply
variable {clock : ℕ → ℕ}

lemma seenRunning_apply (w : World) (a : Allocation) (id : String) :
    (w.apply clock a).seenRunning id =
      if a.id = id ∧ (a.isRunning ∨ a.isStopped) then a.isRunning else w.seenRunning id := by
  unfold World.apply
  by_cases same : a.id = id
  · subst same
    split_ifs with running seen stopped <;> simp_all
  · have other (b : Bool) : Function.update w.seenRunning a.id b id = w.seenRunning id :=
      Function.update_of_ne (Ne.symm same) _ _
    split_ifs with running seen stopped <;> simp_all

lemma mem_activity_apply (w : World) (a : Allocation) (job : JobId) :
    job ∈ (w.apply clock a).activity ↔
      (a.job = job ∧ a.isRunning = true ∧ w.seenRunning a.id = false) ∨
        (job ∈ w.activity ∧ ¬ StopOf job a) := by
  unfold World.apply StopOf
  by_cases running : a.isRunning = true
  · have stays : a.isStopped ≠ true := fun stopped => by
      simp [not_isRunning_of_isStopped stopped] at running
    by_cases seen : w.seenRunning a.id = true
    · simp [running, seen, stays]
    · have written : job ∈ w.activity.insert a.job (clock w.readings) ↔
          job = a.job ∨ job ∈ w.activity := AList.mem_insert _
      simp only [running, seen, if_true, stays]
      grind
  · by_cases stopped : a.isStopped = true
    · have removed : job ∈ w.activity.erase a.job ↔ job ≠ a.job ∧ job ∈ w.activity :=
        AList.mem_erase
      simp only [running, stopped, if_true]
      grind
    · simp [running, stopped]

lemma effects_apply (w : World) (a : Allocation) : (w.apply clock a).effects =
    if a.isStopped then (a.id, .markDormant a.job) :: w.effects else w.effects := by
  unfold World.apply
  split_ifs with running seen stopped <;> simp_all [not_isRunning_of_isStopped]

end Apply

section Lists
variable {L : List Allocation} {a : Allocation} {id : String} {job : JobId} {clock : ℕ → ℕ} {w : World}

lemma lastState_concat (id : String) (L : List Allocation) (a : Allocation) :
    lastState id (L ++ [a]) =
      if a.id = id ∧ (a.isRunning ∨ a.isStopped) then some a.isRunning else lastState id L := by
  rw [lastState, List.reverse_concat, List.find?_cons]
  split_ifs with h <;> simp [h, lastState]

/-- The set of running allocations that were seen. -/
lemma seenRunning_foldl (w : World) (L : List Allocation) (id : String) :
    (L.foldl (World.apply clock) w).seenRunning id = (lastState id L).getD (w.seenRunning id) := by
  induction L using List.reverseRecOn with
  | nil => rfl
  | append_singleton L a ih =>
    rw [List.foldl_concat, lastState_concat, seenRunning_apply, ih]
    split_ifs <;> rfl

end Lists

/-! ## The visibility of a running job -/

/-- The last event of an allocation. -/
def lastEvent (id : String) (L : List Allocation) : Option Allocation :=
  L.reverse.find? fun a => a.id = id

def lastStop (L : List Allocation) : Option Allocation :=
  L.reverse.find? fun a => a.isStopped

section Visible
variable {L : List Allocation} {id : String} {job : JobId} {clock : ℕ → ℕ} {w : World}

lemma lastStop_concat (L : List Allocation) (a : Allocation) :
    lastStop (L ++ [a]) = if a.isStopped then some a else lastStop L := by
  rw [lastStop, List.reverse_concat, List.find?_cons]
  split <;> simp_all [lastStop]

lemma lastState_of_lastEvent {a : Allocation} (last : lastEvent id L = some a)
    (running : a.isRunning = true) : lastState id L = some true := by
  induction L using List.reverseRecOn with
  | nil => simp [lastEvent] at last
  | append_singleton L b ih =>
    rw [lastEvent, List.reverse_concat, List.find?_cons] at last
    rw [lastState_concat]
    by_cases same : b.id = id
    · obtain rfl : b = a := by simpa [same] using last
      simp [same, running]
    · simp only [same, false_and, if_false]
      exact ih (by simpa [same, lastEvent] using last)

/-- The last effect on the coordinator is that of the last stop. -/
lemma head_effects_foldl (none_ : w.effects = []) (L : List Allocation) :
    (L.foldl (World.apply clock) w).effects.head? =
      (lastStop L).map fun a => (a.id, .markDormant a.job) := by
  induction L using List.reverseRecOn with
  | nil => simp [lastStop, none_]
  | append_singleton L a ih =>
    rw [List.foldl_concat, effects_apply, lastStop_concat]
    split_ifs with stopped
    · rfl
    · exact ih

/-- An allocation that runs keeps the record of its job until another one stops. -/
lemma mem_activity_of_running (about : ∀ a ∈ L, a.job = job)
    (running : (L.foldl (World.apply clock) w).seenRunning id = true)
    (unseen : w.seenRunning id = false) (alone : ∀ a, lastStop L = some a → a.id = id) :
    job ∈ (L.foldl (World.apply clock) w).activity := by
  induction L using List.reverseRecOn with
  | nil => exact absurd running (by simp [unseen])
  | append_singleton L a ih =>
    have about' : ∀ b ∈ L, b.job = job := fun b hb => about b (List.mem_append_left _ hb)
    have here : a.job = job := about a (by simp)
    rw [List.foldl_concat, seenRunning_apply] at running
    rw [List.foldl_concat, mem_activity_apply]
    rw [lastStop_concat] at alone
    by_cases stopped : a.isStopped = true
    · -- the allocation itself stopped, and is not running
      have own : a.id = id := alone a (by simp [stopped])
      simp [own, stopped, not_isRunning_of_isStopped stopped] at running
    · have alone' : ∀ b, lastStop L = some b → b.id = id := by simpa [stopped] using alone
      by_cases first : a.isRunning = true ∧ (L.foldl (World.apply clock) w).seenRunning a.id = false
      · exact .inl ⟨here, first⟩
      · have before : (L.foldl (World.apply clock) w).seenRunning id = true := by
          by_cases reports : a.id = id ∧ (a.isRunning ∨ a.isStopped)
          · rw [if_pos reports] at running
            have seen : (L.foldl (World.apply clock) w).seenRunning a.id = true := by
              simpa [running] using first
            exact reports.1 ▸ seen
          · simpa [reports] using running
        exact .inr ⟨ih about' before alone', fun stop => stopped stop.2⟩

end Visible

/-- The job has an activity record, and the last effect on the coordinator was not that of
the stop of another allocation. -/
def VisibleBy (job : JobId) (id : String) (w : World) : Prop :=
  job ∈ w.activity ∧ ∀ cause, w.effects.head? = some (cause, .markDormant job) → cause = id

/-- While an allocation of a job runs, the job is visible if and only if no other allocation
was the last to stop. -/
theorem visibleBy_iff (cfg : Config) (clock : ℕ → ℕ) (store : Store) (job : JobId) (id : String)
    (events : List NomadEvent) (known : registered cfg.durable store job = true)
    (about : ∀ a ∈ allocations events, a.job = job)
    (running : ∃ a, lastEvent id (allocations events) = some a ∧ a.isRunning = true) :
    VisibleBy job id ((World.start store).receiveAll cfg clock events) ↔
      ∀ a, lastStop (allocations events) = some a → a.id = id := by
  have there : handled cfg.durable (World.start store).store (allocations events) =
    allocations events := handled_of_job known about
  rw [receiveAll_eq, there]
  generalize hL : allocations events = L at about running
  have head : (L.foldl (World.apply clock) (World.start store)).effects.head? =
      (lastStop L).map fun a => (a.id, .markDormant a.job) := head_effects_foldl rfl L
  unfold VisibleBy
  dsimp only
  rw [head]
  constructor
  · rintro ⟨-, own⟩ a last
    refine own a.id ?_
    have mem : a ∈ L := by simpa using List.mem_of_find?_eq_some last
    simp [last, about a mem]
  · intro alone
    obtain ⟨a, last, runs⟩ := running
    have seen : (L.foldl (World.apply clock) (World.start store)).seenRunning id = true := by
      rw [seenRunning_foldl, lastState_of_lastEvent last runs]
      rfl
    refine ⟨mem_activity_of_running about seen rfl alone, fun cause caused => ?_⟩
    obtain ⟨b, stop, same⟩ := Option.map_eq_some_iff.mp caused
    exact (Prod.mk.inj same).1 ▸ alone b stop

def allocationEvent (job id clientStatus desiredStatus : String) : NomadEvent where
  topic := "Allocation"
  payload := .object [("Allocation", .object [("ClientStatus", .string clientStatus),
    ("DesiredStatus", .string desiredStatus), ("ID", .string id), ("JobID", .string job)])]

/-- A store in which one job is registered. -/
def shopStore : Store := (Store.empty.stored webReg).cached webReg

def durableConfig : Config where
  nomadConcurrency := 1
  wakeTimeout := 1
  durable := true
  autoDeregisterEnabled := false
  autoDeregisterThreshold := 1
  idleThreshold := 1
  lockTtl := 1
  trafficProbe := false

/-- The allocations `a` and `b` start, and `b` stops. -/
def twoStarts : List NomadEvent := [allocationEvent "shop" "a" "running" "run",
  allocationEvent "shop" "b" "running" "run"]

def oneStops : List NomadEvent := twoStarts ++ [allocationEvent "shop" "b" "complete" "stop"]

theorem visibleBy_twoStarts :
    VisibleBy ⟨"shop"⟩ "a" ((World.start shopStore).receiveAll durableConfig id twoStarts) ↔
      ∀ a, lastStop (allocations twoStarts) = some a → a.id = "a" :=
  visibleBy_iff durableConfig id shopStore ⟨"shop"⟩ "a" twoStarts (by decide +kernel)
    (by decide +kernel) ⟨⟨⟨"shop"⟩, "a", "running", "run"⟩, by decide +kernel, by decide +kernel⟩

/-- The stop of one allocation makes a job dormant while another one runs. -/
theorem not_visibleBy_oneStops : ¬ ∀ (cfg : Config) (clock : ℕ → ℕ) (store : Store) (job : JobId)
    (id : String) (events : List NomadEvent), registered cfg.durable store job = true →
    (∀ a ∈ allocations events, a.job = job) →
    (∃ a, lastEvent id (allocations events) = some a ∧ a.isRunning = true) →
    VisibleBy job id ((World.start store).receiveAll cfg clock events) := by
  intro all
  obtain ⟨-, own⟩ := all durableConfig id shopStore ⟨"shop"⟩ "a" oneStops (by decide +kernel)
    (by decide +kernel) ⟨⟨⟨"shop"⟩, "a", "running", "run"⟩, by decide +kernel, by decide +kernel⟩
  exact absurd (own "b" (by decide +kernel)) (by decide)

end NScale.EventProcessor
