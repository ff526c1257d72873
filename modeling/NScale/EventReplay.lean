import NScale.EventProcessor

/-!
# Events that are delivered again

After a reconnect the last events come again. What they do a second time depends on the set
of allocations seen running, which the first delivery left behind.
-/
namespace NScale.EventProcessor
open Service JobRegistry

def jobOf : WakeCoordinator.Operation → JobId
  | .ensureRunning reg | .refreshEndpoint reg _ => reg.jobId
  | .markDormant job | .invalidate job => job

/-- The last effect on the coordinator that is about the job made it dormant. -/
def World.Dormant (w : World) (job : JobId) : Prop :=
  (w.effects.find? fun e => jobOf e.2 = job).map Prod.snd = some (.markDormant job)

/-- The same jobs have an activity record, and the same jobs are dormant. -/
def SameJobs (w w' : World) : Prop :=
  ∀ job, (job ∈ w.activity ↔ job ∈ w'.activity) ∧ (w.Dormant job ↔ w'.Dormant job)

/-- Nomad's ids of allocations: an allocation belongs to one job. -/
def OneJobEach (L : List Allocation) : Prop := ∀ a ∈ L, ∀ b ∈ L, a.id = b.id → a.job = b.job

instance (L : List Allocation) : Decidable (OneJobEach L) :=
  inferInstanceAs (Decidable (∀ a ∈ L, ∀ b ∈ L, _ → _))

/-- An event of the list with the events before it, and no stop of the job after it. -/
def LastBefore (job : JobId) (P : List Allocation → Allocation → Prop) (L : List Allocation) : Prop :=
  ∃ p r q, L = p ++ r :: q ∧ P p r ∧ ∀ b ∈ q, ¬ StopOf job b

/-- After its last stop in the list, an allocation of the job was reported running. What was
reported of it before, also in what precedes the list, has the property. -/
def Begins (job : JobId) (known : Option Bool → Prop) (before : List Allocation) :
    List Allocation → Prop :=
  LastBefore job fun p r => r.job = job ∧ r.isRunning = true ∧ known (lastState r.id (before ++ p))

/-- The record of a job that was not known to run. -/
abbrev Recorded (job : JobId) (L : List Allocation) : Prop := Begins job (· ≠ some true) [] L

/-- The same of an allocation that was itself reported stopped in the list before. -/
abbrev Restarted (job : JobId) (L : List Allocation) : Prop := Begins job (· = some false) [] L

/-- The events `K` after the events `H` change nothing about the job. -/
def Unchanged (job : JobId) (H K : List Allocation) : Prop :=
  (Begins job (· ≠ some true) H K → Recorded job H) ∧
    ((∃ a ∈ K, StopOf job a) → (∃ a ∈ H, StopOf job a) ∧
      (Recorded job H → Begins job (· ≠ some true) H K))

section Lists
variable {L H K p q : List Allocation} {a r : Allocation} {job : JobId} {clock : ℕ → ℕ} {w : World}
  {known : Option Bool → Prop}

lemma dormant_apply (w : World) (a : Allocation) (job : JobId) :
    (w.apply clock a).Dormant job ↔ StopOf job a ∨ w.Dormant job := by
  unfold World.Dormant StopOf
  rw [effects_apply]
  by_cases stopped : a.isStopped = true
  · by_cases same : a.job = job <;> simp [stopped, same, jobOf]
  · simp [stopped]

/-- A job is made dormant by the stop of any of its allocations. -/
lemma dormant_foldl (w : World) (L : List Allocation) (job : JobId) :
    (L.foldl (World.apply clock) w).Dormant job ↔ (∃ a ∈ L, StopOf job a) ∨ w.Dormant job := by
  induction L using List.reverseRecOn with
  | nil => simp
  | append_singleton L a ih =>
    rw [List.foldl_concat, dormant_apply, ih]
    simp only [List.mem_append, List.mem_singleton, or_and_right, exists_or, exists_eq_left]
    rw [← or_assoc, or_comm (a := StopOf job a)]

lemma lastBefore_concat {P : List Allocation → Allocation → Prop} :
    LastBefore job P (L ++ [a]) ↔ P L a ∨ (LastBefore job P L ∧ ¬ StopOf job a) := by
  constructor
  · rintro ⟨p, r, q, split, held, after⟩
    rcases List.eq_nil_or_concat q with rfl | ⟨q, b, rfl⟩
    · obtain ⟨rfl, last⟩ := List.append_inj' split rfl
      obtain rfl : a = r := by simpa using last
      exact .inl held
    · have split' : L ++ [a] = (p ++ r :: q) ++ [b] := by simpa using split
      obtain ⟨rfl, last⟩ := List.append_inj' split' rfl
      obtain rfl : a = b := by simpa using last
      exact .inr ⟨⟨p, r, q, rfl, held, fun c hc => after c (by simp [hc])⟩, after a (by simp)⟩
  · rintro (held | ⟨⟨p, r, q, rfl, held, after⟩, here⟩)
    · exact ⟨L, a, [], rfl, held, by simp⟩
    · refine ⟨p, r, q ++ [a], by simp, held, fun b hb => ?_⟩
      rcases List.mem_append.mp hb with earlier | last
      · exact after b earlier
      · obtain rfl : b = a := by simpa using last
        exact here

/-- The job has an activity record if one was written after its last stop. -/
lemma mem_activity_foldl (w : World) (L : List Allocation) (job : JobId) :
    job ∈ (L.foldl (World.apply clock) w).activity ↔
      LastBefore job (fun p r => r.job = job ∧ r.isRunning = true ∧
        (lastState r.id p).getD (w.seenRunning r.id) = false) L ∨
      (job ∈ w.activity ∧ ∀ a ∈ L, ¬ StopOf job a) := by
  induction L using List.reverseRecOn with
  | nil => simp [LastBefore]
  | append_singleton L a ih =>
    rw [List.foldl_concat, mem_activity_apply, seenRunning_foldl, ih, lastBefore_concat]
    simp only [List.mem_append, List.mem_singleton, or_imp, forall_and, forall_eq]
    grind

lemma lastState_append (id : String) (p q : List Allocation) :
    lastState id (p ++ q) = (lastState id q).or (lastState id p) := by
  simp only [lastState, List.reverse_append, List.find?_append]
  cases List.find? _ q.reverse <;> rfl

/-- What two sequences leave, one after the other, depends on the known states between them. -/
lemma unchanged_iff (clock : ℕ → ℕ) (s : Store) (H K : List Allocation) (job : JobId) :
    Unchanged job H K ↔
      (job ∈ ((H ++ K).foldl (World.apply clock) (World.start s)).activity ↔
        job ∈ (H.foldl (World.apply clock) (World.start s)).activity) ∧
      (((H ++ K).foldl (World.apply clock) (World.start s)).Dormant job ↔
        (H.foldl (World.apply clock) (World.start s)).Dormant job) := by
  have unseen (o o' : Option Bool) : o.getD (o'.getD false) = false ↔ o.or o' ≠ some true := by
    rcases o with _ | _ | _ <;> rcases o' with _ | _ | _ <;> simp
  have start (id : String) : (World.start s).seenRunning id = false := rfl
  have empty : job ∉ (World.start s).activity := AList.notMem_empty _
  have first : job ∈ (H.foldl (World.apply clock) (World.start s)).activity ↔ Recorded job H := by
    have none_ (o : Option Bool) : o.getD false = false ↔ o ≠ some true := by
      simpa using unseen o none
    rw [mem_activity_foldl]
    simp only [start, empty, false_and, or_false, Recorded, Begins, List.nil_append, none_]
  have second : job ∈ ((H ++ K).foldl (World.apply clock) (World.start s)).activity ↔
      Begins job (· ≠ some true) H K ∨ (Recorded job H ∧ ∀ a ∈ K, ¬ StopOf job a) := by
    rw [List.foldl_append, mem_activity_foldl, first]
    simp only [seenRunning_foldl, start, unseen, Begins, lastState_append]
  have awake : ¬ (World.start s).Dormant job := by simp [World.start, World.Dormant]
  rw [first, second, dormant_foldl, dormant_foldl]
  simp only [awake, or_false, List.mem_append, or_and_right, exists_or, Unchanged]
  by_cases stops : ∃ a ∈ K, StopOf job a
  · have some_ : ¬ ∀ a ∈ K, ¬ StopOf job a := by simpa using stops
    simp only [some_, stops]
    grind
  · have none_ : ∀ a ∈ K, ¬ StopOf job a := by simpa using stops
    simp only [stops, false_implies, or_false, and_true]
    grind

/-! The allocations of other jobs do not matter. -/

lemma ofJob_append (job : JobId) (L K : List Allocation) :
    ofJob job (L ++ K) = ofJob job L ++ ofJob job K := List.filter_append ..

lemma ofJob_concat (job : JobId) (L : List Allocation) (a : Allocation) :
    ofJob job (L ++ [a]) = if a.job = job then ofJob job L ++ [a] else ofJob job L := by
  split_ifs with here <;> simp [ofJob, here]

lemma exists_stop_ofJob : (∃ a ∈ ofJob job L, StopOf job a) ↔ ∃ a ∈ L, StopOf job a := by
  simp [ofJob, StopOf, and_assoc]

lemma OneJobEach.mono (once : OneJobEach L) (sub : ∀ a ∈ K, a ∈ L) : OneJobEach K :=
  fun a ha b hb => once a (sub a ha) b (sub b hb)

lemma lastState_ofJob (once : OneJobEach (L ++ [a])) :
    lastState a.id (ofJob a.job L) = lastState a.id L := by
  induction L using List.reverseRecOn with
  | nil => rfl
  | append_singleton L b ih =>
    have before := ih (once.mono (by grind))
    rw [ofJob_concat, lastState_concat]
    split_ifs with here reports reports
    · rw [lastState_concat, if_pos reports]
    · rw [lastState_concat, if_neg reports, before]
    · exact absurd (once b (by simp) a (by simp) reports.1) here
    · exact before

lemma begins_ofJob (once : OneJobEach (H ++ L)) :
    Begins job known (ofJob job H) (ofJob job L) ↔ Begins job known H L := by
  induction L using List.reverseRecOn with
  | nil => simp [Begins, LastBefore, ofJob]
  | append_singleton L a ih =>
    have before := ih (once.mono (by grind))
    rw [← List.append_assoc] at once
    unfold Begins at before ⊢
    rw [ofJob_concat, lastBefore_concat]
    split_ifs with here
    · rw [lastBefore_concat, before]
      subst here
      rw [← ofJob_append, lastState_ofJob once]
    · simp [before, here, StopOf]

/-! The allocations that run at the end of a list are known to run. -/

lemma lastState_of_running (running : r.isRunning = true)
    (stays : ∀ b ∈ q, b.id = r.id → ¬ b.isStopped = true) :
    lastState r.id (p ++ r :: q) = some true := by
  induction q using List.reverseRecOn with
  | nil => simp [lastState_concat, running]
  | append_singleton q b ih =>
    have before := ih fun c hc => stays c (List.mem_append_left _ hc)
    have here := stays b (by simp)
    rw [← List.cons_append, ← List.append_assoc, lastState_concat]
    split_ifs with reports
    · obtain ⟨same, runs | stops⟩ := reports
      · rw [runs]
      · exact absurd stops (here same)
    · exact before

lemma lastState_of_last (once : OneJobEach (p ++ r :: q)) (running : r.isRunning = true)
    (after : ∀ b ∈ q, ¬ StopOf r.job b) : lastState r.id (p ++ r :: q) = some true :=
  lastState_of_running running fun b hb same stops =>
    after b hb ⟨once b (by simp [hb]) r (by simp) same, stops⟩

/-- When the last events of a sequence come again, only restarts are new. -/
lemma begins_again (once : OneJobEach (p ++ K)) :
    Begins job (· ≠ some true) (p ++ K) K ↔ Restarted job K := by
  constructor
  · rintro ⟨p', r, q, rfl, ⟨rfl, running, fresh⟩, after⟩
    have ran : lastState r.id (p ++ (p' ++ r :: q)) = some true := by
      rw [← List.append_assoc] at once ⊢
      exact lastState_of_last once running after
    rw [lastState_append, ran] at fresh
    refine ⟨p', r, q, rfl, ⟨rfl, running, ?_⟩, after⟩
    cases before : lastState r.id p' <;> simp_all
  · rintro ⟨p', r, q, rfl, ⟨rfl, running, stopped⟩, after⟩
    rw [List.nil_append] at stopped
    refine ⟨p', r, q, rfl, ⟨rfl, running, ?_⟩, after⟩
    rw [lastState_append, stopped]
    simp

lemma recorded_of_restarted (restarted : Restarted job K) : Recorded job (p ++ K) := by
  obtain ⟨p', r, q, rfl, ⟨here, running, stopped⟩, after⟩ := restarted
  exact ⟨p ++ p', r, q, by simp, ⟨here, running, by simp_all [lastState_append]⟩, after⟩

/-- The last events of a sequence may come again unless they stop a job with a record. -/
lemma unchanged_again (once : OneJobEach (p ++ K)) : Unchanged job (p ++ K) K ↔
    (Recorded job (p ++ K) → (∃ a ∈ K, StopOf job a) → Restarted job K) := by
  have stopped : (∃ a ∈ K, StopOf job a) → ∃ a ∈ p ++ K, StopOf job a :=
    fun ⟨a, ha, stops⟩ => ⟨a, List.mem_append_right _ ha, stops⟩
  have restarts : Restarted job K → Recorded job (p ++ K) := recorded_of_restarted
  rw [Unchanged, begins_again once]
  constructor
  · exact fun ⟨_, stops⟩ record stop => (stops stop).2 record
  · exact fun all => ⟨restarts, fun stop => ⟨stopped stop, fun record => all record stop⟩⟩

lemma unchanged_ofJob (once : OneJobEach (H ++ K)) :
    Unchanged job (ofJob job H) (ofJob job K) ↔ Unchanged job H K := by
  have first : Recorded job (ofJob job H) ↔ Recorded job H :=
    begins_ofJob (H := []) (once.mono (by grind))
  rw [Unchanged, begins_ofJob once, first, exists_stop_ofJob, exists_stop_ofJob, Unchanged]

end Lists

/-- Two sequences, one after the other, act as one. -/
lemma handled_append (durable : Bool) (s : Store) (L K : List Allocation) :
    handled durable s (L ++ K) = handled durable s L ++ handled durable (lookedAll durable s L) K := by
  induction L generalizing s with
  | nil => rfl
  | cons a L ih =>
    have rest := ih (looked durable s a.job)
    rw [List.cons_append, handled, handled, rest]
    split_ifs <;> rfl

lemma registered_lookedAll {durable : Bool} {s : Store} {job : JobId}
    (known : registered durable s job = true) (L : List Allocation) :
    registered durable (lookedAll durable s L) job = true := by
  induction L generalizing s with
  | nil => exact known
  | cons a L ih => exact ih (registered_looked known a.job)

/-- The last events may come again if and only if every job that is registered from the start,
has a record, and of which an allocation stops in them, also restarts in them, and they change
nothing about a job that only a lookup of an earlier event made the registry find. -/
theorem sameJobs_iff (cfg : Config) (clock : ℕ → ℕ) (store : Store) (xs ys : List NomadEvent)
    (suffix : ys <:+ xs) (once : OneJobEach (allocations xs)) :
    SameJobs ((World.start store).receiveAll cfg clock (xs ++ ys))
        ((World.start store).receiveAll cfg clock xs) ↔
      ∀ job, if registered cfg.durable store job then
          Recorded job (allocations xs) → (∃ a ∈ allocations ys, StopOf job a) →
            Restarted job (allocations ys)
        else Unchanged job (handled cfg.durable store (allocations xs))
          (handled cfg.durable (lookedAll cfg.durable store (allocations xs)) (allocations ys)) := by
  have split_ : allocations (xs ++ ys) = allocations xs ++ allocations ys := List.filterMap_append ..
  obtain ⟨pre, hpre⟩ : allocations ys <:+ allocations xs := suffix.filterMap _
  have start : (World.start store).store = store := rfl
  rw [receiveAll_eq, receiveAll_eq, split_, start, handled_append]
  refine forall_congr' fun job => ?_
  refine (unchanged_iff clock store _ _ job).symm.trans ?_
  split_ifs with known
  · have later := registered_lookedAll known (allocations xs)
    have sub : ∀ a ∈ allocations ys, a ∈ allocations xs := fun a ha =>
      hpre ▸ List.mem_append_right pre ha
    have once' : OneJobEach (handled cfg.durable store (allocations xs) ++
        handled cfg.durable (lookedAll cfg.durable store (allocations xs)) (allocations ys)) := by
      refine once.mono fun a ha => ?_
      rcases List.mem_append.mp ha with first | second
      · exact mem_of_mem_handled first
      · exact sub a (mem_of_mem_handled second)
    have parts : ofJob job (allocations xs) = ofJob job pre ++ ofJob job (allocations ys) := by
      rw [← hpre, ofJob_append]
    have once'' : OneJobEach (ofJob job pre ++ ofJob job (allocations ys)) :=
      once.mono fun a ha => List.mem_of_mem_filter (parts ▸ ha)
    have records : Recorded job (ofJob job (allocations xs)) ↔ Recorded job (allocations xs) :=
      begins_ofJob (H := []) once
    have restarts : Restarted job (ofJob job (allocations ys)) ↔ Restarted job (allocations ys) :=
      begins_ofJob (H := []) (once.mono sub)
    rw [← unchanged_ofJob once', ofJob_handled known, ofJob_handled later, parts,
      unchanged_again once'', ← parts, records, restarts, exists_stop_ofJob]
  · exact Iff.rfl

/-- One allocation replaces another. -/
def replaced : List NomadEvent := [allocationEvent "shop" "b" "complete" "stop",
  allocationEvent "shop" "a" "running" "run"]

theorem sameJobs_replaced :
    SameJobs ((World.start shopStore).receiveAll durableConfig id (replaced ++ replaced))
        ((World.start shopStore).receiveAll durableConfig id replaced) ↔
      ∀ job, if registered durableConfig.durable shopStore job then
          Recorded job (allocations replaced) → (∃ a ∈ allocations replaced, StopOf job a) →
            Restarted job (allocations replaced)
        else Unchanged job (handled durableConfig.durable shopStore (allocations replaced))
          (handled durableConfig.durable
            (lookedAll durableConfig.durable shopStore (allocations replaced))
            (allocations replaced)) :=
  sameJobs_iff durableConfig id shopStore replaced replaced (List.suffix_refl _) (by decide +kernel)

/-- When both events come again, the stop removes the record, and the running allocation is not
recorded a second time. -/
theorem not_sameJobs_replaced : ¬ ∀ (cfg : Config) (clock : ℕ → ℕ) (store : Store)
    (xs ys : List NomadEvent), ys <:+ xs → OneJobEach (allocations xs) →
      SameJobs ((World.start store).receiveAll cfg clock (xs ++ ys))
        ((World.start store).receiveAll cfg clock xs) := by
  intro all
  have same := all durableConfig id shopStore replaced replaced (List.suffix_refl _)
    (by decide +kernel) ⟨"shop"⟩
  exact absurd (same.1.mpr (by decide +kernel)) (by decide +kernel)

end NScale.EventProcessor
