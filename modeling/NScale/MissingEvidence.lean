import NScale.Census
import NScale.ExchangeGuard
import NScale.MissingCarriers

/-!
# The evidence for an auto-deregistration

The counter of a missing job against the not-found responses of Nomad. As long as nobody hands
a response on to two others, and the counter is cleared only when no response for the job is on
its way, the counter never runs ahead of the responses.
-/
namespace NScale.Deployment
open Service Transition Census
open WakeCoordinator (Carrier Carries echoReg)

variable {cfg : Config} {C : Condition State Event} {h : List Event} {s t : State} {e : Event}
  {i r : ℕ} {job : JobId}

/-- The not-found responses for the job since its counter was last cleared. -/
def evidence (job : JobId) : List Event → ℕ
  | [] => 0
  | e :: h =>
    if e.clears? = some job then 0
    else if e.notFound? = some job then evidence job h + 1
    else evidence job h

/-- The job whose counter thread `i` has incremented last. -/
def lastCounted (i : ℕ) : List Event → Option JobId
  | [] => none
  | .op k (.incrementNotFound job) _ :: h => if k = i then some job else lastCounted i h
  | _ :: h => lastCounted i h

/-- Entries of the registry are deleted only by a thread that deregisters the job it has
counted last, when Nomad has given as many not-found responses for this job as the threshold
asks for. -/
def Warranted (cfg : Config) (h : List Event) : Prop :=
  ∀ later earlier i op v, h = later ++ .op i (.store op) (.ok v) :: earlier → op.deletes = true →
    ∃ job, lastCounted i earlier = some job ∧ op.Deregisters job ∧
      cfg.autoDeregisterThreshold ≤ evidence job earlier

lemma evidence_kept (clears : e.clears? ≠ some job) : evidence job h ≤ evidence job (e :: h) := by
  rw [evidence, if_neg clears]
  split_ifs
  · exact Nat.le_succ _
  · exact le_rfl

lemma evidence_found (found : e.notFound? = some job) (clears : e.clears? ≠ some job) :
    evidence job (e :: h) = evidence job h + 1 := by
  rw [evidence, if_neg clears, if_pos found]

/-! ## What a step does to the counters -/

lemma answer_missing {own : Own} {op : Op} {a : op.Answer}
    (increment : ∀ job, op ≠ .incrementNotFound job) (clears : (Event.op i op a).clears? = none)
    (ht : s.answer r own op a = some t) : t.missing = s.missing := by
  unfold State.answer at ht
  split at ht
  case h_9 => exact absurd rfl (increment _)
  case h_10 => exact absurd rfl (increment _)
  case h_11 => cases clears
  case h_13 =>
    obtain rfl := Option.some.inj ht
    cases own.guard <;> rfl
  all_goals
    first
    | (cases ht; rfl)
    | (split at ht <;> cases ht <;> first | rfl | (split <;> rfl))

lemma missing_kept (taken : step cfg s e = some t)
    (increment : ∀ i job a, e ≠ .op i (.incrementNotFound job) a) (clears : e.clears? = none) :
    t.missing = s.missing := by
  rcases step_shared taken with ⟨-, same⟩ | ⟨i, op, a, th, u, rfl, -, hu, same⟩ | ⟨millis, rfl, same⟩
  · exact congrArg Shared.missing same
  · have missing : t.missing = u.missing := congrArg Shared.missing same
    rw [missing]
    apply answer_missing _ clears hu
    rintro job rfl
    exact increment i job a rfl
  · exact congrArg Shared.missing same

/-- A count goes up by one, and is reported as it is. -/
lemma missing_counted {a : Result ℕ} (taken : step cfg s (.op i (.incrementNotFound job) a) = some t) :
    t.missing job ≤ s.missing job + 1 ∧ (∀ other, other ≠ job → t.missing other = s.missing other) ∧
      ∀ count, a = .ok count → count = s.missing job + 1 := by
  rcases step_shared taken with ⟨none_, -⟩ | ⟨i, op, a, th, u, same, -, hu, shared⟩ | ⟨millis, same, -⟩
  · cases none_
  · cases same
    have missing : t.missing = u.missing := congrArg Shared.missing shared
    rw [missing]
    cases a with
    | ok count =>
      simp only [State.answer] at hu
      split at hu
      next counted =>
        obtain rfl := Option.some.inj hu
        refine ⟨by simp [counted.1], fun other apart => by simp [apart], ?_⟩
        intro reported same
        exact Except.ok.inj same ▸ counted.1
      next => cases hu
    | error e =>
      simp only [State.answer] at hu
      split at hu
      all_goals
        obtain rfl := Option.some.inj hu
        refine ⟨by simp, fun other apart => by simp [apart], by simp⟩
  · cases same

lemma missing_cleared (taken : step cfg s (.op i (.clearNotFound job) (.ok ())) = some t) :
    t.missing job = 0 ∧ ∀ other, other ≠ job → t.missing other = s.missing other := by
  rcases step_shared taken with ⟨none_, -⟩ | ⟨i, op, a, th, u, same, -, hu, shared⟩ | ⟨millis, same, -⟩
  · cases none_
  · cases same
    have missing : t.missing = u.missing := congrArg Shared.missing shared
    rw [missing]
    obtain rfl := Option.some.inj hu
    exact ⟨by simp, fun other apart => by simp [apart]⟩
  · cases same

/-! ## The counter does not run ahead -/

/-- Counted and carried responses together are at most those that Nomad has given, and whoever
deregisters a job has enough of them. -/
structure Backed (cfg : Config) (h : List Event) (s : State) : Prop where
  counted : ∀ job, (holders (carried? cfg h s) job).encard + s.missing job ≤ evidence job h
  removing : ∀ {i job}, Removing cfg h s i job → cfg.autoDeregisterThreshold ≤ evidence job h

lemma backed_initial (cfg : Config) : Backed cfg [] (initial cfg) where
  counted job := by
    have nobody : holders (carried? cfg [] (initial cfg)) job = ∅ := by
      ext x
      cases x <;> simp [holders, carried?, initial, State.coordinator, WakeCoordinator.initial,
        WakeCoordinator.State.missing?]
    rw [nobody]
    simp [initial, evidence]
  removing := by
    rintro i job ⟨th, at_, -⟩
    simp [initial] at at_

namespace Backed

/-- A step that adds no holder and counts nothing. -/
lemma counted_of_le (ok : Backed cfg h s)
    (holds : (holders (carried? cfg (e :: h) t) job).encard ≤ (holders (carried? cfg h s) job).encard)
    (missing : t.missing job = s.missing job) (clears : e.clears? ≠ some job) :
    (holders (carried? cfg (e :: h) t) job).encard + t.missing job ≤ evidence job (e :: h) := by
  calc (holders (carried? cfg (e :: h) t) job).encard + (t.missing job : ℕ∞)
      ≤ (holders (carried? cfg h s) job).encard + s.missing job := by rw [missing]; gcongr
    _ ≤ evidence job h := ok.counted job
    _ ≤ evidence job (e :: h) := by exact_mod_cast evidence_kept clears

/-- A response that is given to one holder. -/
lemma counted_of_found (ok : Backed cfg h s) (found : e.notFound? = some job)
    (holds : (holders (carried? cfg (e :: h) t) job).encard ≤
      (holders (carried? cfg h s) job).encard + 1)
    (missing : t.missing job = s.missing job) (clears : e.clears? ≠ some job) :
    (holders (carried? cfg (e :: h) t) job).encard + t.missing job ≤ evidence job (e :: h) := by
  rw [evidence_found found clears]
  calc (holders (carried? cfg (e :: h) t) job).encard + (t.missing job : ℕ∞)
      ≤ (holders (carried? cfg h s) job).encard + 1 + s.missing job := by rw [missing]; gcongr
    _ = (holders (carried? cfg h s) job).encard + s.missing job + 1 := by ring
    _ ≤ evidence job h + 1 := by gcongr; exact ok.counted job
    _ = ((evidence job h + 1 : ℕ) : ℕ∞) := by norm_cast

/-- A step in which nobody gains a response. -/
lemma counted_quiet (ok : Backed cfg h s) (run : RunWhere (system cfg) C h s)
    (taken : step cfg s e = some t) (quiet : e.quiet = true) (idle : e.thread? = none)
    (job : JobId) :
    (holders (carried? cfg (e :: h) t) job).encard + t.missing job ≤ evidence job (e :: h) := by
  have clears : e.clears? = none := by
    cases e with
    | op => cases idle
    | _ => rfl
  apply ok.counted_of_le
  · apply holders_le
    intro z
    exact kept_quiet run taken quiet fun i acts => by rw [idle] at acts; cases acts
  · rw [missing_kept taken _ clears]
    rintro i job a rfl
    cases idle
  · simp [clears]

/-! ### Steps of a coordinator -/

variable {ev : WakeCoordinator.Event}

/-- A holder gains a response only through a carrier of the coordinator that moves. -/
lemma gained_coord (run : RunWhere (system cfg) C h s)
    (taken : step cfg s (.coord r ev) = some t) {x : Holder}
    (has : carried? cfg (.coord r ev :: h) t x = some job) :
    carried? cfg h s x = some job ∨ ∃ b, Reads cfg h s r x b ∧
      (t.coordinator r).missing? b = some job ∧ (s.coordinator r).missing? b ≠ some job := by
  rcases gained run taken (by simp [Event.thread?]) has with had | ⟨q, b, reads, new, old⟩
  · exact .inl had
  · rcases coordinator_cases taken q with same | ⟨ev', -, moved, drives⟩
    · exact absurd (same ▸ new) old
    · cases drives
      exact .inr ⟨b, reads, new, old⟩

lemma enabled_of_coord (taken : step cfg s (.coord r ev) = some t) :
    ev.enabled (s.coordinator r) = true ∧ t.coordinator r = ev.next (s.coordinator r) := by
  simp only [step] at taken
  split at taken
  next ok =>
    obtain rfl := Option.some.inj taken
    exact ⟨ok.2, by simp [State.coordinator, State.setCoordinator]⟩
  next => cases taken

/-- At most one holder carries what the carriers of this set do. -/
lemma exists_reader (run : RunWhere (system cfg) C h s) (r : ℕ) {who : Set Carrier}
    (one : who.Subsingleton) : ∃ y, ∀ x, ∀ b ∈ who, Reads cfg h s r x b → x = y := by
  by_cases some_ : ∃ y, ∃ b ∈ who, Reads cfg h s r y b
  · obtain ⟨y, b, mem, reads⟩ := some_
    refine ⟨y, fun x b' mem' reads' => ?_⟩
    obtain rfl := one mem mem'
    exact (awaits_of_run run).reads_single reads' reads
  · exact ⟨.task 0 0, fun x b mem reads => absurd ⟨x, b, mem, reads⟩ some_⟩

lemma counted_coord_found (ok : Backed cfg h s) (run : RunWhere (system cfg) C h s)
    (taken : step cfg s (.coord r ev) = some t) {named : JobId} (found : ev.notFound? = some named)
    (job : JobId) :
    (holders (carried? cfg (.coord r ev :: h) t) job).encard + t.missing job ≤
      evidence job (.coord r ev :: h) := by
  have missing : t.missing job = s.missing job := by rw [missing_kept taken (by simp) rfl]
  obtain ⟨b, told, carries⟩ := WakeCoordinator.carries_notFound (s := s.coordinator r) found
  rw [← (enabled_of_coord taken).2] at told carries
  have only {b' : Carrier} (new : (t.coordinator r).missing? b' = some job)
      (old : (s.coordinator r).missing? b' ≠ some job) : b' = b := by
    by_contra other
    rcases carries b' other with same | none_
    · exact old (same ▸ new)
    · rw [none_] at new
      cases new
  obtain ⟨y, reader⟩ := exists_reader run r (Set.subsingleton_singleton (a := b))
  by_cases same : named = job
  · subst same
    have given : Event.notFound? (.coord r ev) = some named := found
    apply ok.counted_of_found given _ missing (by simp [Event.clears?])
    apply holders_le_succ y
    intro z apart has
    rcases gained_coord run taken has with had | ⟨b', reads, new, old⟩
    · exact had
    · exact absurd (reader z b' (only new old) reads) apart
  · apply ok.counted_of_le _ missing (by simp [Event.clears?])
    apply holders_le
    intro z has
    rcases gained_coord run taken has with had | ⟨b', -, new, old⟩
    · exact had
    · obtain rfl := only new old
      exact absurd (Option.some.inj (told.symm.trans new)) same

lemma counted_coord_sent (ok : Backed cfg h s) (run : RunWhere (system cfg) C h s) {u w : ℕ}
    {reg : JobRegistration} {id : String}
    (taken : step cfg s (.coord r (.sendFailure u reg w (.jobNotFound id))) = some t)
    (one : ((s.coordinator r).waiting w).Subsingleton) (job : JobId) :
    (holders (carried? cfg (.coord r (.sendFailure u reg w (.jobNotFound id)) :: h) t) job).encard +
      t.missing job ≤ evidence job (.coord r (.sendFailure u reg w (.jobNotFound id)) :: h) := by
  obtain ⟨en, moved⟩ := enabled_of_coord taken
  have missing : t.missing job = s.missing job := by rw [missing_kept taken (by simp) rfl]
  obtain ⟨had, gone, handed⟩ :=
    WakeCoordinator.carries_sent (coordinator_wellFormed run r) en moved
  have gives {b : Carrier} (new : (t.coordinator r).missing? b = some job)
      (old : (s.coordinator r).missing? b ≠ some job) :
      reg.jobId = job ∧ b ∈ Carrier.call '' (s.coordinator r).waiting w := by
    rcases handed b with same | none_ | ⟨d, waits, rfl, told⟩
    · exact absurd (same ▸ new) old
    · rw [none_] at new
      cases new
    · exact ⟨Option.some.inj (told.symm.trans new), d, waits, rfl⟩
  apply ok.counted_of_le _ missing (by simp [Event.clears?])
  by_cases same : reg.jobId = job
  · subst same
    obtain ⟨y, reader⟩ := exists_reader run r (one.image Carrier.call)
    have had' : carried? cfg h s (.task r u) = some reg.jobId := had
    apply holders_pass had' _ y
    · intro z apart has
      rcases gained_coord run taken has with before | ⟨b, reads, new, old⟩
      · exact before
      · exact absurd (reader z b (gives new old).2 reads) apart
    · change (t.coordinator r).missing? (.task u) ≠ _
      simp [gone]
  · apply holders_le
    intro z has
    rcases gained_coord run taken has with before | ⟨b, -, new, old⟩
    · exact before
    · exact absurd (gives new old).1 same

lemma counted_coord (ok : Backed cfg h s) (run : RunWhere (system cfg) C h s)
    (taken : step cfg s (.coord r ev) = some t) (cond : CountedOnce cfg h s (.coord r ev))
    (job : JobId) :
    (holders (carried? cfg (.coord r ev :: h) t) job).encard + t.missing job ≤
      evidence job (.coord r ev :: h) := by
  cases found : ev.notFound? with
  | some named => exact ok.counted_coord_found run taken found job
  | none =>
    cases sends : ev.sendsNotFound with
    | false => exact ok.counted_quiet run taken (by simp [Event.quiet, found, sends]) rfl job
    | true =>
      cases ev with
      | sendFailure u reg w why =>
        cases why with
        | jobNotFound id => exact ok.counted_coord_sent run taken cond job
        | _ => cases sends
      | _ => cases sends

/-! ### Operations of a thread -/

variable {op : Op} {a : op.Answer}

/-- Whoever gains a response in an operation is its thread. -/
lemma kept_op (run : RunWhere (system cfg) C h s) (taken : step cfg s (.op i op a) = some t)
    {x : Holder} (other : x ≠ .thread i) (has : carried? cfg (.op i op a :: h) t x = some job) :
    carried? cfg h s x = some job := by
  apply kept_quiet run taken rfl _ has
  intro k acts
  obtain rfl := Option.some.inj acts
  exact other

/-- The thread has been told of the response that it counts. -/
lemma counts_told (run : RunWhere (system cfg) (CountedOnce cfg) h s) {a : Result ℕ}
    (taken : step cfg s (.op i (.incrementNotFound job) a) = some t) :
    carried? cfg h s (.thread i) = some job ∧
      carried? cfg (.op i (.incrementNotFound job) a :: h) t (.thread i) = none := by
  have told : (missingView cfg i h).stage = .told job := required_missing run taken
  obtain ⟨th, u, at_, active, -⟩ := acting_thread run taken
  refine ⟨carried_thread.mpr ⟨th, at_, active, by rw [told]; rfl⟩, ?_⟩
  rw [Option.eq_none_iff_forall_not_mem]
  intro other has
  obtain ⟨next, -, -, again⟩ := carried_thread.mp has
  rw [view_op] at again
  cases a with
  | error e => cases again
  | ok count =>
    change told? t _ (if cfg.autoDeregisterThreshold ≤ count then .removing job else .nothing) = _
      at again
    split at again <;> cases again

lemma counted_increment (ok : Backed cfg h s) (run : RunWhere (system cfg) (CountedOnce cfg) h s)
    {named : JobId} {a : Result ℕ}
    (taken : step cfg s (.op i (.incrementNotFound named) a) = some t) (job : JobId) :
    (holders (carried? cfg (.op i (.incrementNotFound named) a :: h) t) job).encard +
      t.missing job ≤ evidence job (.op i (.incrementNotFound named) a :: h) := by
  obtain ⟨had, gone⟩ := counts_told run taken
  obtain ⟨most, others, -⟩ := missing_counted taken
  have kept : ∀ z, carried? cfg (.op i (.incrementNotFound named) a :: h) t z = some job →
      carried? cfg h s z = some job := by
    intro z has
    apply kept_op run taken _ has
    rintro rfl
    rw [gone] at has
    cases has
  by_cases same : job = named
  · subst same
    calc (holders (carried? cfg (.op i (.incrementNotFound job) a :: h) t) job).encard +
          (t.missing job : ℕ∞)
        ≤ (holders (carried? cfg (.op i (.incrementNotFound job) a :: h) t) job).encard +
          ((s.missing job + 1 : ℕ) : ℕ∞) := by gcongr
      _ = (holders (carried? cfg (.op i (.incrementNotFound job) a :: h) t) job).encard + 1 +
          s.missing job := by push_cast; ring
      _ ≤ (holders (carried? cfg h s) job).encard + s.missing job := by
        gcongr
        exact holders_leave had (by simp [gone]) kept
      _ ≤ evidence job h := ok.counted job
      _ ≤ evidence job (.op i (.incrementNotFound job) a :: h) := by
        exact_mod_cast evidence_kept (by simp [Event.clears?])
  · exact ok.counted_of_le (holders_le kept) (others job same) (by simp [Event.clears?])

lemma counted_clear (ok : Backed cfg h s) (run : RunWhere (system cfg) (CountedOnce cfg) h s)
    {named : JobId} (taken : step cfg s (.op i (.clearNotFound named) (.ok ())) = some t)
    (cond : CountedOnce cfg h s (.op i (.clearNotFound named) (.ok ()))) (job : JobId) :
    (holders (carried? cfg (.op i (.clearNotFound named) (.ok ()) :: h) t) job).encard +
      t.missing job ≤ evidence job (.op i (.clearNotFound named) (.ok ()) :: h) := by
  obtain ⟨zero, others⟩ := missing_cleared taken
  have kept : ∀ z, carried? cfg (.op i (.clearNotFound named) (.ok ()) :: h) t z = some job →
      carried? cfg h s z = some job := by
    intro z has
    by_cases acting : z = .thread i
    · subst acting
      exact (kept_acting run taken has).resolve_right nofun
    · exact kept_op run taken acting has
  by_cases same : job = named
  · subst same
    have nobody : holders (carried? cfg (.op i (.clearNotFound job) (.ok ()) :: h) t) job = ∅ := by
      ext z
      exact ⟨fun has => cond.1 z (kept z has), nofun⟩
    simp [nobody, zero]
  · apply ok.counted_of_le (holders_le kept) (others job same)
    simpa [Event.clears?] using Ne.symm same

lemma counted_op (ok : Backed cfg h s) (run : RunWhere (system cfg) (CountedOnce cfg) h s)
    (taken : step cfg s (.op i op a) = some t) (cond : CountedOnce cfg h s (.op i op a))
    (job : JobId) :
    (holders (carried? cfg (.op i op a :: h) t) job).encard + t.missing job ≤
      evidence job (.op i op a :: h) := by
  by_cases increment : ∃ named, op = .incrementNotFound named
  · obtain ⟨named, rfl⟩ := increment
    exact ok.counted_increment run taken job
  cases clears : (Event.op i op a).clears? with
  | some named =>
    cases op with
    | clearNotFound other =>
      cases a with
      | ok _ => exact ok.counted_clear run taken cond job
      | error e => cases clears
    | _ => cases clears
  | none =>
    have missing : t.missing job = s.missing job := by
      rw [missing_kept taken _ clears]
      rintro _ named _ ⟨⟩
      exact increment ⟨named, rfl⟩
    have others (z : Holder) (apart : z ≠ .thread i) :
        carried? cfg (.op i op a :: h) t z = some job → carried? cfg h s z = some job :=
      kept_op run taken apart
    by_cases found : Event.notFound? (.op i op a) = some job
    · exact ok.counted_of_found found (holders_le_succ (.thread i) others) missing (by simp [clears])
    · apply ok.counted_of_le (holders_le _) missing (by simp [clears])
      intro z has
      by_cases acting : z = .thread i
      · subst acting
        exact (kept_acting run taken has).resolve_right found
      · exact others z acting has

/-! ### Deregistrations -/

/-- Whoever deregisters a job has done so before, or has reached the threshold in this step. -/
lemma removing_cases (run : RunWhere (system cfg) C h s) (taken : step cfg s e = some t)
    (removing : Removing cfg (e :: h) t i job) :
    (Removing cfg h s i job ∧ ∀ named a, e ≠ .op i (.clearNotFound named) a) ∨
      ∃ count, e = .op i (.incrementNotFound job) (.ok count) ∧
        cfg.autoDeregisterThreshold ≤ count := by
  obtain ⟨next, at_, active, stage⟩ := removing
  by_cases acts : e.thread? = some i
  · cases e with
    | op j op a =>
      obtain rfl := Option.some.inj acts
      obtain ⟨th, u, at', active', -⟩ := acting_thread run taken
      rw [view_op] at stage
      rcases removing_next stage with ⟨before, keeps⟩ | ⟨count, counts, reached⟩
      · refine .inl ⟨⟨th, at', active', before⟩, ?_⟩
        rintro named a ⟨⟩
        exact keeps named rfl
      · cases counts
        exact .inr ⟨count, rfl, reached⟩
    | _ => cases acts
  · rw [view_other acts] at stage
    rcases unmoved_thread run taken acts at_ active with old | fresh
    · refine .inl ⟨⟨next, old, active, stage⟩, ?_⟩
      rintro named a rfl
      exact acts rfl
    · rw [fresh] at stage
      cases stage

/-- What one step preserves. -/
theorem next (ok : Backed cfg h s) (run : RunWhere (system cfg) (CountedOnce cfg) h s)
    (taken : step cfg s e = some t) (cond : CountedOnce cfg h s e) : Backed cfg (e :: h) t where
  counted := by
    intro job
    cases e with
    | coord r ev => exact ok.counted_coord run taken cond job
    | op i op a => exact ok.counted_op run taken cond job
    | _ => exact ok.counted_quiet run taken rfl rfl job
  removing := by
    intro i job removing
    rcases removing_cases run taken removing with ⟨before, keeps⟩ | ⟨count, rfl, reached⟩
    · apply (ok.removing before).trans (evidence_kept _)
      intro clears
      cases e with
      | op j op a =>
        cases op with
        | clearNotFound named =>
          cases a with
          | ok _ =>
            obtain rfl := Option.some.inj clears
            by_cases own : i = j
            · subst own
              exact keeps named _ rfl
            · exact cond.2 i own before
          | error e => cases clears
        | _ => cases clears
      | _ => cases clears
    · have had := (counts_told run taken).1
      have one : 1 ≤ (holders (carried? cfg h s) job).encard := by
        rw [Set.one_le_encard_iff_nonempty]
        exact ⟨.thread i, had⟩
      have count_eq : count = s.missing job + 1 := (missing_counted taken).2.2 count rfl
      have enough : (count : ℕ∞) ≤ evidence job h := by
        calc (count : ℕ∞) = 1 + s.missing job := by rw [count_eq]; push_cast; ring
          _ ≤ (holders (carried? cfg h s) job).encard + s.missing job := by gcongr
          _ ≤ evidence job h := ok.counted job
      exact (reached.trans (by exact_mod_cast enough)).trans (evidence_kept (by simp [Event.clears?]))

end Backed

theorem backed_of_run (run : RunWhere (system cfg) (CountedOnce cfg) h s) : Backed cfg h s := by
  apply run.invariant (Backed cfg) (backed_initial cfg)
  intro h s t e prior ok taken cond
  exact ok.next prior taken cond

/-- A thread deregisters the job that it has counted last. -/
lemma lastCounted_of_removing (removing : (missingView cfg i h).stage = .removing job) :
    lastCounted i h = some job := by
  induction h with
  | nil => cases removing
  | cons e h ih =>
    by_cases acts : e.thread? = some i
    · cases e with
      | op k op a =>
        obtain rfl := Option.some.inj acts
        rw [view_op] at removing
        cases op with
        | incrementNotFound named =>
          rcases removing_next removing with ⟨before, -⟩ | ⟨count, counts, -⟩
          · cases a with
            | error e => cases removing
            | ok count =>
              change (if cfg.autoDeregisterThreshold ≤ count then Stage.removing named else .nothing) =
                _ at removing
              split at removing
              · obtain rfl := Stage.removing.inj removing
                exact if_pos rfl
              · cases removing
          · cases counts
            exact if_pos rfl
        | _ =>
          rcases removing_next removing with ⟨before, -⟩ | ⟨count, counts, -⟩
          · exact ih before
          · cases counts
      | _ => cases acts
    · rw [view_other acts] at removing
      rw [← ih removing]
      cases e with
      | op k op a =>
        cases op with
        | incrementNotFound named => exact if_neg fun same => acts (congrArg some same)
        | _ => rfl
      | _ => rfl

/-- A request arrives in thread `i`, and its handler makes call `c` of `ensure_running`. -/
def echoRequested (i c : ℕ) : List Event :=
  [.arrive 0 ⟨some (some "echo-s2z.localhost"), .get, "/", false⟩, .op i .now 0,
    .op i (.zadd echoHost 0) (.ok ()), .op i (.store (.hget .byJob echoHost.val)) (.ok none),
    .op i (.store (.hget .byService echoHost.val)) (.ok (some echoReg)),
    .op i (.call (.ensureRunning echoReg)) c]

def echoMissing : NscaleError := .jobNotFound echoJob.val

/-- Call `c` starts the wake of `WakeState` `w`. -/
def echoStarts (c w : ℕ) : List Event :=
  [.coord 0 (.fastPath c echoReg), .coord 0 (.entry c echoReg), .coord 0 (.load c echoReg w),
    .coord 0 (.tryStart c echoReg w), .coord 0 (.ownSubscribe c echoReg w),
    .coord 0 (.spawn c echoReg w none)]

/-- Task `u` is told that the job does not exist, and tells so. -/
def echoFails (u w : ℕ) : List Event :=
  [.coord 0 (.acquire u echoReg w), .coord 0 (.scaled u echoReg w (.error echoMissing)),
    .coord 0 (.storeDormant u echoReg w (.jobNotFound echoJob.val)),
    .coord 0 (.sendFailure u echoReg w (.jobNotFound echoJob.val)),
    .coord 0 (.removeEntry u echoReg w)]

/-- Thread `i` receives the response by its call and counts it. -/
def echoCounts (i c w count : ℕ) : List Event :=
  [.coord 0 (.recv c echoReg w (.jobNotFound echoJob.val)),
    .op i (.ensured echoReg c) (.error echoMissing),
    .op i (.incrementNotFound echoJob) (.ok count)]

/-- Thread `i` deregisters the job, up to the removal of its own entry. -/
def echoRemoved (i c : ℕ) : List Event :=
  [.op i (.call (.markDormant echoJob)) c, .coord 0 (.evict c echoJob .markDormant),
    .coord 0 (.reset c echoJob .markDormant), .coord 0 (.remove c echoJob .markDormant),
    .op i (.cleared echoJob c) (), .op i (.zrem echoJob) (.ok ()),
    .op i (.store (.hget .byJob echoJob.val)) (.ok (some echoReg)),
    .op i (.store (.hgetall .byService)) (.ok [(echoHost.val, echoReg)]),
    .op i (.store (.hdel .byService echoHost.val)) (.ok ())]

/-- The condition, as far as it can be checked along a script without cleared counters. -/
def CheckedOnce (cfg : Config) : Condition State Event := fun h s e =>
  match e with
  | .coord r (.sendFailure _ _ w (.jobNotFound _)) =>
    ∀ c < (s.coordinator r).nextCall, ∀ d < (s.coordinator r).nextCall,
      ((s.coordinator r).calls c).bind WakeCoordinator.Call.waits? = some w →
      ((s.coordinator r).calls d).bind WakeCoordinator.Call.waits? = some w → c = d
  | .op i (.scaleDown job _) (.error (.jobNotFound _)) => (missingView cfg i h).key = some job
  | .op _ (.clearNotFound _) (.ok _) => False
  | _ => True

instance (h : List Event) (s : State) (e : Event) : Decidable (CheckedOnce cfg h s e) := by
  unfold CheckedOnce
  split <;> infer_instance

lemma countedOnce_of_checked (run : RunWhere (system cfg) C h s)
    (checked : CheckedOnce cfg h s e) : CountedOnce cfg h s e := by
  cases e with
  | coord r ev =>
    cases ev with
    | sendFailure u reg w why =>
      cases why with
      | jobNotFound id =>
        have made {c : ℕ} (waits : c ∈ (s.coordinator r).waiting w) :
            c < (s.coordinator r).nextCall := by
          obtain ⟨call, at_, -⟩ := Option.bind_eq_some_iff.mp waits
          exact (coordinator_wellFormed run r).calls at_
        exact fun c hc d hd => checked c (made hc) d (made hd) hc hd
      | _ => trivial
    | _ => trivial
  | op i op a =>
    cases op with
    | scaleDown job group =>
      match a with
      | .ok _ => trivial
      | .error e =>
        cases e with
        | jobNotFound id => exact checked
        | _ => trivial
    | clearNotFound job =>
      cases a with
      | ok _ => exact checked.elim
      | error e => trivial
    | _ => trivial
  | _ => trivial

/-- Two requests, one after the other, and a not-found response for each. -/
def echoMissedTwice : List Event := echoRegistered ++
  echoRequested 1 0 ++ echoStarts 0 0 ++ echoFails 0 0 ++ echoCounts 1 0 0 1 ++
  echoRequested 2 1 ++ echoStarts 1 1 ++ echoFails 1 1 ++ echoCounts 2 1 1 2 ++ echoRemoved 2 2

/-- Two requests wait for one wake, and both count the one response that it gets. -/
def echoMissedOnce : List Event := echoRegistered ++
  echoRequested 1 0 ++ echoStarts 0 0 ++ echoRequested 2 1 ++
  [.coord 0 (.fastPath 1 echoReg), .coord 0 (.entry 1 echoReg), .coord 0 (.load 1 echoReg 0),
    .coord 0 (.subscribe 1 echoReg 0)] ++
  echoFails 0 0 ++ echoCounts 1 0 0 1 ++ echoCounts 2 1 0 2 ++ echoRemoved 2 2

end NScale.Deployment
