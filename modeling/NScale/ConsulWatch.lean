import NScale.ConsulHealth
import NScale.Deployment

/-!
# Blocking queries against a Consul that changes

Consul counts its changes with an index. A query that names an index is answered when the index
is larger, or when it has blocked for the time it asks for. The task hands every index it has
been shown to its next query, so that no instance is missed between two of them.
-/
namespace NScale.ConsulWatch
open Transition ConsulHealth

/-- What Consul knows of the service. Its index is never zero. -/
structure Catalog where
  index : UInt64
  entries : List HealthEntry
  pos : 0 < index
  deriving DecidableEq

/-- `readyAt` is when Consul came to know more than the query that it has to answer. -/
structure State where
  task : ConsulHealth.State
  catalog : Catalog
  readyAt : Option ℕ
  deriving DecidableEq

inductive Event
  | task (e : ConsulHealth.Event)
  | change (catalog : Catalog)
  deriving DecidableEq

/-- A query that is sent may be behind already. -/
def State.readiness (s : State) : ConsulHealth.Event → Option ℕ
  | .send => if s.task.consulIndex < s.catalog.index then some s.task.now else none
  | _ => s.readyAt

def step (w : Wait) (s : State) : Event → Option State
  | .task e => (ConsulHealth.step w s.task e).map fun t => { s with task := t, readyAt := s.readiness e }
  | .change catalog =>
    if s.catalog.index < catalog.index then
      some { s with catalog := catalog, readyAt := s.readyAt.or (some s.task.now) }
    else none

def system (w : Wait) (catalog : Catalog) : System State Event :=
  ⟨⟨(ConsulHealth.system w).start, catalog, none⟩, step w⟩

/-- When a query has to be answered: once it has blocked, or earlier if Consul knows more. -/
def State.due (s : State) (q : Query) : ℕ :=
  match s.readyAt with
  | some time => min time (s.task.since + q.waitSecs * second)
  | none => s.task.since + q.waitSecs * second

/-- A response tells what Consul knows, and not too early; one that is not a success tells
nothing. -/
def State.Tells (s : State) (resp : HealthResponse) : Prop :=
  if resp.isSuccess then
    resp.index.bind parseU64 = some s.catalog.index ∧ resp.body = .ok s.catalog.entries ∧
      (s.task.consulIndex < s.catalog.index ∨
        ∀ q, s.task.phase = .asked q → s.task.since + q.waitSecs * second ≤ s.task.now)
  else resp.index.bind parseU64 = none

/-- Consul keeps to what it documents of blocking queries. -/
def Blocking : Condition State Event := fun _ s e =>
  match e with
  | .task (.answer (.ok resp)) => s.Tells resp
  | _ => True

/-- Nothing takes longer than `slack`, and an answer that is due no longer than `latency`. -/
def State.Prompt (slack latency : ℕ) (s : State) (time : ℕ) : Prop :=
  match s.task.phase with
  | .check | .remaining => time ≤ s.task.since + slack
  | .asked q => time ≤ s.due q + latency
  | .pause => time ≤ s.task.since + halfSecond + slack
  | .returned _ => True

def Timely (slack latency : ℕ) : Condition State Event := fun _ s e =>
  match e with
  | .task (.advance nanos) => s.Prompt slack latency (s.task.now + nanos)
  | _ => True

/-- Consul answers with success and never loses the last instance again. -/
def Lasting : Condition State Event := fun _ _ e =>
  match e with
  | .task (.answer a) => a.toOption.any HealthResponse.isSuccess = true
  | .change catalog => (findHealthy catalog.entries).isSome = true
  | _ => True

instance (phase : Phase) (p : Query → Prop) [DecidablePred p] : Decidable (∀ q, phase = .asked q → p q) :=
  match phase with
  | .asked q => decidable_of_iff (p q) ⟨fun holds _ same => Phase.asked.inj same ▸ holds,
      fun all => all q rfl⟩
  | .check | .remaining | .pause | .returned _ => isTrue nofun

instance (s : State) (resp : HealthResponse) : Decidable (s.Tells resp) := by
  unfold State.Tells
  infer_instance

instance (h : List Event) (s : State) (e : Event) : Decidable (Blocking h s e) :=
  match e with
  | .task (.answer (.ok resp)) => inferInstanceAs (Decidable (s.Tells resp))
  | .task (.answer (.error _)) | .task (.advance _) | .task .check | .task .send | .task .resume
  | .change _ => isTrue trivial

instance (slack latency : ℕ) (s : State) (time : ℕ) : Decidable (s.Prompt slack latency time) := by
  unfold State.Prompt
  cases s.task.phase <;> infer_instance

instance (slack latency : ℕ) (h : List Event) (s : State) (e : Event) :
    Decidable (Timely slack latency h s e) :=
  match e with
  | .task (.advance nanos) => inferInstanceAs (Decidable (s.Prompt slack latency (s.task.now + nanos)))
  | .task (.answer _) | .task .check | .task .send | .task .resume | .change _ => isTrue trivial

instance (h : List Event) (s : State) (e : Event) : Decidable (Lasting h s e) :=
  match e with
  | .task (.answer a) => inferInstanceAs (Decidable (a.toOption.any HealthResponse.isSuccess = true))
  | .change catalog => inferInstanceAs (Decidable ((findHealthy catalog.entries).isSome = true))
  | .task (.advance _) | .task .check | .task .send | .task .resume => isTrue trivial

section
variable {w : Wait} {catalog : Catalog} {C : Condition State Event} {h : List Event} {s t : State}

/-- The task does what it does against any answers. -/
lemma task_of_run (run : RunWhere (system w catalog) C h s) :
    Run (ConsulHealth.system w) (h.filterMap fun | .task e => some e | .change _ => none) s.task := by
  refine run.invariant (fun h s => Run (ConsulHealth.system w)
    (h.filterMap fun | .task e => some e | .change _ => none) s.task) .nil ?_
  intro h s t e _ before taken _
  cases e with
  | task e =>
    obtain ⟨u, moved, rfl⟩ := Option.map_eq_some_iff.mp taken
    exact .step before moved trivial
  | change catalog =>
    simp only [system, step] at taken
    split_ifs at taken
    obtain rfl := Option.some.inj taken
    exact before

/-- The errors of a call are among those that a coordinator expects of its discovery. -/
theorem isInternal_of_returned (run : RunWhere (system w catalog) C h s) {result : Result Endpoint}
    (at_ : s.task.phase = .returned result) (t : ℕ) (reg : JobRegistration) (cell : ℕ) (sawNone : Bool) :
    Deployment.isInternal (.healthy t reg cell sawNone result) = true := by
  have sound := (justified_of_run (task_of_run run) at_).sound
  cases result with
  | ok ep => rfl
  | error e =>
    rcases sound.errors e rfl with rfl | ⟨m, rfl⟩ <;> rfl

/-! ## The index of the task -/

/-- What the task has been shown is what Consul knows, or older; nobody waits for an instance
that has been shown. -/
structure Fresh (s : State) : Prop where
  shown : s.task.consulIndex ≤ s.catalog.index
  behind : (∀ result, s.task.phase ≠ .returned result) → (findHealthy s.catalog.entries).isSome = true →
    s.task.consulIndex < s.catalog.index
  asks : ∀ q, s.task.phase = .asked q → q.index = s.task.consulIndex ∧ 1 ≤ q.waitSecs
  since : s.task.since ≤ s.task.now
  ready : ∀ q, s.task.phase = .asked q → s.task.consulIndex < s.catalog.index → s.readyAt.isSome = true
  past : ∀ time, s.readyAt = some time → time ≤ s.task.now

lemma Fresh.start : Fresh (system w catalog).start where
  shown := UInt64.le_of_lt catalog.pos
  behind := fun _ _ => catalog.pos
  asks := nofun
  since := le_rfl
  ready := nofun
  past := nofun

/-- After a response that tells what Consul knows the task has seen its index. -/
lemma consulIndex_answered {a : Answer} (tells : ∀ resp, a = .ok resp → s.Tells resp) :
    (s.task.answered a).consulIndex = if a.toOption.any HealthResponse.isSuccess then
      s.catalog.index else s.task.consulIndex := by
  rw [answered_eq]
  cases a with
  | error m => rfl
  | ok resp =>
    have known := tells resp rfl
    unfold State.Tells at known
    change resp.nextIndex s.task.consulIndex = if resp.isSuccess = true then _ else _
    unfold HealthResponse.nextIndex
    split_ifs at known ⊢ with success
    · rw [known.1, Option.getD_some]
    · rw [known, Option.getD_none]

/-- The call goes on only if Consul knows no instance. -/
lemma findHealthy_of_silent {a : Answer} (tells : ∀ resp, a = .ok resp → s.Tells resp)
    (success : a.toOption.any HealthResponse.isSuccess = true) (silent : outcome a = none) :
    findHealthy s.catalog.entries = none := by
  cases a with
  | error m => cases success
  | ok resp =>
    have succeeds : resp.isSuccess = true := success
    have known := tells resp rfl
    rw [State.Tells, if_pos succeeds] at known
    rw [outcome, if_pos succeeds, known.2.1] at silent
    exact Option.map_eq_none_iff.mp silent

lemma Fresh.answered (fresh : Fresh s) {a : Answer} {q : Query} (at_ : s.task.phase = .asked q)
    (tells : ∀ resp, a = .ok resp → s.Tells resp) :
    Fresh { s with task := s.task.answered a } := by
  have seen := consulIndex_answered tells
  have phase : (s.task.answered a).phase = afterAnswer a := by rw [answered_eq]
  have unasked : ∀ q, afterAnswer a ≠ .asked q := by
    intro q
    unfold afterAnswer
    split
    · nofun
    · split_ifs <;> nofun
  refine ⟨?_, fun waits healthy => ?_, ?_, ?_, ?_, ?_⟩
  · change (s.task.answered a).consulIndex ≤ s.catalog.index
    rw [seen]
    split_ifs
    · exact UInt64.le_refl _
    · exact fresh.shown
  · change (s.task.answered a).consulIndex < s.catalog.index
    have silent : outcome a = none := by
      cases told : outcome a with
      | none => rfl
      | some result =>
        refine absurd ?_ (waits result)
        change (s.task.answered a).phase = _
        rw [phase, afterAnswer, told]
    rw [seen]
    split_ifs with success
    · rw [findHealthy_of_silent tells success silent] at healthy
      cases healthy
    · exact fresh.behind (fun result same => by rw [at_] at same; cases same) healthy
  · exact fun q asked => absurd (phase.symm.trans asked) (unasked q)
  · change (s.task.answered a).since ≤ (s.task.answered a).now
    rw [answered_eq]
  · exact fun q asked => absurd (phase.symm.trans asked) (unasked q)
  · intro time ready
    change time ≤ (s.task.answered a).now
    rw [answered_eq]
    exact fresh.past time ready

lemma Fresh.next (fresh : Fresh s) {e : Event} (taken : step w s e = some t)
    (blocking : Blocking h s e) : Fresh t := by
  cases e with
  | change catalog =>
    simp only [step] at taken
    split_ifs at taken with newer
    obtain rfl := Option.some.inj taken
    refine ⟨UInt64.le_trans fresh.shown (UInt64.le_of_lt newer),
      fun _ _ => UInt64.lt_of_le_of_lt fresh.shown newer, fresh.asks, fresh.since,
      fun _ _ _ => ?_, fun time ready => ?_⟩
    · cases s.readyAt <;> simp
    · cases before : s.readyAt with
      | none =>
        obtain rfl : s.task.now = time := by simpa [before] using ready
        exact le_rfl
      | some first =>
        obtain rfl : first = time := by simpa [before] using ready
        exact fresh.past first before
  | task e =>
    obtain ⟨u, moved, rfl⟩ := Option.map_eq_some_iff.mp taken
    cases moves_of_step moved with
    | advance nanos =>
      exact { fresh with
        since := fresh.since.trans (Nat.le_add_right _ _)
        past := fun time ready => (fresh.past time ready).trans (Nat.le_add_right _ _) }
    | late at_ past =>
      exact ⟨fresh.shown, fun waits => absurd rfl (waits _), nofun, le_rfl, nofun, fresh.past⟩
    | early at_ | resume at_ =>
      refine ⟨fresh.shown, fun _ => fresh.behind ?_, nofun, le_rfl, nofun, fresh.past⟩
      exact fun result same => by rw [at_] at same; cases same
    | send at_ =>
      refine ⟨fresh.shown, fun _ => fresh.behind ?_, ?_, le_rfl, ?_, ?_⟩
      · exact fun result same => by rw [at_] at same; cases same
      · rintro q asked
        obtain rfl := Phase.asked.inj asked
        exact ⟨rfl, le_max_right _ _⟩
      · intro q _ behind
        simp [State.readiness, show s.task.consulIndex < s.catalog.index from behind]
      · intro time ready
        simp only [State.readiness] at ready
        split_ifs at ready
        exact (Option.some.inj ready).ge
    | answer q a at_ =>
      refine fresh.answered at_ ?_
      rintro resp rfl
      exact blocking

lemma fresh_of_run (run : RunWhere (system w catalog) C h s)
    (blocking : ∀ h s e, C h s e → Blocking h s e) : Fresh s :=
  run.state_invariant Fresh .start fun h s _ e fresh taken cond => fresh.next taken (blocking h s e cond)

end

/-! ## An instance is noticed -/

/-- Consul is as it documents, and nothing is held up. -/
def Documented (slack latency : ℕ) : Condition State Event := fun h s e =>
  Blocking h s e ∧ Timely slack latency h s e

section
variable {w : Wait} {catalog : Catalog} {slack latency begun : ℕ} {C : Condition State Event}
  {h : List Event} {s t : State}

lemma due_le (s : State) (q : Query) : s.due q ≤ s.task.since + q.waitSecs * second := by
  unfold State.due
  split
  · exact min_le_right _ _
  · exact le_rfl

lemma due_le_ready {time : ℕ} (ready : s.readyAt = some time) (q : Query) : s.due q ≤ time := by
  unfold State.due
  rw [ready]
  exact min_le_left _ _

lemma prompt_next {e : Event} (prompt : s.Prompt slack latency s.task.now)
    (taken : step w s e = some t) (timely : Timely slack latency h s e) :
    t.Prompt slack latency t.task.now := by
  cases e with
  | change catalog =>
    simp only [step] at taken
    split_ifs at taken
    obtain rfl := Option.some.inj taken
    cases at_ : s.task.phase with
    | asked q =>
      simp only [State.Prompt, at_] at prompt ⊢
      cases ready : s.readyAt with
      | some time => simpa [State.due, ready] using prompt
      | none =>
        simp only [State.due, ready, Option.none_or] at prompt ⊢
        omega
    | returned result => simp only [State.Prompt, at_]
    | _ => simpa only [State.Prompt, at_] using prompt
  | task e =>
    obtain ⟨u, moved, rfl⟩ := Option.map_eq_some_iff.mp taken
    cases moves_of_step moved with
    | advance nanos => exact timely
    | late => trivial
    | early => exact Nat.le_add_right _ _
    | send at_ =>
      have ends : s.task.now ≤ s.task.now +
          (w.query s.task.consulIndex s.task.now).waitSecs * second := Nat.le_add_right _ _
      simp only [State.Prompt, enter_phase, enter_now, State.due, State.readiness, enter_since]
      split_ifs <;> simp only <;> omega
    | answer q a at_ =>
      rw [answered_eq]
      unfold afterAnswer State.Prompt
      cases outcome a with
      | some result => trivial
      | none => dsimp only; split_ifs <;> dsimp only <;> omega
    | resume => exact Nat.le_add_right _ _

lemma prompt_of_run (run : RunWhere (system w catalog) C h s)
    (timely : ∀ h s e, C h s e → Timely slack latency h s e) : s.Prompt slack latency s.task.now := by
  refine run.state_invariant (fun s => s.Prompt slack latency s.task.now) (Nat.le_add_right _ _)
    fun h s _ e prompt taken cond => prompt_next prompt taken (timely h s e cond)

/-- Where the task is after Consul has had an instance since `begun`. -/
def State.Noticing (slack begun : ℕ) (s : State) : Prop :=
  match s.task.phase with
  | .pause => s.task.since ≤ begun
  | .check => s.task.since ≤ begun + halfSecond + slack
  | .remaining => s.task.since ≤ begun + halfSecond + 2 * slack
  | .asked _ => ∃ time, s.readyAt = some time ∧ time ≤ begun + halfSecond + 3 * slack
  | .returned result => ∃ ep, result = .ok ep

/-- Consul has an instance, and the task comes to it. -/
structure Noticed (slack latency begun : ℕ) (s : State) : Prop where
  fresh : Fresh s
  prompt : s.Prompt slack latency s.task.now
  healthy : (findHealthy s.catalog.entries).isSome = true
  noticing : s.Noticing slack begun

lemma Noticed.start (fresh : Fresh s) (prompt : s.Prompt slack latency s.task.now)
    (healthy : (findHealthy s.catalog.entries).isSome = true)
    (waits : ∀ result, s.task.phase ≠ .returned result) : Noticed slack latency s.task.now s := by
  have since := fresh.since
  refine ⟨fresh, prompt, healthy, ?_⟩
  unfold State.Noticing
  cases at_ : s.task.phase with
  | asked q =>
    obtain ⟨time, ready⟩ := Option.isSome_iff_exists.mp (fresh.ready q at_ (fresh.behind waits healthy))
    exact ⟨time, ready, (fresh.past time ready).trans (by omega)⟩
  | returned result => exact absurd at_ (waits result)
  | _ =>
    dsimp only
    omega

/-- A response that tells what Consul knows ends the call. -/
lemma outcome_of_tells {resp : HealthResponse} (tells : s.Tells resp) (success : resp.isSuccess = true)
    (healthy : (findHealthy s.catalog.entries).isSome = true) :
    ∃ ep, outcome (.ok resp) = some (.ok ep) := by
  rw [State.Tells, if_pos success] at tells
  obtain ⟨ep, found⟩ := Option.isSome_iff_exists.mp healthy
  exact ⟨ep, by rw [outcome, if_pos success, tells.2.1]; simp only [found, Option.map_some]⟩

lemma Noticed.next {e : Event} (noticed : Noticed slack latency begun s)
    (inTime : begun + halfSecond + 2 * slack < w.deadline) (taken : step w s e = some t)
    (documented : Documented slack latency h s e) (lasting : Lasting h s e) :
    Noticed slack latency begun t := by
  have fresh := noticed.fresh.next taken documented.1
  have prompt := prompt_next noticed.prompt taken documented.2
  have noticing := noticed.noticing
  have bound := noticed.prompt
  cases e with
  | change catalog =>
    simp only [step] at taken
    split_ifs at taken
    obtain rfl := Option.some.inj taken
    refine ⟨fresh, prompt, lasting, ?_⟩
    unfold State.Noticing at noticing ⊢
    cases at_ : s.task.phase with
    | asked q =>
      simp only [at_] at noticing ⊢
      obtain ⟨time, ready, before⟩ := noticing
      exact ⟨time, by simp [ready], before⟩
    | _ => simpa only [at_] using noticing
  | task e =>
    obtain ⟨u, moved, rfl⟩ := Option.map_eq_some_iff.mp taken
    refine ⟨fresh, prompt, noticed.healthy, ?_⟩
    cases moves_of_step moved with
    | advance nanos => exact noticing
    | late at_ past =>
      simp only [State.Noticing, at_] at noticing
      simp only [State.Prompt, at_] at bound
      omega
    | early at_ left =>
      simp only [State.Noticing, at_] at noticing
      simp only [State.Prompt, at_] at bound
      change s.task.now ≤ begun + halfSecond + 2 * slack
      omega
    | send at_ =>
      simp only [State.Noticing, at_] at noticing
      simp only [State.Prompt, at_] at bound
      have behind := noticed.fresh.behind (fun result same => by rw [at_] at same; cases same)
        noticed.healthy
      exact ⟨s.task.now, if_pos behind, by omega⟩
    | resume at_ past =>
      simp only [State.Noticing, at_] at noticing
      simp only [State.Prompt, at_] at bound
      change s.task.now ≤ begun + halfSecond + slack
      omega
    | answer q a at_ =>
      cases a with
      | error m => cases lasting
      | ok resp =>
        obtain ⟨ep, told⟩ := outcome_of_tells documented.1 lasting noticed.healthy
        change State.Noticing slack begun ⟨s.task.answered (.ok resp), s.catalog, s.readyAt⟩
        rw [answered_eq, afterAnswer, told]
        exact ⟨ep, rfl⟩

end

def fallbackOnly : Catalog := ⟨41, [fallbackEntry], by decide⟩

def withInstance : Catalog := ⟨42, [fallbackEntry, webEntry], by decide⟩

/-- The first answer, and a query that blocks for two of its five seconds. -/
def blockedQuery : List Event :=
  [.task .check, .task .send, .task (.answer (listing "41" [fallbackEntry])), .task .check, .task .send,
    .task (.advance (2 * second))]

instance (slack latency : ℕ) (h : List Event) (s : State) (e : Event) :
    Decidable (Documented slack latency h s e) := inferInstanceAs (Decidable (_ ∧ _))

def sends (h : List Event) : ℕ := h.countP (· = .task .send)

def changes (h : List Event) : ℕ := h.countP fun | .change _ => true | .task _ => false

/-- The task has been shown what Consul knows. -/
def State.shownNow (s : State) : ℕ := if s.task.consulIndex = s.catalog.index then 1 else 0

/-- A query whose time is not yet spent. -/
def State.unspent (s : State) : ℕ :=
  match s.task.phase with
  | .asked _ | .pause | .returned _ => 1
  | _ => 0

section
variable {w : Wait} {catalog : Catalog} {C : Condition State Event} {h : List Event} {s t : State}

/-- Every query is paid for by a change of Consul or by half a second. -/
structure Paced (w : Wait) (h : List Event) (s : State) : Prop where
  begun : w.start ≤ s.task.since
  paid : 500000000 * sends h + w.start ≤
    500000000 * (changes h + s.shownNow + s.unspent) + s.task.since

lemma unspent_le (s : State) : s.unspent ≤ 1 := by
  unfold State.unspent
  split <;> omega

lemma shownNow_le (s : State) : s.shownNow ≤ 1 := by
  unfold State.shownNow
  split_ifs <;> omega

/-- A response that tells the task what it knew has taken a second at least. -/
lemma Paced.answered (paced : Paced w h s) (fresh : Fresh s) {q : Query} {a : Answer}
    (at_ : s.task.phase = .asked q) (tells : ∀ resp, a = .ok resp → s.Tells resp) :
    Paced w (.task (.answer a) :: h) { s with task := s.task.answered a } := by
  have begun := paced.begun
  have since := fresh.since
  have paid := paced.paid
  have seen := consulIndex_answered tells
  have unspent : s.unspent = 1 := by simp [State.unspent, at_]
  have counted : sends (.task (.answer a) :: h) = sends h := by simp [sends]
  have changed : changes (.task (.answer a) :: h) = changes h := by simp [changes]
  have later : (s.task.answered a).since = s.task.now := by rw [answered_eq]
  have phase : (s.task.answered a).phase = afterAnswer a := by rw [answered_eq]
  refine ⟨by rw [later]; omega, ?_⟩
  rw [counted, changed, later]
  by_cases success : a.toOption.any HealthResponse.isSuccess = true
  · have shown : State.shownNow { s with task := s.task.answered a } = 1 := by
      rw [State.shownNow, if_pos]
      rw [seen, if_pos success]
    rw [shown]
    by_cases knew : s.task.consulIndex = s.catalog.index
    · have blocked : s.task.since + second ≤ s.task.now := by
        cases a with
        | error m => cases success
        | ok resp =>
          have told := tells resp rfl
          rw [State.Tells, if_pos (show resp.isSuccess = true from success)] at told
          have whole := Nat.mul_le_mul_right second (fresh.asks q at_).2
          rcases told.2.2 with behind | blocked
          · rw [knew] at behind
            exact absurd behind (UInt64.lt_irrefl _)
          · have spent := blocked q at_
            omega
      have shownBefore := shownNow_le s
      have whole : second = 1000000000 := rfl
      omega
    · have unshown : s.shownNow = 0 := if_neg knew
      omega
  · have same : State.shownNow { s with task := s.task.answered a } = s.shownNow := by
      unfold State.shownNow
      dsimp only
      rw [seen, if_neg success]
    have still : State.unspent { s with task := s.task.answered a } = 1 := by
      unfold State.unspent
      dsimp only
      rw [phase, afterAnswer]
      cases outcome a with
      | some result => rfl
      | none => simp only [if_neg success]
    rw [same, still]
    omega

lemma Paced.next {e : Event} (paced : Paced w h s) (fresh : Fresh s) (taken : step w s e = some t)
    (blocking : Blocking h s e) : Paced w (e :: h) t := by
  have begun := paced.begun
  have since := fresh.since
  have paid := paced.paid
  cases e with
  | change catalog =>
    simp only [step] at taken
    split_ifs at taken with newer
    obtain rfl := Option.some.inj taken
    have counted : sends (.change catalog :: h) = sends h := by simp [sends]
    have changed : changes (.change catalog :: h) = changes h + 1 := by simp [changes]
    have shown := shownNow_le s
    refine ⟨begun, ?_⟩
    rw [counted, changed]
    change _ ≤ 500000000 * (changes h + 1 + _ + s.unspent) + s.task.since
    omega
  | task e =>
    obtain ⟨u, moved, rfl⟩ := Option.map_eq_some_iff.mp taken
    cases moves_of_step moved with
    | advance nanos => exact ⟨begun, paid⟩
    | answer q a at_ =>
      refine paced.answered fresh at_ ?_
      rintro resp rfl
      exact blocking
    | send at_ =>
      have unspent : s.unspent = 0 := by simp [State.unspent, at_]
      have counted : sends (.task .send :: h) = sends h + 1 := by simp [sends]
      refine ⟨by rw [enter_since]; omega, ?_⟩
      rw [counted]
      change _ ≤ 500000000 * (changes h + s.shownNow + 1) + s.task.now
      omega
    | late at_ past =>
      have unspent : s.unspent = 0 := by simp [State.unspent, at_]
      refine ⟨by rw [enter_since]; omega, ?_⟩
      change 500000000 * sends h + w.start ≤ 500000000 * (changes h + s.shownNow + 1) + s.task.now
      omega
    | early at_ left =>
      have unspent : s.unspent = 0 := by simp [State.unspent, at_]
      refine ⟨by rw [enter_since]; omega, ?_⟩
      change 500000000 * sends h + w.start ≤ 500000000 * (changes h + s.shownNow + 0) + s.task.now
      omega
    | resume at_ past =>
      have unspent : s.unspent = 1 := by simp [State.unspent, at_]
      have half : halfSecond = 500000000 := rfl
      refine ⟨by rw [enter_since]; omega, ?_⟩
      change 500000000 * sends h + w.start ≤ 500000000 * (changes h + s.shownNow + 0) + s.task.now
      omega

/-- The loop does not spin: apart from two queries, every one follows a change of Consul or has
taken half a second. -/
theorem sends_le (w : Wait) (catalog : Catalog) (h : List Event) (s : State)
    (run : RunWhere (system w catalog) Blocking h s) :
    sends h ≤ changes h + 2 + (s.task.now - w.start) / halfSecond := by
  have fresh := fresh_of_run run fun _ _ _ => id
  have paced : Paced w h s := by
    refine run.invariant (fun h s => Paced w h s) ⟨le_rfl, ?_⟩ fun h s t e prior paced taken cond =>
      paced.next (fresh_of_run prior fun _ _ _ => id) taken cond
    change 500000000 * 0 + w.start ≤ _ + w.start
    omega
  have since := fresh.since
  have begun := paced.begun
  have paid := paced.paid
  have shown := shownNow_le s
  have unspent := unspent_le s
  change sends h ≤ changes h + 2 + (s.task.now - w.start) / 500000000
  omega

end

/-- Two queries in two seconds. -/
theorem blockedQuery_sends : ∃ h, sends h = 2 ∧ sends h ≤ changes h + 2 + 2 * second / halfSecond := by
  obtain ⟨h, s, run, two, now⟩ := exists_run (T := system webWait fallbackOnly) (C := Blocking)
    (fun h s => sends h = 2 ∧ s.task.now = 2 * second) blockedQuery (by decide +kernel)
  have le := sends_le webWait fallbackOnly h s run
  rw [now] at le
  exact ⟨h, two, le⟩

end NScale.ConsulWatch
