import NScale.ProxyHandler
import NScale.WakeAlone

/-!
# A cached endpoint that fails

The request handler against the wake coordinator of its replica and backends that may fail.
Until the first attempt to forward the request has come back everybody uses the coordinator;
from then on only the handler does, and Nomad denies the endpoint that was tried.
-/
namespace NScale.EndpointPinning
open Transition Service WakeCoordinator

/-- What was tried when the first attempt came back, and what was cached then. -/
structure Attempt where
  job : JobId
  endpoint : Endpoint
  cached : Option Endpoint
  nextTask : ℕ
  deriving DecidableEq

structure World where
  coordinator : State
  /-- the job of the request and the backend it was last sent to -/
  job : JobId
  endpoint : Endpoint
  /-- how the attempts to forward the request ended, oldest first -/
  outcomes : List Forwarded
  first : Option Attempt
  /-- the steps of the coordinator since the first attempt -/
  events : List Event

namespace World
variable (w : World)

/-- Who uses the coordinator while the handler awaits a call, or something else. -/
def users (awaited : Option ℕ) : Condition State Event :=
  match w.first with
  | none => fun _ _ _ => True
  | some a => Alone awaited a.nextTask a.endpoint

def attempt : Attempt :=
  ⟨w.job, w.endpoint, w.coordinator.endpoints w.job, w.coordinator.nextTask⟩

/-- An attempt to forward the request comes back. -/
def cameBack (outcome : Forwarded) : World :=
  match w.first with
  | none => { w with outcomes := [outcome], first := some w.attempt, events := [] }
  | some _ => { w with outcomes := w.outcomes ++ [outcome] }

def begin (op : Operation) : World :=
  { w with coordinator := Event.next w.coordinator (.begin op), events := .begin op :: w.events }

/-- The coordinator goes on. -/
def Awaits (cfg : Config) (awaited : Option ℕ) (w u : World) : Prop :=
  ∃ h s, RunFrom (system cfg.nomadConcurrency cfg.wakeTimeout) (w.users awaited)
    w.events w.coordinator h s ∧ u = { w with coordinator := s, events := h }

end World

/-- The call of the coordinator that the operation awaits. -/
def awaited? : Op → Option ℕ
  | .ensured _ c | .refreshed _ c | .cleared _ c => some c
  | _ => none

/-- The operation can be answered like this. -/
def Returns (w : World) : (op : Op) → op.Answer → Prop
  | .call _, c => c = w.coordinator.nextCall
  | .ensured reg c, r => w.coordinator.calls c = some (.ensured reg r)
  | .refreshed reg c, r => w.coordinator.calls c = some (.refreshed reg r)
  | .cleared job c, _ => w.coordinator.calls c = some (.cleared job)
  | _, _ => True

/-- What the operation does when it is answered. -/
def World.next (w : World) : (op : Op) → op.Answer → World
  | .call op, _ => w.begin op
  | .track job, _ => { w with job := job }
  | .connect ep, .ok () => { w with endpoint := ep }
  | .connect ep, .error e => { w with endpoint := ep }.cameBack (.error e)
  | .send _ ep _ _, _ => { w with endpoint := ep }
  | .response, r | .upgradeResponse, r => w.cameBack r
  | _, _ => w

/-- An operation of the handler, with what the coordinator does meanwhile. -/
def Answers (cfg : Config) (op : Op) (w : World) (r : op.Answer) (u : World) : Prop :=
  ∃ v, w.Awaits cfg (awaited? op) v ∧ Returns v op r ∧ u = v.next op r

/-- The attempt failed in a way that is tried again. -/
def Lost : Forwarded → Bool
  | .ok _ => false
  | .error e => e.isRetryableTransport

/-- The request is one that the handler repeats, and no repetition got through. -/
def Exhausted (req : Request) (outcomes : List Forwarded) : Prop :=
  req.upgrade = false ∧ (replayableMethod req.method).isSome = true ∧
    ∀ o ∈ outcomes.take (1 + transientRetryBackoff.length), Lost o = true

variable {cfg : Config} {a : Attempt} {l : List Forwarded} {w u : World} {op : Op}

/-! ## Before the first attempt -/

structure Before (w : World) : Prop where
  first : w.first = none
  wf : WellFormed w.coordinator

lemma Before.awaits (before : Before w) {c : Option ℕ} (run : w.Awaits cfg c u) : Before u := by
  obtain ⟨h, s, run, rfl⟩ := run
  refine ⟨before.first, run.state_invariant WellFormed before.wf ?_⟩
  rintro h s t e wf taken -
  obtain ⟨en, rfl⟩ := step_iff.mp taken
  exact wf.next en

/-- Operations that do not end an attempt. -/
def Silent : Op → Prop
  | .connect _ | .response | .upgradeResponse => False
  | _ => True

lemma Before.silent (before : Before w) {r : op.Answer} (silent : Silent op)
    (answered : Answers cfg op w r u) : Before u := by
  obtain ⟨v, run, -, rfl⟩ := answered
  have before := before.awaits run
  cases op with
  | call op => exact ⟨before.first, before.wf.next (e := .begin op) rfl⟩
  | connect | response | upgradeResponse => exact silent.elim
  | _ => exact ⟨before.first, before.wf⟩

/-- The handler tracks the job and is about to try a backend. -/
def Ready (job : JobId) (w : World) : Prop := Before w ∧ w.job = job

/-- Operations that have to do neither with the coordinator nor with a backend's answer. -/
def Quiet : Op → Prop
  | .call _ | .ensured .. | .refreshed .. | .cleared .. => False
  | op => Silent op

lemma Quiet.silent (quiet : Quiet op) : Silent op := by
  cases op <;> first | exact quiet | trivial

lemma Quiet.awaited? (quiet : Quiet op) : EndpointPinning.awaited? op = none := by
  cases op <;> first | rfl | exact quiet.elim

lemma Ready.quiet {job : JobId} (ready : Ready job w) {r : op.Answer} (quiet : Quiet op)
    (other : ∀ j, op ≠ .track j) (answered : Answers cfg op w r u) : Ready job u := by
  refine ⟨ready.1.silent quiet.silent answered, ?_⟩
  obtain ⟨v, ⟨h, s, -, rfl⟩, -, rfl⟩ := answered
  cases op with
  | track j => exact absurd rfl (other j)
  | call | ensured | refreshed | cleared | connect | response | upgradeResponse => exact quiet.elim
  | _ => exact ready.2

/-! ## After the first attempt -/

/-- The handler's attempts so far, and what holds of the coordinator. -/
structure After (Q : List Event → State → Prop) (a : Attempt) (l : List Forwarded) (w : World) :
    Prop where
  first : w.first = some a
  outcomes : w.outcomes = l
  holds : Q w.events w.coordinator

/-- The property survives what the wake tasks do on their own. -/
def Stable (a : Attempt) (Q : List Event → State → Prop) : Prop :=
  ∀ n timeout h₀ s₀ h s, Q h₀ s₀ →
    RunFrom (system n timeout) (Alone none a.nextTask a.endpoint) h₀ s₀ h s → Q h s

/-- The coordinator is as it was when the first attempt came back. -/
def Unmoved (a : Attempt) (h : List Event) (s : State) : Prop :=
  Untouched a.job a.endpoint a.nextTask h s ∧ s.endpoints a.job = a.cached

/-- The endpoint is not cached any more, and the job was not woken again. -/
def Gone (a : Attempt) (h : List Event) (s : State) : Prop :=
  Untouched a.job a.endpoint a.nextTask h s ∧ s.endpoints a.job ≠ some a.endpoint

lemma stable_unmoved (a : Attempt) : Stable a (Unmoved a) := by
  rintro n timeout h₀ s₀ h s unmoved run
  obtain ⟨rfl, rfl⟩ := alone_idle unmoved.1.idle run
  exact unmoved

lemma stable_gone (a : Attempt) : Stable a (Gone a) := by
  rintro n timeout h₀ s₀ h s gone run
  obtain ⟨rfl, rfl⟩ := alone_idle gone.1.idle run
  exact gone

lemma stable_oneTask (a : Attempt) : Stable a (OneTask a.job a.endpoint a.nextTask) :=
  fun _ _ _ _ _ _ one run => one.alone_none run

lemma stable_spent (a : Attempt) : Stable a (Spent a.job a.endpoint a.nextTask) :=
  fun _ _ _ _ _ _ spent run => spent.alone_none run

lemma Gone.oneTask {h : List Event} {s : State} (gone : Gone a h s) :
    OneTask a.job a.endpoint a.nextTask h s := gone.1.oneTask gone.2

/-- What is cached when the first attempt comes back. -/
lemma Ready.cameBack {job : JobId} (ready : Ready job w) (r : Forwarded) :
    ∃ a, a.job = job ∧ After (Unmoved a) a [r] (w.cameBack r) := by
  refine ⟨w.attempt, ready.2, ?_⟩
  have first := ready.1.first
  unfold World.cameBack
  rw [first]
  refine ⟨rfl, rfl, ⟨?_, rfl, by simp [Published]⟩, rfl⟩
  intro t later
  by_contra some_
  obtain ⟨k, hk⟩ := Option.ne_none_iff_exists'.mp some_
  exact absurd (ready.1.wf.tasks hk) (Nat.not_lt.mpr later)

namespace After
variable {Q Q' : List Event → State → Prop}

lemma imp (after : After Q a l w) (imp : ∀ h s, Q h s → Q' h s) : After Q' a l w :=
  ⟨after.first, after.outcomes, imp _ _ after.holds⟩

/-- The run of the coordinator behind an operation. -/
lemma awaits (after : After Q a l w) {c : Option ℕ} (run : w.Awaits cfg c u)
    (keep : ∀ h s, RunFrom (system cfg.nomadConcurrency cfg.wakeTimeout)
      (Alone c a.nextTask a.endpoint) w.events w.coordinator h s → Q' h s) : After Q' a l u := by
  obtain ⟨h, s, run, rfl⟩ := run
  refine ⟨after.first, after.outcomes, keep h s ?_⟩
  simpa only [World.users, after.first] using run

lemma quiet (after : After Q a l w) (stable : Stable a Q) {r : op.Answer} (quiet : Quiet op)
    (answered : Answers cfg op w r u) : After Q a l u := by
  obtain ⟨v, run, -, rfl⟩ := answered
  rw [quiet.awaited?] at run
  have after := after.awaits run fun h s run => stable _ _ _ _ h s after.holds run
  cases op with
  | call | ensured | refreshed | cleared | connect | response | upgradeResponse => exact quiet.elim
  | _ => exact ⟨after.first, after.outcomes, after.holds⟩

lemma response (after : After Q a l w) (stable : Stable a Q) {r : Forwarded}
    (answered : Answers cfg .response w r u) : After Q a (l ++ [r]) u := by
  obtain ⟨v, run, -, rfl⟩ := answered
  have after := after.awaits run fun h s run => stable _ _ _ _ h s after.holds run
  unfold World.next World.cameBack
  dsimp only
  rw [after.first]
  exact ⟨rfl, by simp [after.outcomes], after.holds⟩

end After

/-! ## The calls of the coordinator -/

/-- A call is numbered and stands at its entry. -/
lemma After.call {Q : List Event → State → Prop} (after : After Q a l w) (stable : Stable a Q)
    {operation : Operation} {c : ℕ} (answered : Answers cfg (.call operation) w c u) :
    After (fun h s => ∃ h₀ s₀, Q h₀ s₀ ∧ h = .begin operation :: h₀ ∧
      s = Event.next s₀ (.begin operation) ∧ c = s₀.nextCall) a l u := by
  obtain ⟨v, run, rfl, rfl⟩ := answered
  have after := after.awaits run fun h s run => stable _ _ _ _ h s after.holds run
  exact ⟨after.first, after.outcomes, _, _, after.holds, rfl, rfl, rfl⟩

lemma begin_call (s : State) (operation : Operation) :
    (Event.next s (.begin operation)).calls s.nextCall = some operation.call := by
  simp [Event.next]

variable {reg : JobRegistration}

lemma triple_refreshEndpoint (own : a.job = reg.jobId) (current : Endpoint) :
    Program.Triple (Answers cfg) (After (Unmoved a) a l) (refreshEndpoint reg current)
      fun r w => (∃ x, r = .ok x) ∧ After (Gone a) a l w := by
  refine .bind (.call fun w c u after answered => after.call (stable_unmoved a) answered) fun c => ?_
  refine .call fun w r u after answered => ?_
  obtain ⟨v, run, returned, rfl⟩ := answered
  obtain ⟨h₀, s₀, unmoved, hh, hs, rfl⟩ := after.holds
  have call : w.coordinator.calls s₀.nextCall = some (.query reg current) := by
    rw [hs]; exact begin_call s₀ _
  have un : Untouched reg.jobId a.endpoint a.nextTask w.events w.coordinator := by
    rw [hh, hs, ← own]; exact unmoved.1.of_eq id rfl rfl
  have after := after.awaits run fun h s run => alone_refresh un call run
  obtain ⟨un, k, at_, pos⟩ := after.holds
  obtain rfl := Option.some.inj (at_.symm.trans returned)
  obtain ⟨-, ok, gone⟩ := pos
  exact ⟨ok, after.first, after.outcomes, by rw [own]; exact un, by rw [own]; exact gone⟩

lemma triple_ensureRunning (own : a.job = reg.jobId) :
    Program.Triple (Answers cfg) (After (Gone a) a l) (ensureRunning reg) fun r w =>
      After (OneTask a.job a.endpoint a.nextTask) a l w ∧
        ∀ jobId, r = .error (.jobNotFound jobId) → After (Spent a.job a.endpoint a.nextTask) a l w := by
  refine .bind (.call fun w c u after answered => after.call (stable_gone a) answered) fun c => ?_
  refine .call fun w r u after answered => ?_
  obtain ⟨v, run, returned, rfl⟩ := answered
  obtain ⟨h₀, s₀, gone, hh, hs, rfl⟩ := after.holds
  have call : w.coordinator.calls s₀.nextCall = some (.fastPath reg) := by
    rw [hs]; exact begin_call s₀ _
  have un : Untouched reg.jobId a.endpoint a.nextTask w.events w.coordinator := by
    rw [hh, hs, ← own]; exact gone.1.of_eq id rfl rfl
  have absent : w.coordinator.endpoints reg.jobId ≠ some a.endpoint := by
    rw [hs, ← own]; exact gone.2
  have after := after.awaits run fun h s run => alone_rewake un absent call run
  obtain ⟨one, k, at_, pos⟩ := after.holds
  obtain rfl := Option.some.inj (at_.symm.trans returned)
  refine ⟨⟨after.first, after.outcomes, by rw [own]; exact one⟩, ?_⟩
  rintro jobId rfl
  obtain ⟨no, -⟩ | ⟨-, told⟩ := pos
  · exact no.elim
  · exact ⟨after.first, after.outcomes, by rw [own]; exact told trivial⟩

lemma triple_markDormant (job : JobId) :
    Program.Triple (Answers cfg) (After (Spent a.job a.endpoint a.nextTask) a l) (markDormant job)
      fun _ => After (Spent a.job a.endpoint a.nextTask) a l := by
  refine .bind (.call fun w c u after answered => after.call (stable_spent a) answered) fun c => ?_
  refine .call fun w r u after answered => ?_
  obtain ⟨v, run, -, rfl⟩ := answered
  obtain ⟨h₀, s₀, spent, hh, hs, rfl⟩ := after.holds
  have call : w.coordinator.calls s₀.nextCall = some (.evict job .markDormant) := by
    rw [hs]; exact begin_call s₀ _
  have spent : Spent a.job a.endpoint a.nextTask w.events w.coordinator := by
    rw [hh, hs]; exact spent.of_eq id rfl rfl
  exact after.awaits run fun h s run => alone_markDormant spent call run

/-! ## The handler -/

/-- How the handler leaves the cache: as it was, or with the endpoint only if a wake task has
put it back. -/
def Settled (req : Request) (w : World) : Prop :=
  ∃ a l, After (Unmoved a) a l w ∧ ¬ Exhausted req l ∨
    After (OneTask a.job a.endpoint a.nextTask) a l w ∧ Exhausted req l

lemma Settled.quiet {req : Request} (settled : Settled req w) {r : op.Answer} (quiet : Quiet op)
    (answered : Answers cfg op w r u) : Settled req u := by
  obtain ⟨a, l, ⟨after, lucky⟩ | ⟨after, exhausted⟩⟩ := settled
  · exact ⟨a, l, .inl ⟨after.quiet (stable_unmoved a) quiet answered, lucky⟩⟩
  · exact ⟨a, l, .inr ⟨after.quiet (stable_oneTask a) quiet answered, exhausted⟩⟩

lemma Exhausted.lost {req : Request} {r : Forwarded} (exhausted : Exhausted req [r]) :
    Lost r = true := exhausted.2.2 r (by simp [transientRetryBackoff])

/-- Further attempts do not matter. -/
lemma exhausted_append {req : Request} {m : List Forwarded} (long : l.length = 3) :
    Exhausted req (l ++ m) ↔ Exhausted req l := by
  unfold Exhausted
  rw [List.take_append_of_le_length (by simp [long, transientRetryBackoff])]

section
variable {Q : List Event → State → Prop} {α : Type} {p : Code α}

lemma triple_quiet (stable : Stable a Q) (uses : p.Uses Quiet) :
    Program.Triple (Answers cfg) (After Q a l) p fun _ => After Q a l :=
  .of_uses _ uses fun _ _ _ _ quiet after answered => after.quiet stable quiet answered

lemma triple_forwardRequest (stable : Stable a Q) (job : JobId) (ep : Endpoint) (method : Method)
    (uri : String) :
    Program.Triple (Answers cfg) (After Q a l) (forwardRequest job ep method uri)
      fun r => After Q a (l ++ [r]) :=
  have sent : Quiet (.send job ep method uri) := trivial
  .bind (.call fun _ _ _ after answered => after.quiet stable sent answered) fun _ =>
    .call fun _ _ _ after answered => after.response stable answered

lemma perform_quiet (quiet : Quiet op) : (perform op).Uses Quiet := ⟨quiet, fun _ => trivial⟩

lemma registry_quiet (x : JobRegistry.Action α) : (registry x).Uses Quiet :=
  .lift ((Program.Uses.all x.run).mono fun _ _ => trivial)

lemma clearMissingJobCounter_quiet (job : JobId) : (clearMissingJobCounter cfg job).Uses Quiet := by
  unfold clearMissingJobCounter
  split
  · exact .bind (perform_quiet trivial) fun _ => trivial
  · trivial

/-- The cleanup of a missing job keeps what marking it dormant and quiet operations keep. -/
lemma triple_handleMissingJob {I : World → Prop} (job : JobId) (source : String)
    (dormant : Program.Triple (Answers cfg) I (markDormant job) fun _ => I)
    (quiet : ∀ {op w r u}, Quiet op → I w → Answers cfg op w r u → I u) :
    Program.Triple (Answers cfg) I (handleMissingJob cfg job source) fun _ => I := by
  have calm {α : Type} {p : Code α} (uses : p.Uses Quiet) :
      Program.Triple (Answers cfg) I p fun _ => I := .of_uses I uses fun _ _ _ _ => quiet
  have cleanup : Program.Triple (Answers cfg) I (cleanupMissingJobState cfg job) fun _ => I := by
    refine .bind dormant fun _ => .bind (calm (perform_quiet trivial)) fun _ => ?_
    refine .bind (calm (registry_quiet _)) fun removed => ?_
    cases removed with
    | error e => exact .pure fun _ => id
    | ok _ => exact .bind (calm (perform_quiet trivial)) fun _ => .pure fun _ => id
  unfold handleMissingJob
  split
  · exact .pure fun _ => id
  refine .bind (calm (perform_quiet trivial)) fun counted => ?_
  cases counted with
  | error e => exact .pure fun _ => id
  | ok count =>
    dsimp only
    split
    · refine .bind cleanup fun result => ?_
      cases result <;> exact .pure fun _ => id
    · exact .pure fun _ => id

lemma last_not_lost {o : Forwarded} (got : Lost o = false) {n : ℕ} (room : l.length < n) :
    ¬ ∀ x ∈ (l ++ [o]).take n, Lost x = true := by
  rw [List.take_of_length_le (by simpa using room)]
  intro all
  simpa [got] using all o (by simp)

/-- The retries: a response is the outcome of an attempt that got through or failed for good. -/
lemma triple_retry (stable : Stable a Q) (job : JobId) (ep : Endpoint) (method : Method)
    (uri : String) (err : ForwardRequestError) (delays : List ℕ)
    (lost : ∀ o ∈ l, Lost o = true) :
    Program.Triple (Answers cfg) (After Q a l) (retry job ep method uri err delays) fun r w =>
      ∃ m, After Q a m w ∧
        match r with
        | .ok _ => ¬ ∀ o ∈ m.take (l.length + delays.length), Lost o = true
        | .error _ => m.length = l.length + delays.length ∧ ∀ o ∈ m, Lost o = true := by
  induction delays generalizing l err with
  | nil => exact .pure fun w after => ⟨l, after, rfl, lost⟩
  | cons millis delays ih =>
    have slept : Quiet (.sleep millis) := trivial
    refine .bind (.call fun _ _ _ after answered => after.quiet stable slept answered) fun _ => ?_
    refine .bind (triple_forwardRequest stable job ep method uri) fun r => ?_
    cases r with
    | ok resp =>
      exact .pure fun w after => ⟨_, after, last_not_lost rfl (by simp)⟩
    | error e =>
      dsimp only
      split
      next again =>
        have lost : ∀ o ∈ l ++ [.error e], Lost o = true := by
          simpa [or_imp, forall_and, Lost, again] using lost
        refine (ih e lost).mono (fun _ => id) ?_
        rintro r w ⟨m, after, outcome⟩
        refine ⟨m, after, ?_⟩
        simpa [Nat.add_assoc, Nat.add_comm 1] using outcome
      next last =>
        exact .pure fun w after => ⟨_, after, last_not_lost (by simp [Lost, last]) (by simp)⟩

variable {req : Request} {reg : JobRegistration} {ep : Endpoint}

/-- A quiet program, then one more attempt. -/
lemma triple_clearAndForward (stable : Stable a Q) (ep : Endpoint) (method : Method) (uri : String) :
    Program.Triple (Answers cfg) (After Q a l) (do
      clearMissingJobCounter cfg reg.jobId
      return toResponse (← forwardRequest reg.jobId ep method uri))
      fun _ w => ∃ m, After Q a (l ++ m) w := by
  refine .bind (triple_quiet stable (clearMissingJobCounter_quiet _)) fun _ => ?_
  refine .bind (triple_forwardRequest stable _ ep method uri) fun r => ?_
  exact .pure fun w after => ⟨_, after⟩

lemma triple_rewake (own : a.job = reg.jobId) (method : Method) (uri : String) :
    Program.Triple (Answers cfg) (After (Gone a) a l) (rewake cfg reg method uri)
      fun _ w => ∃ m, After (OneTask a.job a.endpoint a.nextTask) a (l ++ m) w := by
  refine .bind (triple_ensureRunning own) fun r => ?_
  have stays (w : World) (after : After (OneTask a.job a.endpoint a.nextTask) a l w) :
      ∃ m, After (OneTask a.job a.endpoint a.nextTask) a (l ++ m) w := ⟨[], by simpa using after⟩
  cases r with
  | ok ep =>
    exact (triple_clearAndForward (stable_oneTask a) ep method uri).mono (fun _ post => post.1)
      fun _ _ => id
  | error e =>
    cases e with
    | jobNotFound jobId =>
      have spent := stable_spent a
      have told : Program.Triple (Answers cfg)
          (After (Spent a.job a.endpoint a.nextTask) a l) (do
            perform .cancelHeartbeat
            handleMissingJob cfg reg.jobId "rewake")
          fun _ => After (Spent a.job a.endpoint a.nextTask) a l :=
        .bind (triple_quiet spent (perform_quiet trivial)) fun _ =>
          triple_handleMissingJob _ _ (triple_markDormant _) fun quiet after answered =>
            after.quiet spent quiet answered
      exact told.mono (fun _ post => post.2 jobId rfl) fun _ w after =>
        stays w (after.imp fun _ _ spent => spent.toOneTask)
    | _ => exact .pure fun w post => stays w post.1

lemma triple_refreshAndRetry (own : a.job = reg.jobId) (method : Method) (uri : String)
    (err : ForwardRequestError) :
    Program.Triple (Answers cfg) (After (Unmoved a) a l) (refreshAndRetry cfg reg ep method uri err)
      fun _ w => ∃ m, After (OneTask a.job a.endpoint a.nextTask) a (l ++ m) w := by
  refine .bind (triple_refreshEndpoint own ep) fun r => ?_
  have gone : ∀ w, (∃ m, After (Gone a) a (l ++ m) w) →
      ∃ m, After (OneTask a.job a.endpoint a.nextTask) a (l ++ m) w :=
    fun w ⟨m, after⟩ => ⟨m, after.imp fun _ _ => Gone.oneTask⟩
  cases r with
  | error e => exact fun w _ _ post => by simp at post
  | ok refreshed =>
    cases refreshed with
    | confirmed _ =>
      have cleared : Program.Triple (Answers cfg) (After (Gone a) a l)
          (clearMissingJobCounter cfg reg.jobId) fun _ => After (Gone a) a l :=
        triple_quiet (stable_gone a) (clearMissingJobCounter_quiet reg.jobId)
      refine .bind (cleared.mono (fun _ post => post.2) fun _ _ => id) fun _ => ?_
      exact .pure fun w after => gone w ⟨[], by simpa using after⟩
    | updated refreshed =>
      exact (triple_clearAndForward (stable_gone a) refreshed method uri).mono
        (fun _ post => post.2) fun _ => gone
    | missing => exact (triple_rewake own method uri).mono (fun _ post => post.2) fun _ _ => id

lemma Ready.awaits {job : JobId} (ready : Ready job w) {c : Option ℕ} (run : w.Awaits cfg c u) :
    Ready job u := by
  refine ⟨ready.1.awaits run, ?_⟩
  obtain ⟨h, s, -, rfl⟩ := run
  exact ready.2

lemma triple_first (job : JobId) (ep : Endpoint) (method : Method) (uri : String) :
    Program.Triple (Answers cfg) (Ready job) (forwardRequest job ep method uri)
      fun r w => ∃ a, a.job = job ∧ After (Unmoved a) a [r] w :=
  have sent : Quiet (.send job ep method uri) := trivial
  .bind (.call fun _ _ _ ready answered => ready.quiet sent (by simp) answered) fun _ =>
    .call fun _ r _ ready ⟨_, run, _, ends⟩ => ends ▸ (ready.awaits run).cameBack r

lemma triple_serveOrdinary (plain : req.upgrade = false) :
    Program.Triple (Answers cfg) (Ready reg.jobId) (serveOrdinary cfg req reg ep)
      fun _ => Settled req := by
  refine .bind (triple_first reg.jobId ep req.method req.uri) fun r => .of_exists fun a => .of_and fun own => ?_
  have unlucky {l : List Forwarded} (not : ¬ Exhausted req l) (resp : Response) :
      Program.Triple (Answers cfg) (After (Unmoved a) a l) (return resp : Code Response)
        fun _ => Settled req := .pure fun w after => ⟨a, l, .inl ⟨after, not⟩⟩
  have stable := stable_unmoved a
  cases r with
  | ok resp => exact unlucky (fun ex => by simpa [Lost] using ex.lost) _
  | error err =>
    dsimp only
    split
    next last => exact unlucky (fun ex => by simp_all [show err.isRetryableTransport = _ from ex.lost]) _
    next again =>
      cases method : replayableMethod req.method with
      | none => exact unlucky (fun ex => by simpa [method] using ex.2.1) _
      | some verb =>
        have lost : ∀ o ∈ [Except.error err], Lost o = true := by simpa [Lost] using again
        refine .bind (triple_retry stable reg.jobId ep verb req.uri err _ lost) fun r => ?_
        refine .of_exists fun m => ?_
        cases r with
        | ok resp =>
          exact .pure fun w ⟨after, got⟩ => ⟨a, m, .inl ⟨after, fun ex => got ex.2.2⟩⟩
        | error err =>
          rintro w resp u ⟨after, long, lost⟩ run
          have long : m.length = 3 := long
          have exhausted : Exhausted req m :=
            ⟨plain, by simp [method], fun o ho => lost o (List.mem_of_mem_take ho)⟩
          obtain ⟨m', after⟩ := triple_refreshAndRetry own verb req.uri err w resp u after run
          exact ⟨a, m ++ m', .inr ⟨after, (exhausted_append long).mpr exhausted⟩⟩

lemma dropLifecycle_quiet : dropLifecycle.Uses Quiet :=
  .bind (perform_quiet trivial) fun _ => perform_quiet trivial

lemma triple_settled {α : Type} {p : Code α} (uses : p.Uses Quiet) :
    Program.Triple (Answers cfg) (Settled req) p fun _ => Settled req :=
  .of_uses _ uses fun _ _ _ _ quiet settled answered => settled.quiet quiet answered

lemma triple_forwardWebsocketUpgrade (upgrade : req.upgrade = true) :
    Program.Triple (Answers cfg) (Ready reg.jobId) (forwardWebsocketUpgrade reg.jobId ep req)
      fun _ => Settled req := by
  have settled {v : World} (ready : Ready reg.jobId v) (r : Forwarded) :
      Settled req (v.cameBack r) := by
    obtain ⟨a, -, after⟩ := ready.cameBack r
    exact ⟨a, _, .inl ⟨after, fun ex => by simp [ex.1] at upgrade⟩⟩
  have connected : Program.Triple (Answers cfg) (Ready reg.jobId) (perform (.connect ep))
      fun r w => match r with
        | .ok () => Ready reg.jobId w
        | .error _ => Settled req w := by
    refine .call fun w r u ready answered => ?_
    obtain ⟨v, run, -, rfl⟩ := answered
    obtain ⟨before, job⟩ := ready.awaits run
    have moved : Ready reg.jobId { v with endpoint := ep } := ⟨⟨before.first, before.wf⟩, job⟩
    cases r with
    | ok _ => exact moved
    | error e => exact settled moved _
  have answered : Program.Triple (Answers cfg) (Ready reg.jobId) (perform .upgradeResponse)
      fun _ => Settled req :=
    .call fun _ r _ ready ⟨_, run, _, ends⟩ => ends ▸ settled (ready.awaits run) r
  refine .bind connected fun r => ?_
  cases r with
  | error e => exact triple_settled (.bind dropLifecycle_quiet fun _ => trivial)
  | ok _ =>
    have sent : Quiet (.send reg.jobId ep req.method req.uri) := trivial
    refine .bind (.call fun _ _ _ ready answered => ready.quiet sent (by simp) answered) fun _ => ?_
    refine .bind answered fun r => triple_settled ?_
    cases r with
    | error e => exact .bind dropLifecycle_quiet fun _ => trivial
    | ok resp =>
      dsimp only
      split
      · exact .bind (perform_quiet trivial) fun _ => trivial
      · exact .bind dropLifecycle_quiet fun _ => trivial

lemma triple_serve : Program.Triple (Answers cfg) Before (serve cfg req reg ep) fun _ => Settled req := by
  have tracked : Program.Triple (Answers cfg) Before (perform (.track reg.jobId))
      fun _ => Ready reg.jobId := by
    refine .call fun w r u before answered => ?_
    obtain ⟨v, run, -, rfl⟩ := answered
    obtain ⟨first, wf⟩ := before.awaits run
    exact ⟨⟨first, wf⟩, rfl⟩
  have started : Quiet (.startHeartbeat reg.jobId) := trivial
  refine .bind tracked fun _ => ?_
  refine .bind (.call fun _ _ _ ready answered => ready.quiet started (by simp) answered) fun _ => ?_
  split
  next upgrade =>
    exact .bind (triple_forwardWebsocketUpgrade upgrade) fun r => .pure fun _ => id
  next plain =>
    refine .bind (triple_serveOrdinary (by simpa using plain)) fun resp => ?_
    exact triple_settled (.bind (perform_quiet trivial) fun _ => .bind (perform_quiet trivial)
      fun _ => trivial)

/-- The handler leaves the cache in one of the two ways, if it tries a backend at all. -/
lemma triple_proxyHandler :
    Program.Triple (Answers cfg) Before (proxyHandler cfg req)
      fun _ w => Before w ∨ Settled req w := by
  have quietly {α : Type} {p : Code α} (uses : p.Uses Quiet) :
      Program.Triple (Answers cfg) Before p fun _ => Before :=
    .of_uses _ uses fun _ _ _ _ quiet before answered => before.silent quiet.silent answered
  have silently {α : Type} {p : Code α} (uses : p.Uses Silent) :
      Program.Triple (Answers cfg) Before p fun _ => Before :=
    .of_uses _ uses fun _ _ _ _ silent before answered => before.silent silent answered
  unfold proxyHandler
  split
  · exact .pure fun _ => .inl
  refine .bind (quietly (registry_quiet _)) fun found => ?_
  rcases found with e | _ | reg
  · exact .pure fun _ => .inl
  · exact .pure fun _ => .inl
  refine .bind (silently (.bind ⟨trivial, fun _ => trivial⟩ fun _ => ⟨trivial, fun _ => trivial⟩))
    fun r => ?_
  cases r with
  | ok ep =>
    refine .bind (quietly (clearMissingJobCounter_quiet _)) fun _ => ?_
    exact triple_serve.mono (fun _ => id) fun _ _ => .inr
  | error e =>
    cases e with
    | jobNotFound jobId =>
      refine (triple_handleMissingJob reg.jobId "wake" (silently ?_) ?_).mono (fun _ => id)
        fun _ _ => .inl
      · exact .bind ⟨trivial, fun _ => trivial⟩ fun _ => ⟨trivial, fun _ => trivial⟩
      · exact fun quiet before answered => before.silent quiet.silent answered
    | _ => exact .pure fun _ => .inl

end

/-- If the endpoint of the first attempt was cached and Nomad denies it from then on, the handler
returns with the endpoint out of the cache exactly if it repeated the request in vain, and no wake
task has found the same endpoint healthy. -/
theorem endpoint_dropped_iff (cfg : Config) (req : Request) (h : List Event) (w u : World)
    (resp : Response) (a : Attempt)
    (reached : Run (system cfg.nomadConcurrency cfg.wakeTimeout) h w.coordinator)
    (fresh : w.first = none) (run : (proxyHandler cfg req).Runs (Answers cfg) w resp u)
    (first : u.first = some a) (cached : a.cached = some a.endpoint) :
    u.coordinator.endpoints a.job ≠ some a.endpoint ↔
      Exhausted req u.outcomes ∧ ¬ Published a.job a.endpoint u.events := by
  rcases triple_proxyHandler w resp u ⟨fresh, wellFormed_of_run reached⟩ run with before | settled
  · simp [before.first] at first
  obtain ⟨b, l, ⟨after, lucky⟩ | ⟨after, exhausted⟩⟩ := settled
  all_goals
    obtain rfl : a = b := Option.some.inj (first.symm.trans after.first)
    obtain rfl := after.outcomes
  · simp [after.holds.2, cached, lucky]
  · simp [after.holds.cached, exhausted]

instance (w : World) (op : Op) (r : op.Answer) : Decidable (Returns w op r) := by
  unfold Returns
  induction op using Op.casesOn <;> infer_instance

instance (w : World) (awaited : Option ℕ) (h : List Event) (s : State) (ev : Event) :
    Decidable (w.users awaited h s ev) := by
  unfold World.users
  cases w.first <;> infer_instance

/-- An entry of a script: an operation, its answer, and what the coordinator does meanwhile. -/
abbrev Turn := (op : Op) × op.Answer × List Event

def act (cfg : Config) (turn : Turn) (w : World) : Option ((op : Op) × op.Answer × World) :=
  (replay (system cfg.nomadConcurrency cfg.wakeTimeout) (w.users (awaited? turn.1))
    w.events w.coordinator turn.2.2).bind fun r =>
      let v := { w with coordinator := r.2, events := r.1 }
      if Returns v turn.1 turn.2.1 then some ⟨turn.1, turn.2.1, v.next turn.1 turn.2.1⟩ else none

lemma answers_of_act (cfg : Config) (turn : Turn) (w : World) (op : Op) (r : op.Answer) (u : World)
    (acted : act cfg turn w = some ⟨op, r, u⟩) : Answers cfg op w r u := by
  obtain ⟨⟨h, s⟩, done, rest⟩ := Option.bind_eq_some_iff.mp acted
  dsimp only at rest
  split_ifs at rest with returns
  cases rest
  exact ⟨_, ⟨h, s, RunFrom.nil.replay done, rfl⟩, returns, rfl⟩

def plainConfig : Config where
  nomadConcurrency := 50
  wakeTimeout := 60
  durable := false
  autoDeregisterEnabled := false
  autoDeregisterThreshold := 2
  idleThreshold := 300000
  lockTtl := 60000
  trafficProbe := false

def newWorld : World := ⟨WakeCoordinator.initial 50 60, ⟨""⟩, ⟨"", 0⟩, [], none, []⟩

def echoRequest (method : Method) : Request :=
  ⟨some (some "echo-s2z.localhost"), method, "/", false⟩

/-- The job is woken for the request, and the connection to the new endpoint fails. -/
def echoLost (method : Method) : List Turn :=
  [⟨.store (.hget .byJob "echo-s2z"), .ok (some echoReg), []⟩,
    ⟨.call (.ensureRunning echoReg), 0, []⟩,
    ⟨.ensured echoReg 0, .ok echoReady,
      [.fastPath 0 echoReg, .entry 0 echoReg, .load 0 echoReg 0, .tryStart 0 echoReg 0,
        .ownSubscribe 0 echoReg 0, .spawn 0 echoReg 0 none, .acquire 0 echoReg 0,
        .scaled 0 echoReg 0 (.ok ()), .healthy 0 echoReg 0 false (.ok echoReady),
        .publish 0 echoReg 0 echoReady, .storeReady 0 echoReg 0 echoReady,
        .sendReady 0 echoReg 0 echoReady, .recv 0 echoReg 0 (.ready echoReady)]⟩,
    ⟨.track echoReg.jobId, (), []⟩, ⟨.startHeartbeat echoReg.jobId, (), []⟩,
    ⟨.send echoReg.jobId echoReady method "/", (), []⟩,
    ⟨.response, .error (.transport true false), []⟩]

def echoMoved : Endpoint := ⟨"10.0.0.2", 8080⟩

/-- Two repetitions fail too, and Nomad names another endpoint. -/
def echoRefreshed : List Turn := echoLost .get ++
  [⟨.sleep 100, (), []⟩, ⟨.send echoReg.jobId echoReady .get "/", (), []⟩,
    ⟨.response, .error (.transport true false), []⟩,
    ⟨.sleep 250, (), []⟩, ⟨.send echoReg.jobId echoReady .get "/", (), []⟩,
    ⟨.response, .error (.transport false true), []⟩,
    ⟨.call (.refreshEndpoint echoReg echoReady), 1, []⟩,
    ⟨.refreshed echoReg 1, .ok (.updated echoMoved),
      [.queried 1 echoReg echoReady (.ok (some echoMoved)),
        .refreshStore 1 echoReg echoReady echoMoved, .refreshReady 1 echoReg echoReady echoMoved]⟩,
    ⟨.send echoReg.jobId echoMoved .get "/", (), []⟩, ⟨.response, .ok ⟨200, false⟩, []⟩,
    ⟨.cancelHeartbeat, (), []⟩, ⟨.dropGuard, (), []⟩]

def echoAttempt : Attempt := ⟨echoReg.jobId, echoReady, some echoReady, 1⟩

theorem get_dropped : ∃ resp u,
    (proxyHandler plainConfig (echoRequest .get)).Runs (Answers plainConfig) newWorld resp u ∧
      u.first = some echoAttempt ∧ Exhausted (echoRequest .get) u.outcomes ∧
        u.coordinator.endpoints echoAttempt.job = some echoMoved := by
  obtain ⟨resp, u, run, first, moved⟩ := Program.exists_runs (answers_of_act plainConfig)
    (fun _ u => u.first = some echoAttempt ∧
      u.coordinator.endpoints echoAttempt.job = some echoMoved)
    echoRefreshed (proxyHandler plainConfig (echoRequest .get)) newWorld (by decide +kernel)
  have dropped := endpoint_dropped_iff plainConfig (echoRequest .get) [] newWorld u resp echoAttempt
    .nil rfl run first rfl
  exact ⟨resp, u, run, first, (dropped.mp (by rw [moved]; decide)).1, moved⟩

/-- A request that is not repeated returns at once. -/
def echoPosted : List Turn := echoLost (.other "POST") ++
  [⟨.cancelHeartbeat, (), []⟩, ⟨.dropGuard, (), []⟩]

theorem post_pinned : ¬ ∀ (cfg : Config) (req : Request) (h : List Event) (w u : World)
    (resp : Response) (a : Attempt),
    Run (system cfg.nomadConcurrency cfg.wakeTimeout) h w.coordinator → w.first = none →
      (proxyHandler cfg req).Runs (Answers cfg) w resp u → u.first = some a →
        a.cached = some a.endpoint → u.outcomes.head?.any Lost = true →
          u.coordinator.endpoints a.job ≠ some a.endpoint := by
  intro all
  obtain ⟨resp, u, run, first, lost, pinned⟩ := Program.exists_runs (answers_of_act plainConfig)
    (fun _ u => u.first = some echoAttempt ∧ u.outcomes.head?.any Lost = true ∧
      u.coordinator.endpoints echoAttempt.job = some echoReady)
    echoPosted (proxyHandler plainConfig (echoRequest (.other "POST"))) newWorld (by decide +kernel)
  exact all plainConfig _ [] newWorld u resp echoAttempt .nil rfl run first rfl lost pinned

end NScale.EndpointPinning
