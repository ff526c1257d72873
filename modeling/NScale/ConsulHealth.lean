import NScale.Job

/-!
# The wait for a healthy instance

`wait_for_healthy_service` asks Consul again and again until an instance that is not the fallback
passes its checks, or the deadline is over. One step is a reading of the clock, an answer of
Consul or the end of a pause. Times are nanoseconds of the clock that the task reads.
-/
namespace NScale.ConsulHealth
open Transition

abbrev second : ℕ := 1000000000

/-- The pause after an answer that is not a success. -/
abbrev halfSecond : ℕ := 500000000

structure ServiceInfo where
  id : String
  address : String
  port : UInt16
  tags : List String
  deriving DecidableEq, Repr

structure HealthEntry where
  service : ServiceInfo
  deriving DecidableEq, Repr

namespace HealthEntry
variable (e : HealthEntry)

def isFallback : Bool := e.service.tags.contains "nscale-fallback"

def endpoint : Endpoint := ⟨e.service.address, e.service.port⟩

end HealthEntry

/-- The first instance that is not the fallback. -/
def findHealthy (entries : List HealthEntry) : Option Endpoint :=
  (entries.find? fun e => !e.isFallback).map HealthEntry.endpoint

/-- `str::parse::<u64>`: decimal digits, with a plus sign before them or without. -/
def parseU64 (text : String) : Option UInt64 :=
  let digits := if text.toList.head? = some '+' then text.toList.tail else text.toList
  let value := digits.foldl (fun n c => 10 * n + (c.toNat - '0'.toNat)) 0
  if digits ≠ [] ∧ digits.all Char.isDigit ∧ value < 2 ^ 64 then some (.ofNat value) else none

/-- An answer of Consul: its status, the header `X-Consul-Index` if there is one and it is
visible ASCII, and what reading the body as JSON gives. -/
structure HealthResponse where
  status : ℕ
  index : Option String
  body : Except String (List HealthEntry)
  deriving DecidableEq

namespace HealthResponse
variable (resp : HealthResponse)

def isSuccess : Bool := 200 ≤ resp.status ∧ resp.status < 300

/-- The index for the next query. -/
def nextIndex (last : UInt64) : UInt64 := (resp.index.bind parseU64).getD last

end HealthResponse

/-- A response, or the text of a `reqwest::Error`. -/
abbrev Answer := Except String HealthResponse

/-- What the call returns after this answer, if it does not go on. -/
def outcome : Answer → Option (Result Endpoint)
  | .error m => some (.error (.http m))
  | .ok resp =>
    if resp.isSuccess then
      match resp.body with
      | .error m => some (.error (.http m))
      | .ok entries => (findHealthy entries).map .ok
    else none

/-- The arguments of a call and the time when it began. A wake timeout is a whole number of
seconds. -/
structure Wait where
  service : ServiceName
  timeoutSecs : ℕ
  start : ℕ
  deriving DecidableEq, Repr

/-- The parameters of a query. -/
structure Query where
  index : UInt64
  waitSecs : ℕ
  deriving DecidableEq, Repr

namespace Wait
variable (w : Wait)

def deadline : ℕ := w.start + w.timeoutSecs * second

/-- The longest block of one query. -/
def blockWait : ℕ := min (10 * second) (w.timeoutSecs * second)

/-- The query that is sent at this time. -/
def query (index : UInt64) (now : ℕ) : Query :=
  ⟨index, max (min w.blockWait (w.deadline - now) / second) 1⟩

def path (q : Query) : String :=
  s!"/v1/health/service/{w.service.val}?passing=true&index={q.index}&wait={q.waitSecs}s"

def timedOut : NscaleError := .wakeTimeout w.service.val w.timeoutSecs

end Wait

example : (⟨⟨"my-svc"⟩, 5, 0⟩ : Wait).path ⟨0, 5⟩ =
    "/v1/health/service/my-svc?passing=true&index=0&wait=5s" := by decide +kernel

/-- Where the task is: at the top of the loop, before the second reading of the clock, waiting
for an answer, or in the pause. -/
inductive Phase
  | check
  | remaining
  | asked (q : Query)
  | pause
  | returned (result : Result Endpoint)
  deriving DecidableEq

/-- The task with the clock; `since` is when it came to where it is. -/
structure State where
  now : ℕ
  since : ℕ
  consulIndex : UInt64
  phase : Phase
  deriving DecidableEq

inductive Event
  | advance (nanos : ℕ)
  | check
  | send
  | answer (a : Answer)
  | resume
  deriving DecidableEq

namespace State
variable (s : State)

def enter (phase : Phase) : State := { s with since := s.now, phase := phase }

/-- The index is taken from any response, also from one that is not a success. -/
def answered (a : Answer) : State :=
  let s := match a with
    | .ok resp => { s with consulIndex := resp.nextIndex s.consulIndex }
    | .error _ => s
  match outcome a with
  | some result => s.enter (.returned result)
  | none => s.enter (if a.toOption.any HealthResponse.isSuccess then .check else .pause)

end State

def step (w : Wait) (s : State) : Event → Option State
  | .advance nanos => some { s with now := s.now + nanos }
  | .check =>
    if s.phase = .check then
      some (s.enter (if w.deadline ≤ s.now then .returned (.error w.timedOut) else .remaining))
    else none
  | .send => if s.phase = .remaining then some (s.enter (.asked (w.query s.consulIndex s.now))) else none
  | .answer a =>
    match s.phase with
    | .asked _ => some (s.answered a)
    | _ => none
  | .resume => if s.phase = .pause ∧ s.since + halfSecond ≤ s.now then some (s.enter .check) else none

def system (w : Wait) : System State Event := ⟨⟨w.start, w.start, 0, .check⟩, step w⟩

/-! ## What one step does -/

section
variable {w : Wait} {s t : State} {a : Answer} {q : Query}

@[simp] lemma enter_now (p : Phase) : (s.enter p).now = s.now := rfl

@[simp] lemma enter_since (p : Phase) : (s.enter p).since = s.now := rfl

@[simp] lemma enter_phase (p : Phase) : (s.enter p).phase = p := rfl

@[simp] lemma enter_consulIndex (p : Phase) : (s.enter p).consulIndex = s.consulIndex := rfl

/-- The phase after an answer. -/
def afterAnswer (a : Answer) : Phase :=
  match outcome a with
  | some result => .returned result
  | none => if a.toOption.any HealthResponse.isSuccess then .check else .pause

lemma answered_eq (s : State) (a : Answer) : s.answered a =
    { now := s.now, since := s.now, phase := afterAnswer a
      consulIndex := a.toOption.elim s.consulIndex fun resp => resp.nextIndex s.consulIndex } := by
  unfold State.answered afterAnswer
  cases a <;> dsimp only <;> split <;> rfl

/-- What a step can be. -/
inductive Moves (w : Wait) (s : State) : Event → State → Prop
  | advance (nanos : ℕ) : Moves w s (.advance nanos) { s with now := s.now + nanos }
  | late (at_ : s.phase = .check) (past : w.deadline ≤ s.now) :
      Moves w s .check (s.enter (.returned (.error w.timedOut)))
  | early (at_ : s.phase = .check) (left : s.now < w.deadline) : Moves w s .check (s.enter .remaining)
  | send (at_ : s.phase = .remaining) :
      Moves w s .send (s.enter (.asked (w.query s.consulIndex s.now)))
  | answer (q : Query) (a : Answer) (at_ : s.phase = .asked q) : Moves w s (.answer a) (s.answered a)
  | resume (at_ : s.phase = .pause) (past : s.since + halfSecond ≤ s.now) :
      Moves w s .resume (s.enter .check)

lemma moves_of_step {e : Event} (taken : step w s e = some t) : Moves w s e t := by
  cases e with
  | advance nanos =>
    obtain rfl := Option.some.inj taken
    exact .advance nanos
  | check =>
    simp only [step] at taken
    split_ifs at taken with at_ past
    · obtain rfl := Option.some.inj taken
      exact .late at_ past
    · obtain rfl := Option.some.inj taken
      exact .early at_ (Nat.lt_of_not_le past)
  | send =>
    simp only [step] at taken
    split_ifs at taken with at_
    obtain rfl := Option.some.inj taken
    exact .send at_
  | answer a =>
    simp only [step] at taken
    split at taken
    next q at_ =>
      obtain rfl := Option.some.inj taken
      exact .answer q a at_
    next => cases taken
  | resume =>
    simp only [step] at taken
    split_ifs at taken with both
    obtain rfl := Option.some.inj taken
    exact .resume both.1 both.2

/-- A query that is sent before the deadline blocks until the deadline or for one second. -/
lemma query_ends (index : UInt64) (now : ℕ) :
    now + (w.query index now).waitSecs * second ≤ max w.deadline (now + second) := by
  have whole := Nat.div_mul_le_self (min w.blockWait (w.deadline - now)) second
  simp only [Wait.query]
  rcases le_total (min w.blockWait (w.deadline - now) / second) 1 with short | long
  · rw [max_eq_right short]
    omega
  · rw [max_eq_left long]
    omega

end

/-! ## When the call returns -/

/-- The clock of a task that is not held up: nothing takes longer than `slack`, except that an
answer comes within `latency` after the query has blocked, and a pause lasts half a second. -/
def State.Prompt (slack latency : ℕ) (s : State) (time : ℕ) : Prop :=
  match s.phase with
  | .check | .remaining => time ≤ s.since + slack
  | .asked q => time ≤ s.since + q.waitSecs * second + latency
  | .pause => time ≤ s.since + halfSecond + slack
  | .returned _ => True

def Timely (slack latency : ℕ) : Condition State Event := fun _ s e =>
  match e with
  | .advance nanos => s.Prompt slack latency (s.now + nanos)
  | _ => True

instance (slack latency : ℕ) (s : State) (time : ℕ) : Decidable (s.Prompt slack latency time) := by
  unfold State.Prompt
  cases s.phase <;> infer_instance

instance (slack latency : ℕ) (h : List Event) (s : State) (e : Event) :
    Decidable (Timely slack latency h s e) := by
  unfold Timely
  cases e <;> infer_instance

section
variable (w : Wait) (slack latency : ℕ)

/-- When the task came to where it is. -/
def State.Begun (s : State) : Prop :=
  match s.phase with
  | .check => s.since ≤ w.deadline + second + halfSecond + latency + 2 * slack
  | .remaining => s.since < w.deadline
  | .asked q => s.since + q.waitSecs * second ≤ w.deadline + second + slack
  | .pause => s.since ≤ w.deadline + second + latency + slack
  | .returned _ => True

/-- The latest time at which the call is still waiting. -/
def Wait.latest : ℕ := w.deadline + second + halfSecond + latency + 3 * slack

variable {w slack latency} {h : List Event} {s t : State}

lemma begun_next {e : Event} (begun : s.Begun w slack latency) (prompt : s.Prompt slack latency s.now)
    (taken : step w s e = some t) (timely : Timely slack latency h s e) :
    t.Begun w slack latency ∧ t.Prompt slack latency t.now := by
  cases moves_of_step taken with
  | advance nanos => exact ⟨begun, timely⟩
  | late => exact ⟨trivial, trivial⟩
  | early at_ left => exact ⟨left, Nat.le_add_right _ _⟩
  | send at_ =>
    have ends := query_ends (w := w) s.consulIndex s.now
    simp only [State.Begun, at_] at begun
    simp only [State.Prompt, at_] at prompt
    refine ⟨?_, ?_⟩
    · change s.now + (w.query s.consulIndex s.now).waitSecs * second ≤ w.deadline + second + slack
      omega
    · change s.now ≤ s.now + (w.query s.consulIndex s.now).waitSecs * second + latency
      omega
  | answer q a at_ =>
    simp only [State.Begun, at_] at begun
    simp only [State.Prompt, at_] at prompt
    rw [answered_eq]
    unfold afterAnswer
    cases outcome a with
    | some result => exact ⟨trivial, trivial⟩
    | none =>
      dsimp only
      split_ifs with success
      · refine ⟨?_, Nat.le_add_right _ _⟩
        change s.now ≤ w.deadline + second + halfSecond + latency + 2 * slack
        omega
      · refine ⟨?_, ?_⟩
        · change s.now ≤ w.deadline + second + latency + slack
          omega
        · change s.now ≤ s.now + halfSecond + slack
          omega
  | resume at_ past =>
    simp only [State.Begun, at_] at begun
    simp only [State.Prompt, at_] at prompt
    refine ⟨?_, Nat.le_add_right _ _⟩
    change s.now ≤ w.deadline + second + halfSecond + latency + 2 * slack
    omega

lemma begun_of_run (run : RunWhere (system w) (Timely slack latency) h s) :
    s.Begun w slack latency ∧ s.Prompt slack latency s.now := by
  refine run.state_invariant (fun s => s.Begun w slack latency ∧ s.Prompt slack latency s.now) ?_
    fun h s t e both taken timely => begun_next both.1 both.2 taken timely
  refine ⟨?_, Nat.le_add_right _ _⟩
  change w.start ≤ w.deadline + second + halfSecond + latency + 2 * slack
  unfold Wait.deadline
  omega

/-- Past its deadline and one more query the call has returned. -/
lemma returned_of_late (run : RunWhere (system w) (Timely slack latency) h s)
    (late : w.latest slack latency < s.now) : ∃ result, s.phase = .returned result := by
  obtain ⟨begun, prompt⟩ := begun_of_run run
  unfold Wait.latest at late
  cases at_ : s.phase with
  | returned result => exact ⟨result, rfl⟩
  | _ =>
    simp only [State.Begun, at_] at begun
    simp only [State.Prompt, at_] at prompt
    omega

end

/-! ## What the call returns -/

/-- The answers of a history, newest first. -/
def answers (h : List Event) : List Answer :=
  h.filterMap fun
    | .answer a => some a
    | _ => none

/-- The result is what the first telling answer says; without one, the deadline is over. -/
def Justified (w : Wait) (as : List Answer) (now : ℕ) (result : Result Endpoint) : Prop :=
  (result = .error w.timedOut ∧ w.deadline ≤ now ∧ ∀ a ∈ as, outcome a = none) ∨
    ∃ a rest, as = a :: rest ∧ outcome a = some result ∧ ∀ b ∈ rest, outcome b = none

/-- As long as the call waits no answer has said anything. -/
def State.Tracked (w : Wait) (as : List Answer) (s : State) : Prop :=
  match s.phase with
  | .returned result => Justified w as s.now result
  | _ => ∀ a ∈ as, outcome a = none

section
variable {w : Wait} {C : Condition State Event} {h : List Event} {s t : State}

lemma Justified.later {as : List Answer} {now later : ℕ} {result : Result Endpoint}
    (just : Justified w as now result) (le : now ≤ later) : Justified w as later result := by
  rcases just with ⟨same, past, silent⟩ | told
  · exact .inl ⟨same, past.trans le, silent⟩
  · exact .inr told

lemma tracked_next {e : Event} (tracked : s.Tracked w (answers h)) (taken : step w s e = some t) :
    t.Tracked w (answers (e :: h)) := by
  cases moves_of_step taken with
  | advance nanos =>
    unfold State.Tracked at tracked ⊢
    cases at_ : s.phase with
    | returned result =>
      simp only [at_] at tracked ⊢
      exact tracked.later (Nat.le_add_right _ _)
    | _ =>
      simp only [at_] at tracked ⊢
      exact tracked
  | late at_ past =>
    simp only [State.Tracked, at_] at tracked
    exact .inl ⟨rfl, past, tracked⟩
  | early at_ left | send at_ | resume at_ past =>
    simp only [State.Tracked, at_] at tracked
    exact tracked
  | answer q a at_ =>
    simp only [State.Tracked, at_] at tracked
    change State.Tracked w (a :: answers h) _
    rw [answered_eq, State.Tracked, afterAnswer]
    cases told : outcome a with
    | some result => exact .inr ⟨a, answers h, rfl, told, tracked⟩
    | none =>
      have silent : ∀ b ∈ a :: answers h, outcome b = none := by
        simpa [told] using tracked
      dsimp only
      split_ifs <;> exact silent

lemma tracked_of_run (run : RunWhere (system w) C h s) : s.Tracked w (answers h) := by
  refine run.invariant (fun h s => s.Tracked w (answers h)) ?_ fun h s t e _ tracked taken _ =>
    tracked_next tracked taken
  exact fun a mem => absurd mem List.not_mem_nil

lemma justified_of_run (run : RunWhere (system w) C h s) {result : Result Endpoint}
    (at_ : s.phase = .returned result) : Justified w (answers h) s.now result := by
  have tracked := tracked_of_run run
  rwa [State.Tracked, at_] at tracked

lemma findHealthy_eq_some {entries : List HealthEntry} {ep : Endpoint}
    (found : findHealthy entries = some ep) :
    ∃ e ∈ entries, e.isFallback = false ∧ e.endpoint = ep := by
  obtain ⟨e, first, rfl⟩ := Option.map_eq_some_iff.mp found
  exact ⟨e, List.mem_of_find?_eq_some first, by simpa using List.find?_some first, rfl⟩

/-- An endpoint comes from an instance in a successful response. -/
lemma outcome_ok {a : Answer} {ep : Endpoint} (told : outcome a = some (.ok ep)) :
    ∃ resp entries, a = .ok resp ∧ resp.isSuccess = true ∧ resp.body = .ok entries ∧
      ∃ e ∈ entries, e.isFallback = false ∧ e.endpoint = ep := by
  cases a with
  | error m => cases Option.some.inj told
  | ok resp =>
    simp only [outcome] at told
    split_ifs at told with success
    split at told
    next m body => cases Option.some.inj told
    next entries body =>
      obtain ⟨ep', found, same⟩ := Option.map_eq_some_iff.mp told
      obtain rfl := Except.ok.inj same
      exact ⟨resp, entries, rfl, success, body, findHealthy_eq_some found⟩

lemma outcome_error {a : Answer} {e : NscaleError} (told : outcome a = some (.error e)) :
    ∃ m, e = .http m := by
  cases a with
  | error m => exact ⟨m, (Except.error.inj (Option.some.inj told)).symm⟩
  | ok resp =>
    simp only [outcome] at told
    split_ifs at told with success
    split at told
    next m body => exact ⟨m, (Except.error.inj (Option.some.inj told)).symm⟩
    next entries body =>
      obtain ⟨ep, -, same⟩ := Option.map_eq_some_iff.mp told
      cases same

end

/-- A result that may be believed. -/
structure Sound (w : Wait) (as : List Answer) (now : ℕ) (result : Result Endpoint) : Prop where
  instance_ : ∀ ep, result = .ok ep → ∃ resp entries rest, as = .ok resp :: rest ∧
    resp.isSuccess = true ∧ resp.body = .ok entries ∧
    ∃ e ∈ entries, e.isFallback = false ∧ e.endpoint = ep
  timeout : result = .error w.timedOut → w.deadline ≤ now ∧ ∀ a ∈ as, outcome a = none
  errors : ∀ e, result = .error e → e = w.timedOut ∨ ∃ m, e = .http m

lemma Justified.sound {w : Wait} {as : List Answer} {now : ℕ} {result : Result Endpoint}
    (just : Justified w as now result) : Sound w as now result := by
  rcases just with ⟨rfl, past, silent⟩ | ⟨a, rest, rfl, told, silent⟩
  · exact ⟨fun ep same => (by cases same), fun _ => ⟨past, silent⟩,
      fun e same => .inl (Except.error.inj same).symm⟩
  · refine ⟨?_, ?_, ?_⟩
    · rintro ep rfl
      obtain ⟨resp, entries, rfl, success, body, found⟩ := outcome_ok told
      exact ⟨resp, entries, rest, rfl, success, body, found⟩
    · rintro rfl
      obtain ⟨m, same⟩ := outcome_error told
      cases same
    · rintro e rfl
      exact .inr (outcome_error told)

/-- The call has returned soon after its deadline, and its result is sound: an instance that the
last answer has and that is not the fallback, a timeout only where no answer had one. -/
theorem waitForHealthyService_returns (w : Wait) (slack latency : ℕ) (h : List Event) (s : State)
    (run : RunWhere (system w) (Timely slack latency) h s) :
    (w.latest slack latency < s.now → ∃ result, s.phase = .returned result) ∧
      ∀ result, s.phase = .returned result → Sound w (answers h) s.now result :=
  ⟨returned_of_late run, fun _ at_ => (justified_of_run run at_).sound⟩

def webWait : Wait := ⟨⟨"shop-web"⟩, 5, 0⟩

def fallbackEntry : HealthEntry := ⟨⟨"nscale-fallback-shop-web", "10.0.0.1", 8080, ["nscale-fallback"]⟩⟩

def webEntry : HealthEntry := ⟨⟨"shop-web-1", "10.0.0.10", 3000, ["http"]⟩⟩

def listing (index : String) (entries : List HealthEntry) : Answer :=
  .ok ⟨200, some index, .ok entries⟩

/-- Consul knows the fallback only, until the instance passes its checks. -/
theorem fallback_skipped : ∃ h s, RunWhere (system webWait) (Timely 0 second) h s ∧
    s.phase = .returned (.ok webEntry.endpoint) ∧
    Sound webWait (answers h) s.now (.ok webEntry.endpoint) := by
  obtain ⟨h, s, run, at_⟩ := exists_run (T := system webWait) (C := Timely 0 second)
    (fun _ s => s.phase = .returned (.ok webEntry.endpoint))
    [.check, .send, .advance 7, .answer (listing "41" [fallbackEntry]), .check, .send, .advance second,
      .answer (listing "42" [fallbackEntry, webEntry])] (by decide +kernel)
  exact ⟨h, s, run, at_, (waitForHealthyService_returns webWait 0 second h s run).2 _ at_⟩

end NScale.ConsulHealth
