import NScale.IdleSweep
import NScale.Provenance

/-!
# How far a sweep is with a key

A sweep looks whether the key is deferred, scales it down, and defers it when a deployment blocks
the scale-down. It goes on to the next key unless the replica is cancelled. No other code looks at
the deferrals.
-/
namespace NScale.Service

/-- Where a sweep stands with its key. -/
inductive Turn
  | idle
  | deferred (key : JobId) (until_ : ℕ)
  | due (key : JobId)
  | blocked (key : JobId)
  | noted (key : JobId) (now : ℕ)

namespace Turn

def key? : Turn → Option JobId
  | .idle => none
  | .deferred key _ | .due key | .blocked key | .noted key _ => some key

/-- The key that has still to be deferred. -/
def owing : Turn → Option JobId
  | .blocked key | .noted key _ => some key
  | .idle | .deferred .. | .due _ => none

/-- The deferral of the key is read. -/
def found (key : JobId) : Option ℕ → Turn
  | none => .due key
  | some until_ => .deferred key until_

/-- The clock is read. -/
def at_ (time : ℕ) : Turn → Turn
  | .deferred key until_ => if time < until_ then .idle else .due key
  | .blocked key => .noted key time
  | turn => turn

/-- Nomad answers the scale-down. -/
def scaled : Result Unit → Turn → Turn
  | .error (.deploymentInProgress _ _), .due key => .blocked key
  | _, turn => turn

/-- The clock does not matter. -/
def Calm : Turn → Prop
  | .idle | .due _ => True
  | .deferred .. | .blocked _ | .noted .. => False

variable {turn : Turn} {time : ℕ}

lemma Calm.at_ (calm : turn.Calm) : turn.at_ time = turn := by
  cases turn with
  | idle | due => rfl
  | deferred | blocked | noted => cases calm

lemma Calm.owing (calm : turn.Calm) : turn.owing = none := by
  cases turn with
  | idle | due => rfl
  | deferred | blocked | noted => cases calm

@[simp] lemma at_owing : (turn.at_ time).owing = turn.owing := by
  cases turn with
  | deferred key until_ =>
    simp only [Turn.at_]
    split <;> rfl
  | _ => rfl

lemma key_of_at_ {key : JobId} (on : (turn.at_ time).key? = some key) : turn.key? = some key := by
  cases turn with
  | deferred key' until_ =>
    simp only [Turn.at_] at on
    split at on
    · cases on
    · exact on
  | _ => exact on

lemma key_of_scaled {key : JobId} {result : Result Unit} (on : (turn.scaled result).key? = some key) :
    turn.key? = some key := by
  unfold scaled at on
  split at on <;> exact on

end Turn

structure TurnView where
  turn : Turn
  go : Bool

def TurnView.start : TurnView := ⟨.idle, false⟩

/-- A job is scaled down when its key is due and the replica was not cancelled. -/
def turnMonitor : Monitor Ops TurnView where
  requires v
    | .scaleDown .. => v.go = true ∧ ∃ key, v.turn = .due key
    | .deferral _ => v.turn.owing = none
    | .dropDeferral key => v.turn = .due key
    | .defer key until_ => ∃ now, v.turn = .noted key now ∧ until_ = now + deploymentBackoff
    | _ => True
  assumes _ _ _ := True
  next v
    | .now, time => { v with turn := v.turn.at_ time }
    | .cancelled, stop => { v with go := !stop }
    | .deferral key, deferral => { v with turn := .found key deferral }
    | .scaleDown .., result => ⟨v.turn.scaled result, false⟩
    | .defer .., _ => { v with turn := .idle }
    | _, _ => v

/-- The operations that only a sweep performs on the way to a scale-down and from it. -/
def Op.turns : Op → Bool
  | .cancelled | .deferral _ | .dropDeferral _ | .defer .. | .scaleDown .. => true
  | _ => false

abbrev Quiet (op : Op) : Prop := op.turns = false

variable {α : Type} {p : Code α} {v : TurnView} {op : Op} {key : JobId} {cfg : Config}

lemma requires_of_quiet (quiet : Quiet op) : turnMonitor.requires v op := by
  cases op with
  | cancelled | deferral | dropDeferral | defer | scaleDown => cases quiet
  | _ => trivial

/-- Quiet operations change the view by the clock at most. -/
lemma next_of_quiet (quiet : Quiet op) (a : op.Answer) :
    turnMonitor.next v op a = v ∨ ∃ time, op = .now ∧ turnMonitor.next v op a = { v with turn := v.turn.at_ time } := by
  cases op with
  | cancelled | deferral | dropDeferral | defer | scaleDown => cases quiet
  | now => exact .inr ⟨a, rfl, rfl⟩
  | _ => exact .inl rfl

lemma quiet_takes (uses : p.Uses Quiet) (calm : v.turn.Calm) :
    p.Meets turnMonitor (fun _ w => w = v) v := by
  apply Program.Meets.of_uses (fun w => w = v) uses _ rfl
  rintro op w quiet rfl
  refine ⟨requires_of_quiet quiet, fun a _ => ?_⟩
  rcases next_of_quiet (v := w) quiet a with same | ⟨time, rfl, read⟩
  · exact same
  · rw [read, calm.at_]

/-! ## Code that is quiet -/

lemma perform_quiet (quiet : Quiet op) : (perform op).Uses Quiet := ⟨quiet, fun _ => trivial⟩

lemma registry_quiet (x : JobRegistry.Action α) : (registry x).Uses Quiet :=
  .lift ((Program.Uses.all x.run).mono fun _ _ => rfl)

lemma recordActivity_quiet (key : JobId) : (recordActivity key).Uses Quiet :=
  .bind (perform_quiet rfl) fun _ => perform_quiet rfl

lemma markDormant_quiet (job : JobId) : (markDormant job).Uses Quiet :=
  .bind (perform_quiet rfl) fun _ => perform_quiet rfl

lemma clearMissingJobCounter_quiet (job : JobId) : (clearMissingJobCounter cfg job).Uses Quiet := by
  unfold clearMissingJobCounter
  split
  · exact .bind (perform_quiet rfl) fun _ => trivial
  · trivial

/-- What names nothing of a sweep for a request is quiet. -/
lemma quiet_of_names (req : Request) {m : Known} (names : Names (some req) p m) : p.Uses Quiet := by
  refine (names.uses fun _ _ _ => trivial).mono ?_
  rintro op ⟨n, required⟩
  cases op with
  | cancelled | deferral | dropDeferral | defer => cases required
  | scaleDown => cases required.1
  | _ => rfl

def anyRequest : Request := ⟨none, .get, "", false⟩

lemma task_quiet (task : Task) : task.code.Uses Quiet :=
  quiet_of_names anyRequest (task_names task .nothing)

lemma adminRegister_quiet (reg : JobRegistration) : (adminRegister cfg reg).Uses Quiet :=
  quiet_of_names anyRequest (m := ⟨{(reg.jobId.val, reg)}, ∅⟩) (adminRegister_names ⟨_, rfl⟩)

namespace ScaleDownController

lemma clearBaseline_quiet (key : JobId) : (clearBaseline cfg key).Uses Quiet := by
  unfold clearBaseline
  split
  · exact perform_quiet rfl
  · trivial

lemma hasActiveTraffic_quiet (key : JobId) : (hasActiveTraffic key).Uses Quiet := by
  apply Program.Uses.bind (perform_quiet rfl)
  intro scraped
  cases scraped with
  | error e => trivial
  | ok total =>
    apply Program.Uses.bind (perform_quiet rfl)
    intro prev
    cases prev <;> trivial

/-! ## What a sweep does -/

/-- In the end nothing is left to be deferred. -/
abbrev Settles (p : Code α) (v : TurnView) : Prop :=
  p.Meets turnMonitor (fun _ w => w.turn.owing = none) v

lemma settles_quiet (uses : p.Uses Quiet) (calm : v.turn.Calm) : Settles p v := by
  apply (quiet_takes uses calm).mono
  rintro _ w rfl
  exact calm.owing

/-- What follows quiet code starts where that has started. -/
lemma Settles.after_quiet {β : Type} {f : α → Code β} (uses : p.Uses Quiet) (calm : v.turn.Calm)
    (rest : ∀ a, Settles (f a) v) : Settles (p >>= f) v := by
  apply Program.Meets.bind (quiet_takes uses calm)
  rintro a w rfl
  exact rest a

lemma calm_of_due (due : v.turn = .due key) : v.turn.Calm := by
  rw [due]
  trivial

lemma cleanupMissingJobState_settles (due : v.turn = .due key) :
    Settles (cleanupMissingJobState cfg key) v := by
  have calm := calm_of_due due
  apply Settles.after_quiet (markDormant_quiet key) calm
  intro _
  apply Settles.after_quiet (perform_quiet rfl) calm
  intro _
  apply Program.Meets.perform due
  intro _ _
  apply Settles.after_quiet (clearBaseline_quiet key) calm
  intro _
  apply Settles.after_quiet (registry_quiet _) calm
  intro result
  cases result with
  | error e => exact calm.owing
  | ok _ => exact settles_quiet (.bind (perform_quiet rfl) fun _ => trivial) calm

lemma handleMissingJob_settles (due : v.turn = .due key) : Settles (handleMissingJob cfg key) v := by
  have calm := calm_of_due due
  unfold handleMissingJob
  split
  · exact calm.owing
  · apply Settles.after_quiet (perform_quiet rfl) calm
    intro counted
    cases counted with
    | error e => exact calm.owing
    | ok count =>
      dsimp only
      split
      · apply Program.Meets.bind (cleanupMissingJobState_settles due)
        intro _ w settled
        exact settled
      · exact calm.owing

lemma scaledToZero_settles (due : v.turn = .due key) :
    Settles (handleScaleDownResult cfg key (.ok ())) v := by
  have calm := calm_of_due due
  apply Settles.after_quiet (markDormant_quiet key) calm
  intro _
  apply Settles.after_quiet (perform_quiet rfl) calm
  intro _
  apply Settles.after_quiet (clearBaseline_quiet key) calm
  intro _
  exact Program.Meets.perform due fun _ _ => calm.owing

/-- A blocked scale-down is deferred for the backoff, from a time that is read afterwards. -/
lemma blocked_settles {job operation : String} (blocked : v.turn = .blocked key) :
    Settles (handleScaleDownResult cfg key (.error (.deploymentInProgress job operation))) v := by
  apply Program.Meets.perform trivial
  intro now _
  have noted : (turnMonitor.next v .now now).turn = .noted key now := by
    simp [turnMonitor, blocked, Turn.at_]
  have required : turnMonitor.requires (turnMonitor.next v .now now)
      (.defer key (now + deploymentBackoff)) := ⟨now, noted, rfl⟩
  apply Program.Meets.perform required
  intro _ _
  exact settles_quiet (.bind (recordActivity_quiet key) fun _ => trivial) trivial

lemma clearMissingJobCounter_blocked (blocked : v.turn = .blocked key) :
    (clearMissingJobCounter cfg key).Meets turnMonitor (fun _ w => w.turn = .blocked key) v := by
  unfold clearMissingJobCounter
  split
  · exact Program.Meets.perform trivial fun _ _ => blocked
  · exact blocked

lemma afterScaleDown_settles (result : Result Unit) (due : v.turn = .due key) :
    Settles (afterScaleDown cfg key result) ⟨v.turn.scaled result, false⟩ := by
  rw [due]
  cases result with
  | ok _ =>
    have due : TurnView.turn ⟨.due key, false⟩ = .due key := rfl
    apply Settles.after_quiet (clearMissingJobCounter_quiet key) (calm_of_due due)
    intro _
    exact scaledToZero_settles due
  | error e =>
    cases e with
    | jobNotFound job => exact handleMissingJob_settles rfl
    | deploymentInProgress job operation =>
      apply Program.Meets.bind (clearMissingJobCounter_blocked rfl)
      intro _ w blocked
      exact blocked_settles blocked
    | _ => exact rfl

lemma scaleDownRegistered_settles (due : v.turn = .due key) (go : v.go = true) :
    Settles (scaleDownRegistered cfg key) v := by
  have calm := calm_of_due due
  apply Settles.after_quiet (registry_quiet _) calm
  intro found
  match found with
  | .error e => exact calm.owing
  | .ok none => exact settles_quiet (.bind (perform_quiet rfl) fun _ => trivial) calm
  | .ok (some reg) =>
    have required : turnMonitor.requires v (.scaleDown reg.jobId reg.nomadGroup) := ⟨go, key, due⟩
    apply Program.Meets.perform required
    intro result _
    exact afterScaleDown_settles result due

lemma unlessTraffic_settles (due : v.turn = .due key) (go : v.go = true) :
    Settles (unlessTraffic cfg key) v := by
  have calm := calm_of_due due
  unfold unlessTraffic
  split
  · apply Settles.after_quiet (hasActiveTraffic_quiet key) calm
    intro active
    match active with
    | .error e => exact calm.owing
    | .ok false => exact scaleDownRegistered_settles due go
    | .ok true => exact settles_quiet (.bind (recordActivity_quiet key) fun _ => trivial) calm
  · exact scaleDownRegistered_settles due go

lemma unlessInFlight_settles (due : v.turn = .due key) (go : v.go = true) :
    Settles (unlessInFlight cfg key) v := by
  have calm := calm_of_due due
  apply Settles.after_quiet (perform_quiet rfl) calm
  intro busy
  cases busy with
  | true => exact settles_quiet (.bind (recordActivity_quiet key) fun _ => trivial) calm
  | false => exact unlessTraffic_settles due go

lemma scaleDownJob_settles (owed : v.turn.owing = none) (go : v.go = true) :
    Settles (scaleDownJob cfg key) v := by
  apply Program.Meets.perform owed
  intro deferral _
  cases deferral with
  | none => exact unlessInFlight_settles rfl go
  | some until_ =>
    apply Program.Meets.perform trivial
    intro now _
    by_cases early : now < until_
    · rw [if_pos early]
      have settled : ((Turn.deferred key until_).at_ now).owing = none := Turn.at_owing
      exact settled
    · rw [if_neg early]
      have due : (turnMonitor.next (turnMonitor.next v (.deferral key) (some until_)) .now now).turn =
          .due key := if_neg early
      apply Program.Meets.perform due
      intro _ _
      exact unlessInFlight_settles due go

lemma sweep_settles (keys : List JobId) (owed : v.turn.owing = none) : Settles (sweep cfg keys) v := by
  induction keys generalizing v with
  | nil => exact owed
  | cons key keys ih =>
    apply Program.Meets.perform trivial
    intro stop _
    cases stop with
    | true => exact owed
    | false =>
      refine Program.Meets.bind (scaleDownJob_settles (v := { v with go := true }) owed rfl) ?_
      intro _ w settled
      exact ih settled

lemma tick_settles : Settles (tick cfg) .start := by
  have begins : TurnView.start.turn.Calm := trivial
  apply Settles.after_quiet (perform_quiet rfl) begins
  intro acquired
  match acquired with
  | .error e => exact rfl
  | .ok false => exact rfl
  | .ok true =>
    have lists : (getIdleJobs cfg.idleThreshold).Uses Quiet :=
      .bind (perform_quiet rfl) fun _ => perform_quiet rfl
    refine Settles.after_quiet lists begins ?_
    intro idle
    cases idle with
    | error e => exact settles_quiet (perform_quiet rfl) begins
    | ok keys =>
      apply Program.Meets.bind (sweep_settles keys begins.owing)
      intro _ w settled
      exact Program.Meets.perform trivial fun _ _ => settled

end ScaleDownController
end NScale.Service
