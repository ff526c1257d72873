import NScale.Footprint

/-!
# What a sweep has looked at

A sweep takes one list of idle keys and works through it. The view of a thread says which
keys its last list had, which key it is working on, and whether the in-flight tracker has
answered that this key has no requests.
-/
namespace NScale.Service

structure SweepView where
  now : ℕ
  listed : List JobId
  key : Option JobId
  unguarded : Bool

namespace SweepView

def start : SweepView := ⟨0, [], none, false⟩

@[simps] def later (v : SweepView) (now : ℕ) : SweepView := { v with now := now }

/-- The sweep works on this key of its list, for which the tracker has no requests. -/
def Clears (v : SweepView) (keys : List JobId) (key : JobId) : Prop :=
  v.listed = keys ∧ v.key = some key ∧ v.unguarded = true

end SweepView

/-- Jobs are scaled down for a listed key that the tracker has been asked about. -/
def sweepMonitor (threshold : ℕ) : Monitor Ops SweepView where
  requires v
    | .zrangebyscore cutoff => cutoff = (v.now : ℤ) - threshold
    | .scaleDown .. => v.unguarded = true ∧ ∃ key ∈ v.listed, v.key = some key
    | .hasInFlight key => v.key = some key
    | _ => True
  assumes _ _ _ := True
  next v
    | .now, time => { v with now := time }
    | .zrangebyscore _, .ok keys => { v with listed := keys }
    | .deferral key, _ => { v with key := some key, unguarded := false }
    | .hasInFlight _, busy => { v with unguarded := !busy }
    | _, _ => v

namespace ScaleDownController

variable {cfg : Config} {v : SweepView} {key : JobId} {keys : List JobId} {α : Type}

/-- Operations outside a sweep leave all of the view but the time. -/
lemma next_quiet {op : Op} {a : op.Answer} {threshold : ℕ} (quiet : op.area ≠ .sweep) :
    ∃ now, (sweepMonitor threshold).next v op a = v.later now := by
  cases op with
  | now => exact ⟨a, rfl⟩
  | zrangebyscore | deferral | hasInFlight => exact absurd rfl quiet
  | _ => exact ⟨v.now, rfl⟩

lemma requires_quiet {op : Op} {threshold : ℕ} (quiet : op.area ≠ .sweep) :
    (sweepMonitor threshold).requires v op := by
  cases op with
  | zrangebyscore | hasInFlight | scaleDown => exact absurd rfl quiet
  | _ => trivial

lemma quiet_meets {areas : List Area} {threshold : ℕ} {p : Code α} (uses : p.Uses (Within areas))
    (quiet : .sweep ∉ areas) :
    p.Meets (sweepMonitor threshold) (fun _ w => ∃ now, w = v.later now) v := by
  apply Program.Meets.of_uses (fun w => ∃ now, w = v.later now) uses
  · intro op w within same
    have outside : op.area ≠ .sweep := fun h => quiet (h ▸ within)
    refine ⟨requires_quiet outside, fun a _ => ?_⟩
    obtain ⟨now, rfl⟩ := same
    exact next_quiet outside
  · exact ⟨v.now, rfl⟩

/-- The sweep still works through its list. -/
abbrev Sweeps (cfg : Config) (p : Code α) (keys : List JobId) (v : SweepView) : Prop :=
  p.Meets (sweepMonitor cfg.idleThreshold) (fun _ v => v.listed = keys) v

lemma sweeps_quiet {areas : List Area} {p : Code α} (uses : p.Uses (Within areas))
    (quiet : .sweep ∉ areas) (listed : v.listed = keys) : Sweeps cfg p keys v := by
  apply (quiet_meets uses quiet).mono
  rintro _ w ⟨now, rfl⟩
  exact listed

lemma scaleDownRegistered_sweeps (clears : v.Clears keys key) (mem : key ∈ keys) :
    Sweeps cfg (scaleDownRegistered cfg key) keys v := by
  apply Program.Meets.bind (quiet_meets (registryGet_within cfg.durable key) (by simp))
  rintro found w ⟨now, rfl⟩
  obtain ⟨listed, at_, unguarded⟩ := clears
  match found with
  | .error e => exact listed
  | .ok none => exact Program.Meets.perform trivial fun _ _ => listed
  | .ok (some reg) =>
    apply Program.Meets.perform
    · exact ⟨unguarded, key, listed ▸ mem, at_⟩
    · intro result _
      exact sweeps_quiet (afterScaleDown_within key result) (by simp) listed

lemma unlessTraffic_sweeps (clears : v.Clears keys key) (mem : key ∈ keys) :
    Sweeps cfg (unlessTraffic cfg key) keys v := by
  unfold unlessTraffic
  split
  · apply Program.Meets.bind (quiet_meets (hasActiveTraffic_within key) (by simp))
    rintro active w ⟨now, rfl⟩
    match active with
    | .error e => exact clears.1
    | .ok false => exact scaleDownRegistered_sweeps clears mem
    | .ok true =>
      exact sweeps_quiet (.bind (recordActivity_within key) fun _ => trivial) (by simp) clears.1
  · exact scaleDownRegistered_sweeps clears mem

lemma unlessInFlight_sweeps (listed : v.listed = keys) (at_ : v.key = some key) (mem : key ∈ keys) :
    Sweeps cfg (unlessInFlight cfg key) keys v := by
  apply Program.Meets.perform at_
  intro busy _
  cases busy with
  | true => exact sweeps_quiet (.bind (recordActivity_within key) fun _ => trivial) (by simp) listed
  | false => exact unlessTraffic_sweeps ⟨listed, at_, rfl⟩ mem

lemma scaleDownJob_sweeps (listed : v.listed = keys) (mem : key ∈ keys) :
    Sweeps cfg (scaleDownJob cfg key) keys v := by
  apply Program.Meets.perform trivial
  intro deferral _
  cases deferral with
  | none => exact unlessInFlight_sweeps listed rfl mem
  | some until_ =>
    apply Program.Meets.perform trivial
    intro now _
    split
    · exact listed
    · apply Program.Meets.perform trivial
      intro _ _
      exact unlessInFlight_sweeps listed rfl mem

lemma sweep_sweeps (rest : List JobId) (listed : v.listed = keys) (sub : ∀ key ∈ rest, key ∈ keys) :
    Sweeps cfg (sweep cfg rest) keys v := by
  induction rest generalizing v with
  | nil => exact listed
  | cons key rest ih =>
    apply Program.Meets.perform trivial
    intro stop _
    cases stop with
    | true => exact listed
    | false =>
      apply Program.Meets.bind (scaleDownJob_sweeps listed (sub key List.mem_cons_self))
      intro _ w listed
      exact ih listed fun key mem => sub key (List.mem_cons_of_mem _ mem)

lemma tick_meets : (tick cfg).Meets (sweepMonitor cfg.idleThreshold) (fun _ _ => True) v := by
  apply Program.Meets.perform trivial
  intro acquired _
  match acquired with
  | .error e => trivial
  | .ok false => trivial
  | .ok true =>
    apply Program.Meets.perform trivial
    intro now _
    apply Program.Meets.perform rfl
    intro idle _
    cases idle with
    | error e => exact Program.Meets.perform trivial fun _ _ => trivial
    | ok keys =>
      apply Program.Meets.bind (sweep_sweeps keys rfl fun _ mem => mem)
      intro _ w _
      exact Program.Meets.perform trivial fun _ _ => trivial

lemma entry_meets {c : Code Unit} (entry : Deployment.Entry cfg c) :
    c.Meets (sweepMonitor cfg.idleThreshold) (fun _ _ => True) v := by
  rcases entry_within entry with rfl | request
  · exact tick_meets
  · exact (quiet_meets request (by simp)).mono fun _ _ _ => trivial

end ScaleDownController
end NScale.Service
