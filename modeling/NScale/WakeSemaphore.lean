import NScale.WakePermits
import NScale.WakeBroadcast

/-!
# The permit of a wake task

`run_wake_task` in smaller steps than the coordinator has: its permit is a local variable, which is
returned when it is dropped, and a call of `scale_up` is in progress from when it is made to when
it is answered. Nobody closes the semaphore, so `acquire` does not fail. The coordinator does the
same in fewer steps.
-/
namespace NScale.WakeSemaphore
open Transition Census WakeCoordinator

/-- Where `run_wake_task` is. -/
inductive Point
  | acquire
  | call
  | scaling (c : ℕ)
  | scaled (answer : Result Unit)
  | select
  deriving DecidableEq, Repr

/-- The variables of `run_wake_task`, as far as they own something. -/
structure Frame where
  at_ : Point
  permit : Bool
  deriving DecidableEq, Repr

/-- A call of `scale_up` with count 1. -/
structure ScaleUp where
  task : ℕ
  job : JobId
  group : String
  deriving DecidableEq, Repr

structure Wakes where
  coord : State
  frames : ℕ → Option Frame
  scaleUps : ℕ → Option ScaleUp
  nextScaleUp : ℕ

def start (nomadConcurrency wakeTimeout : ℕ) : Wakes where
  coord := initial nomadConcurrency wakeTimeout
  frames _ := none
  scaleUps _ := none
  nextScaleUp := 0

/-- A step of the coordinator, or one inside the scale-up phase of a task. -/
inductive Move
  | coord (e : Event)
  | call (t : ℕ) (reg : JobRegistration) (w : ℕ)
  | answer (t : ℕ) (c : ℕ) (result : Result Unit)
  deriving DecidableEq, Repr

namespace Wakes
variable (s : Wakes)

@[simps] def setCoord (coord : State) : Wakes := { s with coord := coord }

@[simps] def setFrame (t : ℕ) (frame : Option Frame) : Wakes :=
  { s with frames := Function.update s.frames t frame }

/-- The task goes on to another point of `run_wake_task`. -/
def goTo (t : ℕ) (point : Point) : Wakes :=
  s.setFrame t ((s.frames t).map fun frame => { frame with at_ := point })

/-- The permit goes back to the semaphore if the variable still owns it. -/
def dropPermit (t : ℕ) : Wakes :=
  match s.frames t with
  | some ⟨at_, true⟩ =>
    (s.setCoord (s.coord.setPermits (s.coord.permits + 1))).setFrame t (some ⟨at_, false⟩)
  | _ => s

/-- `run_wake_task` returns, and its variables are dropped. -/
def leave (t : ℕ) : Wakes := (s.dropPermit t).setFrame t none

end Wakes

def Move.enabled (s : Wakes) : Move → Bool
  | .coord (.scaled t reg w result) =>
    s.coord.tasks t = some (.scaleUp reg w) ∧ (s.frames t).map Frame.at_ = some (.scaled result)
  | .coord e => e.enabled s.coord
  | .call t reg w =>
    s.coord.tasks t = some (.scaleUp reg w) ∧ (s.frames t).map Frame.at_ = some .call
  | .answer t c _ => (s.frames t).map Frame.at_ = some (.scaling c)

def Move.next (s : Wakes) : Move → Wakes
  | .coord (.spawn i reg w inbox) =>
    (s.setCoord (Event.next s.coord (.spawn i reg w inbox))).setFrame s.coord.nextTask
      (some ⟨.acquire, false⟩)
  | .coord (.acquire t reg w) =>
    (s.setCoord ((s.coord.setPermits (s.coord.permits - 1)).setTask t (.scaleUp reg w))).setFrame t
      (some ⟨.call, true⟩)
  | .coord (.scaled t reg w result) =>
    match result with
    | .ok () =>
      ((s.dropPermit t).setCoord ((s.dropPermit t).coord.setTask t (.health reg w false))).goTo t .select
    | .error e =>
      (s.leave t).setCoord ((s.leave t).coord.setTask t (.storeDormant reg w (failure e)))
  | .coord (.healthy t reg w sawNone found) =>
    (s.leave t).setCoord (Event.next (s.leave t).coord (.healthy t reg w sawNone found))
  | .coord (.pollReceivers t reg w sawNone) =>
    if (s.coord.cells w).receivers = 0 ∧ sawNone = true then
      (s.leave t).setCoord (Event.next (s.leave t).coord (.pollReceivers t reg w sawNone))
    else s.setCoord (Event.next s.coord (.pollReceivers t reg w sawNone))
  | .coord e => s.setCoord (e.next s.coord)
  | .call t reg _ =>
    { s.goTo t (.scaling s.nextScaleUp) with
        scaleUps := Function.update s.scaleUps s.nextScaleUp (some ⟨t, reg.jobId, reg.nomadGroup⟩)
        nextScaleUp := s.nextScaleUp + 1 }
  | .answer t c result =>
    { s.goTo t (.scaled result) with scaleUps := Function.update s.scaleUps c none }

/-- The wake tasks of one replica. -/
def wakes (nomadConcurrency wakeTimeout : ℕ) : System Wakes Move :=
  .guarded (start nomadConcurrency wakeTimeout) Move.enabled Move.next

/-! ## The frames and the tasks of the coordinator -/

/-- From acquiring the permit to dropping it. -/
def Point.InScaleUp : Point → Prop
  | .call | .scaling _ | .scaled _ => True
  | _ => False

def Agrees : Option Task → Option Frame → Prop
  | some (.acquire _ _), frame => frame = some ⟨.acquire, false⟩
  | some (.scaleUp _ _), frame => ∃ point : Point, point.InScaleUp ∧ frame = some ⟨point, true⟩
  | some (.health _ _ _), frame => frame = some ⟨.select, false⟩
  | _, frame => frame = none

/-- Every task in `run_wake_task` has the frame for its position, and no other task has one. -/
def Synced (tasks : ℕ → Option Task) (frames : ℕ → Option Frame) : Prop :=
  ∀ t, Agrees (tasks t) (frames t)

/-- A call in progress is awaited by the task that made it. -/
def Owned (frames : ℕ → Option Frame) (scaleUps : ℕ → Option ScaleUp) : Prop :=
  ∀ c call, scaleUps c = some call → (frames call.task).map Frame.at_ = some (.scaling c)

structure Framed (s : Wakes) : Prop where
  synced : Synced s.coord.tasks s.frames
  owned : Owned s.frames s.scaleUps

section
variable {tasks : ℕ → Option Task} {frames : ℕ → Option Frame} {scaleUps : ℕ → Option ScaleUp}
  {t c : ℕ} {k : Option Task} {frame : Option Frame}

/-- The task is in its scale-up phase where the coordinator has it hold a permit. -/
lemma Agrees.inScaleUp_iff (agrees : Agrees k frame) :
    (∃ f, frame = some f ∧ f.at_.InScaleUp) ↔ ∃ task, k = some task ∧ task.HoldsPermit := by
  cases k with
  | none =>
    obtain rfl : frame = none := agrees
    simp
  | some task =>
    cases task with
    | scaleUp reg w =>
      obtain ⟨point, phase, rfl⟩ := agrees
      simp [phase, Task.HoldsPermit]
    | acquire | health =>
      obtain rfl := agrees
      simp [Point.InScaleUp, Task.HoldsPermit]
    | _ =>
      obtain rfl : frame = none := agrees
      simp [Task.HoldsPermit]

/-- The variable owns the permit in the scale-up phase and at no other time. -/
lemma Agrees.permit_iff {f : Frame} (agrees : Agrees k (some f)) :
    f.permit = true ↔ f.at_.InScaleUp := by
  cases k with
  | none => cases agrees
  | some task =>
    cases task with
    | scaleUp reg w =>
      obtain ⟨point, phase, same⟩ := agrees
      obtain rfl := Option.some.inj same
      simp [phase]
    | acquire | health =>
      obtain rfl := Option.some.inj agrees
      simp [Point.InScaleUp]
    | _ => cases agrees

/-- Inside the phase the task may be at any of its points. -/
lemma Agrees.goTo {f : Frame} {point : Point} (agrees : Agrees k (some f)) (here : f.at_.InScaleUp)
    (next : point.InScaleUp) : Agrees k (some { f with at_ := point }) := by
  cases k with
  | none => cases agrees
  | some task =>
    cases task with
    | scaleUp reg w =>
      obtain ⟨p, -, same⟩ := agrees
      obtain rfl := Option.some.inj same
      exact ⟨point, next, rfl⟩
    | acquire | health =>
      obtain rfl := Option.some.inj agrees
      exact here.elim
    | _ => cases agrees

lemma Synced.update (synced : Synced tasks frames) (agrees : Agrees k frame) :
    Synced (Function.update tasks t k) (Function.update frames t frame) := by
  intro u
  by_cases same : u = t
  · subst same
    simpa using agrees
  · simpa [same] using synced u

lemma Synced.setTask (synced : Synced tasks frames) (agrees : Agrees k (frames t)) :
    Synced (Function.update tasks t k) frames := by
  have updated := synced.update (t := t) agrees
  rwa [Function.update_eq_self] at updated

/-- A task that awaits no answer moves. -/
lemma Owned.update (owned : Owned frames scaleUps)
    (idle : ∀ c, (frames t).map Frame.at_ ≠ some (.scaling c)) :
    Owned (Function.update frames t frame) scaleUps := by
  intro c call found
  have awaited := owned c call found
  by_cases same : call.task = t
  · exact absurd (same ▸ awaited) (idle c)
  · rwa [Function.update_of_ne same]

/-- A call is made, and its task awaits the answer. -/
lemma Owned.insert (owned : Owned frames scaleUps) {call : ScaleUp}
    (awaits : (frames call.task).map Frame.at_ = some (.scaling c)) :
    Owned frames (Function.update scaleUps c (some call)) := by
  intro d other found
  by_cases same : d = c
  · subst same
    obtain rfl : call = other := by simpa using found
    exact awaits
  · exact owned d other (by simpa [same] using found)

/-- A call is answered, and its task awaits nothing. -/
lemma Owned.erase (owned : Owned frames scaleUps)
    (awaits : (frames t).map Frame.at_ = some (.scaling c)) :
    Owned (Function.update frames t frame) (Function.update scaleUps c none) := by
  intro d call found
  by_cases done : d = c
  · subst done
    simp at found
  · have awaited := owned d call (by simpa [done] using found)
    by_cases same : call.task = t
    · rw [same, awaits] at awaited
      cases awaited
      exact absurd rfl done
    · rwa [Function.update_of_ne same]

end

/-! ## The coordinator does the same -/

section
variable {s : Wakes} {t : ℕ} {point : Point} {e : Event} {reg : JobRegistration} {w : ℕ}

lemma dropPermit_held (held : s.frames t = some ⟨point, true⟩) : s.dropPermit t =
    (s.setCoord (s.coord.setPermits (s.coord.permits + 1))).setFrame t (some ⟨point, false⟩) := by
  rw [Wakes.dropPermit, held]

lemma leave_held (held : s.frames t = some ⟨point, true⟩) : s.leave t =
    (s.setCoord (s.coord.setPermits (s.coord.permits + 1))).setFrame t none := by
  rw [Wakes.leave, dropPermit_held held]
  simp [Wakes.setFrame]

/-- The permit has been dropped before, so that nothing is returned a second time. -/
lemma leave_dropped (dropped : s.frames t = some ⟨point, false⟩) : s.leave t = s.setFrame t none := by
  rw [Wakes.leave, Wakes.dropPermit, dropped]

namespace Framed

/-- In its scale-up phase a task owns its permit. -/
lemma held (framed : Framed s) (at_ : s.coord.tasks t = some (.scaleUp reg w))
    (here : (s.frames t).map Frame.at_ = some point) : s.frames t = some ⟨point, true⟩ := by
  have agrees := framed.synced t
  rw [at_] at agrees
  obtain ⟨p, -, frame⟩ := agrees
  rw [frame] at here ⊢
  obtain rfl : p = point := Option.some.inj here
  rfl

lemma selecting (framed : Framed s) {sawNone : Bool}
    (at_ : s.coord.tasks t = some (.health reg w sawNone)) : s.frames t = some ⟨.select, false⟩ := by
  have agrees := framed.synced t
  rwa [at_] at agrees

end Framed

/-- What a step of the coordinator leaves: the frames fit the tasks again. -/
def Follows (s : Wakes) (e : Event) (s' : Wakes) : Prop :=
  ∃ frames, s' = { s with coord := e.next s.coord, frames := frames } ∧
    Synced (e.next s.coord).tasks frames ∧ Owned frames s.scaleUps

lemma Framed.spawn (framed : Framed s) (wf : WellFormed s.coord) {i : ℕ} {inbox : Option WakeResult} :
    Follows s (.spawn i reg w inbox) (Move.next s (.coord (.spawn i reg w inbox))) := by
  have fresh : s.coord.tasks s.coord.nextTask = none :=
    Option.eq_none_iff_forall_not_mem.mpr fun k hk => (wf.tasks hk).false
  have noFrame : s.frames s.coord.nextTask = none := by
    have agrees := framed.synced s.coord.nextTask
    rwa [fresh] at agrees
  exact ⟨_, rfl, framed.synced.update rfl, framed.owned.update (by simp [noFrame])⟩

lemma Framed.acquire (framed : Framed s) (at_ : s.coord.tasks t = some (.acquire reg w)) :
    Follows s (.acquire t reg w) (Move.next s (.coord (.acquire t reg w))) := by
  have frame : s.frames t = some ⟨.acquire, false⟩ := by
    have agrees := framed.synced t
    rwa [at_] at agrees
  exact ⟨_, rfl, framed.synced.update ⟨.call, trivial, rfl⟩, framed.owned.update (by simp [frame])⟩

/-- The early return and the explicit drop both return the permit. -/
lemma Framed.scaled (framed : Framed s) {result : Result Unit}
    (frame : s.frames t = some ⟨.scaled result, true⟩) :
    Follows s (.scaled t reg w result) (Move.next s (.coord (.scaled t reg w result))) := by
  have idle : ∀ c, (s.frames t).map Frame.at_ ≠ some (.scaling c) := by simp [frame]
  cases result with
  | ok _ =>
    refine ⟨Function.update s.frames t (some ⟨.select, false⟩), ?_, ?_, ?_⟩
    · simp [Move.next, dropPermit_held frame, Wakes.goTo, Wakes.setFrame, Wakes.setCoord, Event.next]
    · exact framed.synced.update rfl
    · exact framed.owned.update idle
  | error e =>
    refine ⟨Function.update s.frames t none, ?_, ?_, ?_⟩
    · simp [Move.next, leave_held frame, Wakes.setFrame, Wakes.setCoord, Event.next]
    · exact framed.synced.update rfl
    · exact framed.owned.update idle

lemma Framed.healthy (framed : Framed s) {sawNone : Bool} {found : Result Endpoint}
    (at_ : s.coord.tasks t = some (.health reg w sawNone)) :
    Follows s (.healthy t reg w sawNone found)
      (Move.next s (.coord (.healthy t reg w sawNone found))) := by
  have frame := framed.selecting at_
  refine ⟨Function.update s.frames t none, ?_, ?_, framed.owned.update (by simp [frame])⟩
  · simp [Move.next, leave_dropped frame, Wakes.setFrame, Wakes.setCoord]
  · cases found <;> exact framed.synced.update rfl

lemma Framed.pollReceivers (framed : Framed s) {sawNone : Bool}
    (at_ : s.coord.tasks t = some (.health reg w sawNone)) :
    Follows s (.pollReceivers t reg w sawNone)
      (Move.next s (.coord (.pollReceivers t reg w sawNone))) := by
  have frame := framed.selecting at_
  by_cases ends : (s.coord.cells w).receivers = 0 ∧ sawNone = true
  · refine ⟨Function.update s.frames t none, ?_, ?_, framed.owned.update (by simp [frame])⟩
    · simp only [Move.next, if_pos ends, leave_dropped frame]
      rfl
    · simp only [Event.next, if_pos ends.1, if_pos ends.2]
      exact framed.synced.update rfl
  · refine ⟨s.frames, ?_, ?_, framed.owned⟩
    · simp only [Move.next, if_neg ends]
      rfl
    · have selects (b : Bool) : Agrees (some (.health reg w b)) (s.frames t) := frame
      simp only [Event.next]
      split_ifs with none_ twice
      · exact absurd ⟨none_, twice⟩ ends
      · exact framed.synced.setTask (selects true)
      · exact framed.synced.setTask (selects false)

/-- A step that leaves the tasks as they are. -/
lemma Framed.others (framed : Framed s) (same : (e.next s.coord).tasks = s.coord.tasks) :
    Follows s e (s.setCoord (e.next s.coord)) :=
  ⟨s.frames, rfl, by rw [same]; exact framed.synced, framed.owned⟩

/-- A step of a task that has left `run_wake_task`. -/
lemma Framed.afterwards (framed : Framed s) {k k' : Task} (at_ : s.coord.tasks t = some k)
    (moves : (e.next s.coord).tasks = Function.update s.coord.tasks t (some k'))
    (left_ : ∀ frame, Agrees (some k) frame → Agrees (some k') frame) :
    Follows s e (s.setCoord (e.next s.coord)) := by
  have agrees := framed.synced t
  rw [at_] at agrees
  refine ⟨s.frames, rfl, ?_, framed.owned⟩
  rw [moves]
  exact framed.synced.setTask (left_ _ agrees)

theorem Framed.follows (framed : Framed s) (wf : WellFormed s.coord)
    (en : (Move.coord e).enabled s = true) : Follows s e (Move.next s (.coord e)) := by
  cases e with
  | spawn i reg w inbox => exact framed.spawn wf
  | acquire t reg w => exact framed.acquire (of_decide_eq_true en).1
  | scaled t reg w result =>
    have en := of_decide_eq_true en
    exact framed.scaled (framed.held en.1 en.2)
  | healthy t reg w sawNone found => exact framed.healthy (of_decide_eq_true en)
  | pollReceivers t reg w sawNone => exact framed.pollReceivers (of_decide_eq_true en)
  | publish | storeReady | sendReady | storeDormant | sendFailure | removeEntry =>
    exact framed.afterwards (of_decide_eq_true en) rfl fun _ none_ => none_
  | entry => exact framed.others (s.coord.orInsert_tasks _)
  | reset | refreshReady => exact framed.others (s.coord.storeStatus_tasks _ _)
  | fastPath | load | cached | fetched | tryStart | queried =>
    apply framed.others
    simp only [Event.next]
    split <;> rfl
  | begin | store | subscribe | ownSubscribe | recv | timeout | dropFetch | dropRecv | dropQuery
  | evict | remove | refreshStore => exact framed.others rfl

/-- A step of a task is one the coordinator can take. -/
lemma enabled_of_coord (en : (Move.coord e).enabled s = true) :
    e.enabled s.coord = true := by
  cases e with
  | scaled => exact decide_eq_true (of_decide_eq_true en).1
  | _ => exact en

/-- A step inside the scale-up phase is none of the coordinator, which goes on afterwards. -/
lemma Framed.inside (framed : Framed s) {here : Point}
    (frame : (s.frames t).map Frame.at_ = some here) (phase : here.InScaleUp) (next : point.InScaleUp) :
    Synced s.coord.tasks (s.goTo t point).frames := by
  obtain ⟨f, at_, rfl⟩ := Option.map_eq_some_iff.mp frame
  have agrees := framed.synced t
  rw [at_] at agrees
  have updated := agrees.goTo phase next
  have moved := framed.synced.update (t := t) updated
  rw [Function.update_eq_self] at moved
  rw [Wakes.goTo, at_]
  exact moved

lemma Framed.call (framed : Framed s) (frame : (s.frames t).map Frame.at_ = some .call) :
    Framed (Move.next s (.call t reg w)) where
  synced := framed.inside frame trivial trivial
  owned := by
    obtain ⟨f, at_, here⟩ := Option.map_eq_some_iff.mp frame
    have moved : Owned (s.goTo t (.scaling s.nextScaleUp)).frames s.scaleUps :=
      framed.owned.update (by simp [frame])
    exact moved.insert (by simp [Wakes.goTo, at_])

lemma Framed.answer (framed : Framed s) {c : ℕ} {result : Result Unit}
    (frame : (s.frames t).map Frame.at_ = some (.scaling c)) :
    Framed (Move.next s (.answer t c result)) where
  synced := framed.inside frame trivial trivial
  owned := framed.owned.erase frame

end

lemma wakes_step_iff {n timeout : ℕ} {s s' : Wakes} {m : Move} :
    (wakes n timeout).step s m = some s' ↔ m.enabled s = true ∧ m.next s = s' :=
  System.guarded_step

lemma framed_start (n timeout : ℕ) : Framed (start n timeout) where
  synced _ := rfl
  owned _ _ found := by cases found

/-- In every run the frames fit, and the coordinator has a run to the same state. -/
theorem framed_of_run {n timeout : ℕ} {C : Condition Wakes Move} {h : List Move} {s : Wakes}
    (run : RunWhere (wakes n timeout) C h s) :
    Framed s ∧ ∃ h', Run (system n timeout) h' s.coord := by
  apply run.invariant fun _ s => Framed s ∧ ∃ h', Run (system n timeout) h' s.coord
  · exact ⟨framed_start n timeout, [], .nil⟩
  · rintro h s _ m - ⟨framed, h', prior⟩ taken -
    obtain ⟨en, rfl⟩ := wakes_step_iff.mp taken
    cases m with
    | coord e =>
      obtain ⟨frames, left_, synced, owned⟩ := framed.follows (wellFormed_of_run prior) en
      rw [left_]
      exact ⟨⟨synced, owned⟩, e :: h', prior.step (step_iff.mpr ⟨enabled_of_coord en, rfl⟩) trivial⟩
    | call t reg w => exact ⟨framed.call (of_decide_eq_true en).2, h', prior⟩
    | answer t c result => exact ⟨framed.answer (of_decide_eq_true en), h', prior⟩

/-! ## The permits are balanced -/

/-- The tasks in their scale-up phase. -/
def Wakes.inScaleUp (s : Wakes) : Set ℕ := members s.frames fun frame => frame.at_.InScaleUp

structure Balanced (n : ℕ) (s : Wakes) : Prop where
  permits : s.inScaleUp.encard + s.coord.permits = n
  calls : ∀ c call, s.scaleUps c = some call → call.task ∈ s.inScaleUp
  bounded : {c | (s.scaleUps c).isSome}.encard ≤ n
  waiting : ∀ t frame, s.frames t = some frame → frame.at_ = .select → frame.permit = false
  idle : s.inScaleUp = ∅ → s.coord.permits = n

namespace Framed
variable {n : ℕ} {s : Wakes}

/-- The phase is the time in which the coordinator has the task hold a permit. -/
lemma inScaleUp_eq (framed : Framed s) : s.inScaleUp = members s.coord.tasks Task.HoldsPermit := by
  ext t
  exact (framed.synced t).inScaleUp_iff

lemma call_inScaleUp (framed : Framed s) {c : ℕ} {call : ScaleUp} (found : s.scaleUps c = some call) :
    call.task ∈ s.inScaleUp := by
  obtain ⟨frame, at_, awaits⟩ := Option.map_eq_some_iff.mp (framed.owned c call found)
  have phase : frame.at_.InScaleUp := by
    rw [awaits]
    trivial
  exact ⟨frame, at_, phase⟩

/-- Every task in its scale-up phase has made at most one call that is in progress. -/
lemma calls_le (framed : Framed s) : {c | (s.scaleUps c).isSome}.encard ≤ s.inScaleUp.encard := by
  apply Set.encard_le_encard_of_injOn (f := fun c => ((s.scaleUps c).map ScaleUp.task).getD 0)
  · intro c inProgress
    obtain ⟨call, found⟩ := Option.isSome_iff_exists.mp inProgress
    simpa [found] using framed.call_inScaleUp found
  · intro c inProgress d inProgress' same
    obtain ⟨call, found⟩ := Option.isSome_iff_exists.mp inProgress
    obtain ⟨other, found'⟩ := Option.isSome_iff_exists.mp inProgress'
    have task : call.task = other.task := by simpa [found, found'] using same
    have one := framed.owned c call found
    rw [task, framed.owned d other found'] at one
    cases one
    rfl

lemma permit_of_select (framed : Framed s) {t : ℕ} {frame : Frame} (at_ : s.frames t = some frame)
    (selects : frame.at_ = .select) : frame.permit = false := by
  have agrees := framed.synced t
  rw [at_] at agrees
  apply Bool.eq_false_iff.mpr
  intro held
  have phase := agrees.permit_iff.mp held
  rw [selects] at phase
  exact phase

end Framed

/-- At every moment of every run the permits are balanced. -/
theorem balanced_of_run (n timeout : ℕ) (h : List Move) (s : Wakes) (run : Run (wakes n timeout) h s) :
    Balanced n s := by
  obtain ⟨framed, h', coarse⟩ := framed_of_run run
  have permits : s.inScaleUp.encard + s.coord.permits = n := by
    rw [framed.inScaleUp_eq]
    exact permitsAre_of_run coarse
  constructor
  · exact permits
  · exact fun c call found => framed.call_inScaleUp found
  · exact framed.calls_le.trans (permits ▸ le_self_add)
  · exact fun t frame at_ selects => framed.permit_of_select at_ selects
  · intro idle
    rw [idle, Set.encard_empty, zero_add] at permits
    exact_mod_cast permits

/-- A caller finds no entry for its job and starts a wake task. -/
def startWake (i w : ℕ) (reg : JobRegistration) : List Move :=
  [.coord (.begin (.ensureRunning reg)), .coord (.fastPath i reg), .coord (.entry i reg),
    .coord (.load i reg w), .coord (.tryStart i reg w), .coord (.ownSubscribe i reg w),
    .coord (.spawn i reg w none)]

def chatReg : JobRegistration := ⟨⟨"chat"⟩, ⟨"chat-s2z"⟩, "main"⟩

/-- With one permit the first wake fails in `scale_up`, the second is in progress. -/
theorem failedWake_balanced : ∃ h s, Run (wakes 1 60) h s ∧ s.coord.permits = 0 ∧
    s.scaleUps 1 = some ⟨1, chatReg.jobId, chatReg.nomadGroup⟩ ∧ Balanced 1 s := by
  obtain ⟨h, s, run, taken, inProgress⟩ := exists_run (T := wakes 1 60) (C := fun _ _ _ => True)
    (fun _ s => s.coord.permits = 0 ∧ s.scaleUps 1 = some ⟨1, chatReg.jobId, chatReg.nomadGroup⟩)
    (startWake 0 0 echoReg ++ startWake 1 1 chatReg ++
      [.coord (.acquire 0 echoReg 0), .call 0 echoReg 0, .answer 0 0 (.error (.nomad "down")),
        .coord (.scaled 0 echoReg 0 (.error (.nomad "down"))), .coord (.acquire 1 chatReg 1),
        .call 1 chatReg 1]) (by decide +kernel)
  exact ⟨h, s, run, taken, inProgress, balanced_of_run 1 60 h s run⟩

end NScale.WakeSemaphore
