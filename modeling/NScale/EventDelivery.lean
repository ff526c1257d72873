import NScale.EventPipeline
import NScale.EventReplay

/-!
# What the processor knows after reconnects

The pipeline while no operation of the processor fails and nobody else writes. Frames may come
again; which allocations the processor believes to be running is what a single delivery of the
log would have told it.
-/
namespace NScale.EventPipeline
open Transition Text EventStream EventReconnect Service JobRegistry Stutter
open EventProcessor (World handle allocations registered lookedAll lastState)

variable {parse : List Char → Option EventStreamFrame}

/-- The allocation whose event is handled, for the log of effects. -/
def allocationId (event : EventStream.NomadEvent) : String :=
  ((read event).allocation.map Allocation.id).getD ""

/-- What the processor reads and writes is kept beside the pipeline. -/
def note (clock : ℕ → ℕ) (w : World) (s : State parse) : Event parse → World
  | .answer op _ =>
    match s.processor with
    | .handling event _ => (handle clock (allocationId event) op w).2
    | _ => w
  | _ => w

/-- Nothing fails, and nobody else writes. -/
def Unfailing (clock : ℕ → ℕ) (log : Log parse) (h : List (Event parse)) (p : State parse × World) :
    Event parse → Prop
  | .answer op a => ∀ event code, p.1.processor = .handling event code →
      a = (handle clock (allocationId event) op p.2).1
  | e => Served log h p.1 e

abbrev observed (cfg : Config) (parse : List Char → Option EventStreamFrame) (clock : ℕ → ℕ)
    (store : Store) : System (State parse × World) (Event parse) :=
  (system cfg parse).logged (note clock) (World.start store)

/-- The events of a frame, as the processor reads them. -/
def allocationsOf (f : ServedFrame parse) : List Allocation := allocations (f.events.map read)

variable {cfg : Config} {clock : ℕ → ℕ} {store : Store} {log : Log parse} {s : State parse} {w : World}
  {h : List (Event parse)} {fs : List (ServedFrame parse)}

lemma served_of_unfailing {e : Event parse} (unfailing : Unfailing clock log h (s, w) e) :
    Served log h s e := by
  cases e with
  | answer op a => trivial
  | _ => exact unfailing

lemma unobserved_of_run (run : RunWhere (observed cfg parse clock store) (Unfailing clock log) h (s, w)) :
    RunWhere (system cfg parse) (Served log) h s := by
  refine run.invariant (fun h p => RunWhere (system cfg parse) (Served log) h p.1) .nil ?_
  intro h p q e _ run taken unfailing
  exact run.step (System.logged_step.mp taken).1 (served_of_unfailing unfailing)

/-- The world is that of the events handled so far, and of the operations of the next one. -/
def Follows (cfg : Config) (clock : ℕ → ℕ) (store : Store) (p : State parse × World) : Prop :=
  let past := (World.start store).receiveAll cfg clock (p.1.handled.map read)
  match p.1.processor with
  | .handling event code =>
    (Program.run (handle clock (allocationId event)) code p.2).2 = past.receive cfg clock (read event)
  | _ => p.2 = past

lemma follows_of_run (run : RunWhere (observed cfg parse clock store) (Unfailing clock log) h (s, w)) :
    Follows cfg clock store (s, w) := by
  have start : Follows cfg clock store ((system cfg parse).start, World.start store) := rfl
  refine run.state_invariant (Follows cfg clock store) start ?_
  rintro h ⟨s, w⟩ ⟨t, w'⟩ e follows logged unfailing
  obtain ⟨taken, rfl⟩ := System.logged_step.mp logged
  replace taken : step cfg s e = some t := taken
  cases e with
  | stream e =>
    have moved := moved_of_step taken
    simp only [Follows, moved.processor, moved.handled]
    exact follows
  | receive =>
    simp only [step] at taken
    split at taken
    · next receiving =>
      obtain ⟨⟨event, channel⟩, -, rfl⟩ := Option.map_eq_some_iff.mp taken
      simp only [Follows, receiving] at follows
      obtain rfl := follows
      rfl
    · cases taken
  | answer op a =>
    simp only [step] at taken
    split at taken
    · next event code handling =>
      obtain ⟨code', answered, rfl⟩ := Option.map_eq_some_iff.mp taken
      obtain ⟨next, rfl, rfl⟩ := Program.answered?_eq_some.mp answered
      obtain rfl := unfailing event _ handling
      simp only [Follows, handling] at follows
      simp only [Follows, note, handling]
      exact follows
    · cases taken
  | finish =>
    simp only [step] at taken
    split at taken
    · next event result handling =>
      obtain rfl := Option.some.inj taken
      simp only [Follows, handling] at follows
      simp only [Follows, note, List.map_append, World.receiveAll, List.foldl_append]
      exact follows
    · cases taken
  | stop =>
    simp only [step] at taken
    split at taken
    · next receiving ended empty =>
      obtain rfl := Option.some.inj taken
      simp only [Follows, receiving] at follows
      exact follows
    · cases taken

/-! ## Frames that come again -/

lemma allocations_frames (fs : List (ServedFrame parse)) :
    allocations ((fs.flatMap ServedFrame.events).map read) = fs.flatMap allocationsOf := by
  rw [List.map_flatMap, allocations, List.filterMap_flatMap]
  rfl

lemma lastState_flatMap (id : String) (fs : List (ServedFrame parse)) :
    lastState id (fs.flatMap allocationsOf) =
      fs.foldl (fun known f => (lastState id (allocationsOf f)).or known) none := by
  induction fs using List.reverseRecOn with
  | nil => rfl
  | append_singleton fs f ih =>
    rw [List.flatMap_append, List.flatMap_singleton, EventProcessor.lastState_append, ih,
      List.foldl_concat]

/-- A frame that comes again right away tells nothing new. -/
lemma lastState_destutter (id : String) (fs : List (ServedFrame parse)) :
    lastState id ((fs.destutter (· ≠ ·)).flatMap allocationsOf) =
      lastState id (fs.flatMap allocationsOf) := by
  rw [lastState_flatMap, lastState_flatMap]
  refine foldl_destutter (fun known f => ?_) none fs
  rw [← Option.or_assoc, Option.or_self]

/-- All events of the allocation are acted on. -/
lemma lastState_handled {durable : Bool} {store : Store} {id : String} {L : List Allocation}
    (known : ∀ a ∈ L, a.id = id → registered durable store a.job = true) :
    lastState id (EventProcessor.handled durable store L) = lastState id L := by
  induction L generalizing store with
  | nil => rfl
  | cons a L ih =>
    have rest : lastState id (EventProcessor.handled durable (EventProcessor.looked durable store a.job) L) =
        lastState id L := ih fun b mem same =>
      EventProcessor.registered_looked (known b (List.mem_cons_of_mem _ mem) same) a.job
    have first : lastState id (a :: L) = (lastState id L).or (lastState id [a]) :=
      EventProcessor.lastState_append id [a] L
    rw [EventProcessor.handled, first, ← rest]
    split
    · exact EventProcessor.lastState_append id [a] _
    · next unknown =>
      have other : a.id ≠ id := fun same => unknown (known a List.mem_cons_self same)
      simp [lastState, other]

lemma seenRunning_receiveAll {id : String}
    (known : ∀ f ∈ fs, ∀ a ∈ allocationsOf f, a.id = id → registered cfg.durable store a.job = true) :
    ((World.start store).receiveAll cfg clock ((fs.flatMap ServedFrame.events).map read)).seenRunning id =
      (lastState id (fs.flatMap allocationsOf)).getD false := by
  have all : ∀ a ∈ fs.flatMap allocationsOf, a.id = id → registered cfg.durable store a.job = true := by
    intro a mem same
    obtain ⟨f, there, here⟩ := List.mem_flatMap.mp mem
    exact known f there a here same
  rw [EventProcessor.receiveAll_eq, allocations_frames]
  exact (EventProcessor.seenRunning_foldl _ _ id).trans (congrArg (·.getD false) (lastState_handled all))

/-- Whenever the processor has caught up with the consumer, it believes an allocation to be running
exactly if an initial part of the log, delivered once, would have told it so; and this is the
whole log when the consumer has caught up with the server. -/
theorem seenRunning_once (cfg : Config) (clock : ℕ → ℕ) (store : Store) (log : Log parse)
    (h : List (Event parse)) (s : State parse) (w : World)
    (run : RunWhere (observed cfg parse clock store) (Unfailing clock log) h (s, w))
    (idle : Idle s) (whole : s.stream.task.phase.owed = []) (id : String)
    (known : ∀ f ∈ log.frames, ∀ a ∈ allocationsOf f, a.id = id →
      registered cfg.durable store a.job = true) :
    ∃ frames : List (ServedFrame parse), frames <+: log.told ∧
      w.seenRunning id = ((World.start store).receiveAll cfg clock
        ((frames.flatMap ServedFrame.events).map read)).seenRunning id ∧
      ∀ link buffer, s.stream.link = some link → s.stream.task.phase = .reading buffer →
        newline ∉ buffer ++ link.wire →
        (∀ f ∈ log.frames, link.requested ≤ f.index → .frame f ∈ link.written) → frames = log.told := by
  obtain ⟨stream, piped⟩ := stream_of_run (unobserved_of_run run)
  obtain ⟨fs, relay⟩ := relay_of_run stream
  have follows := follows_of_run run
  simp only [Follows, idle.receiving] at follows
  have handled : s.handled = fs.flatMap ServedFrame.events := by
    have order := piped.order
    have sent := relay.sent
    rw [idle.receiving, idle.empty] at order
    rw [whole, ← order] at sent
    simpa [Processor.current] using sent
  have inLog : ∀ f ∈ fs.destutter (· ≠ ·), f ∈ log.frames := fun f mem =>
    (Log.mem_told.mp (relay.part.subset mem)).1
  refine ⟨fs.destutter (· ≠ ·), relay.part, ?_,
    fun link buffer open_ reads unread written => relay.complete open_ reads unread written⟩
  rw [follows, handled, seenRunning_receiveAll fun f mem => known f (inLog f (mem_destutter.mpr mem)),
    seenRunning_receiveAll fun f mem => known f (inLog f mem), lastState_destutter]

/-! ## A frame that comes twice -/

instance (clock : ℕ → ℕ) (log : Log parse) (h : List (Event parse)) (p : State parse × World)
    (e : Event parse) : Decidable (Unfailing clock log h p e) :=
  match e with
  | .answer op a =>
    match at_ : p.1.processor with
    | .handling event _ => decidable_of_iff (a = (handle clock (allocationId event) op p.2).1)
        ⟨fun same _ _ handling => (Processor.handling.inj (at_.symm.trans handling)).1 ▸ same,
          fun all => all event _ at_⟩
    | .receiving | .stopped => isTrue fun _ _ handling => by simp [at_] at handling
  | .stream e => inferInstanceAs (Decidable (Served log h p.1 (.stream e)))
  | .receive | .finish | .stop => isTrue trivial

instance (p : Processor) : Decidable (p = .receiving) :=
  match p with
  | .receiving => isTrue rfl
  | .handling .. | .stopped => isFalse nofun

def runningFrame (id : String) (index : ℕ) : EventStreamFrame :=
  ⟨[⟨"Allocation", "AllocationUpdated",
    (EventProcessor.allocationEvent "shop" id "running" "run").payload⟩], index⟩

def runningParse : List Char → Option EventStreamFrame
  | ['x'] => some (runningFrame "a" 1)
  | ['y'] => some (runningFrame "b" 2)
  | _ => none

def runningA : ServedFrame runningParse := ⟨[120], 1, by decide, fun _ read => by cases read; rfl⟩

def runningB : ServedFrame runningParse := ⟨[121], 2, by decide, fun _ read => by cases read; rfl⟩

def runningLog : Log runningParse := ⟨[runningA, runningB], by decide⟩

/-- The lookup of the job, and what comes after it. -/
def handlingOf (rest : List (Event runningParse)) : List (Event runningParse) :=
  [.receive, .answer (.store (.hget .byJob "shop")) (.ok (some webReg))] ++ rest ++ [.finish]

/-- The allocation is seen running for the first time. -/
def firstSeen (id : String) : List (Event runningParse) :=
  handlingOf [.answer (.seeRunning id) true, .answer .now (0 : ℕ), .answer (.zadd ⟨"shop"⟩ 0) (.ok ())]

/-- The second connection sends the frame of `a` again. -/
def runningTwice : List (Event runningParse) :=
  [.stream (.task .connect), .stream (.task .accepted), .stream (.write (.frame runningA)),
    .stream (.deliver 2), .stream (.task .line), .stream (.task .send), .stream (.task .line),
    .stream (.task .broken), .stream (.task .retry), .stream (.task .connect),
    .stream (.task .accepted), .stream (.write (.frame runningA)), .stream (.write (.frame runningB)),
    .stream (.deliver 4), .stream (.task .line), .stream (.task .send), .stream (.task .line),
    .stream (.task .send), .stream (.task .line)] ++
  firstSeen "a" ++ handlingOf [.answer (.seeRunning "a") false] ++ firstSeen "b"

theorem runningTwice_once : ∃ (s : State runningParse) (w : World), s.handled.length = 3 ∧
    ∃ frames : List (ServedFrame runningParse), frames <+: runningLog.told ∧
      w.seenRunning "a" = ((World.start EventProcessor.shopStore).receiveAll
        EventProcessor.durableConfig (fun _ => 0)
          ((frames.flatMap ServedFrame.events).map read)).seenRunning "a" := by
  obtain ⟨h, ⟨s, w⟩, run, three, receiving, empty, whole⟩ := exists_run
    (T := observed EventProcessor.durableConfig runningParse (fun _ => 0) EventProcessor.shopStore)
    (C := Unfailing (fun _ => 0) runningLog)
    (fun _ p => p.1.handled.length = 3 ∧ p.1.processor = .receiving ∧
      p.1.channel.queue.length = 0 ∧ p.1.stream.task.phase.owed.length = 0) runningTwice (by decide +kernel)
  obtain ⟨frames, part, same, -⟩ := seenRunning_once EventProcessor.durableConfig (fun _ => 0)
    EventProcessor.shopStore runningLog h s w run
    ⟨receiving, List.length_eq_zero_iff.mp empty⟩ (List.length_eq_zero_iff.mp whole) "a" (by decide +kernel)
  exact ⟨s, w, three, frames, part, same⟩

end NScale.EventPipeline
