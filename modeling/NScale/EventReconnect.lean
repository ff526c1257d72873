import NScale.EventStream

/-!
# The event stream over reconnects

The consumer with a server that remembers its frames. A connection asks for the frames from an
index on; the server writes them in the order of their indices, with heartbeats in between, and
the connection may break after any byte.
-/
namespace NScale.EventReconnect
open Transition Text EventStream

variable {parse : List Char → Option EventStreamFrame}

/-- A frame as the server writes it, in one line. If it can be parsed it carries its index. -/
structure ServedFrame (parse : List Char → Option EventStreamFrame) where
  line : List UInt8
  index : ℕ
  oneLine : newline ∉ line
  carries : ∀ frame, readLine parse line = some frame → frame.index = index
  deriving DecidableEq

/-- The events of the frame, none if it cannot be parsed. -/
def ServedFrame.events (f : ServedFrame parse) : List NomadEvent :=
  (readLine parse f.line).elim [] EventStreamFrame.nomadEvents

/-- What the server writes. -/
inductive Item (parse : List Char → Option EventStreamFrame)
  | frame (f : ServedFrame parse)
  | heartbeat (line : List UInt8) (oneLine : newline ∉ line) (silent : readLine parse line = none)
  deriving DecidableEq

def Item.line : Item parse → List UInt8
  | .frame f => f.line
  | .heartbeat line _ _ => line

def encode (items : List (Item parse)) : List UInt8 := items.flatMap fun i => i.line ++ [newline]

/-- An open connection: the index it asked for, what the server has written, oldest first, and
the bytes on their way. -/
structure Link (parse : List Char → Option EventStreamFrame) where
  requested : ℕ
  written : List (Item parse)
  wire : List UInt8

structure State (parse : List Char → Option EventStreamFrame) where
  task : EventStream.State
  link : Option (Link parse)

inductive Event (parse : List Char → Option EventStreamFrame)
  | task (e : EventStream.Event)
  | write (item : Item parse)
  | deliver (count : ℕ)

/-- The connection after a step of the task. -/
def State.linkAfter (s : State parse) : EventStream.Event → Option (Link parse)
  | .accepted =>
    match s.task.phase with
    | .requested index => some ⟨index, [], []⟩
    | _ => none
  | .line | .send => s.link
  | _ => none

def step (s : State parse) : Event parse → Option (State parse)
  | .task (.chunk _) => none
  | .task e => (EventStream.step parse s.task e).map fun t => ⟨t, s.linkAfter e⟩
  | .write item => s.link.map fun link =>
    { s with link := some { link with
      written := link.written ++ [item]
      wire := link.wire ++ (item.line ++ [newline]) } }
  | .deliver count => do
    let link ← s.link
    let t ← EventStream.step parse s.task (.chunk (link.wire.take count))
    return ⟨t, some { link with wire := link.wire.drop count }⟩

/-- The loop from index 0 on. -/
def system (parse : List Char → Option EventStreamFrame) : System (State parse) (Event parse) :=
  ⟨⟨(EventStream.system parse 0).start, none⟩, step⟩

/-- The server sends all the frames from the requested index on, in the order of their indices:
before a frame, those with a smaller index. The receiver stays open. -/
def Honest (frames : Set (ServedFrame parse)) (_ : List (Event parse)) (s : State parse) :
    Event parse → Prop
  | .write (.frame f) => f ∈ frames ∧ ∀ link ∈ s.link, link.requested ≤ f.index ∧
      (∀ g, .frame g ∈ link.written → g.index ≤ f.index) ∧
      ∀ g ∈ frames, link.requested ≤ g.index → g.index < f.index → .frame g ∈ link.written
  | .task .closed => False
  | _ => True

def State.FullySent (s : State parse) (f : ServedFrame parse) : Prop := ∀ e ∈ f.events, e ∈ s.task.sent

/-! ## Lines on a connection -/

variable {buffer wire : List UInt8} {item : Item parse} {items : List (Item parse)}

lemma Item.oneLine (item : Item parse) : newline ∉ item.line := by
  cases item with
  | frame f => exact f.oneLine
  | heartbeat _ oneLine _ => exact oneLine

/-- A complete line in the buffer is the next one that the server wrote. -/
lemma encode_cons {body rest : List UInt8} (free : newline ∉ body)
    (same : body ++ newline :: rest ++ wire = encode items) :
    ∃ item tail, items = item :: tail ∧ item.line = body ∧ rest ++ wire = encode tail := by
  cases items with
  | nil => simp [encode] at same
  | cons item tail =>
    have cut : body ++ newline :: (rest ++ wire) = item.line ++ newline :: encode tail := by
      simpa [encode] using same
    have first := congrArg (List.splitOn newline) cut
    rw [List.splitOn_append_cons_self_of_not_mem free,
      List.splitOn_append_cons_self_of_not_mem item.oneLine] at first
    obtain ⟨rfl, -⟩ := List.cons.inj first
    exact ⟨item, tail, rfl, rfl, List.cons.inj (List.append_cancel_left cut) |>.2⟩

/-! ## What holds on a connection -/

/-- The lines on a connection that the task has handled, and those still to come. -/
structure Linked (frames : Set (ServedFrame parse)) (handled pending : List (Item parse))
    (buffer : List UInt8) (task : EventStream.State) (link : Link parse) : Prop where
  written : link.written = handled ++ pending
  unread : buffer ++ link.wire = encode pending
  resumed : link.requested ≤ task.lastIndex
  from_ : ∀ f, .frame f ∈ link.written → link.requested ≤ f.index
  ordered : ∀ before f rest, link.written = before ++ .frame f :: rest →
    ∀ g ∈ frames, link.requested ≤ g.index → g.index < f.index → .frame g ∈ before
  sent : ∀ f, .frame f ∈ handled → ∀ e ∈ f.events, e ∈ task.sent ++ task.phase.owed

/-- Nothing below the index of the last frame is missing. -/
def Complete (frames : Set (ServedFrame parse)) (task : EventStream.State) : Prop :=
  ∀ f ∈ frames, f.index < task.lastIndex → ∀ e ∈ f.events, e ∈ task.sent

variable {frames : Set (ServedFrame parse)} {handled pending : List (Item parse)}
  {task : EventStream.State} {link : Link parse} {s t : State parse} {h : List (Event parse)}

namespace Linked

lemma write (linked : Linked frames handled pending buffer task link) (item : Item parse)
    (frame : ∀ f, item = .frame f → link.requested ≤ f.index ∧
      ∀ g ∈ frames, link.requested ≤ g.index → g.index < f.index → .frame g ∈ link.written) :
    Linked frames handled (pending ++ [item]) buffer task { link with
      written := link.written ++ [item], wire := link.wire ++ (item.line ++ [newline]) } where
  written := by rw [linked.written, List.append_assoc]
  unread := by
    rw [← List.append_assoc, linked.unread]
    simp [encode]
  resumed := linked.resumed
  from_ := by
    intro f mem
    rcases List.mem_append.mp mem with mem | new
    · exact linked.from_ f mem
    · exact (frame f (List.mem_singleton.mp new).symm).1
  ordered := by
    intro before f rest cut g known later below
    rcases List.eq_nil_or_concat rest with rfl | ⟨init, last, rfl⟩
    · obtain ⟨rfl, new⟩ := List.append_inj' cut rfl
      exact (frame f (List.singleton_inj.mp new)).2 g known later below
    · have cut' : link.written ++ [item] = (before ++ .frame f :: init) ++ [last] := by
        simpa using cut
      obtain ⟨old, -⟩ := List.append_inj' cut' rfl
      exact linked.ordered before f init old g known later below
  sent := linked.sent

lemma deliver (linked : Linked frames handled pending buffer task link) (count : ℕ)
    (unowed : task.phase.owed = []) : Linked frames handled pending
      (buffer ++ link.wire.take count) { task with phase := .draining (buffer ++ link.wire.take count) }
      { link with wire := link.wire.drop count } where
  written := linked.written
  unread := by rw [List.append_assoc, List.take_append_drop, linked.unread]
  resumed := linked.resumed
  from_ := linked.from_
  ordered := linked.ordered
  sent := by
    have sent := linked.sent
    rw [unowed] at sent
    exact sent

/-- The next frame: what comes before it in the order of the indices has been handled. -/
lemma complete_next {f : ServedFrame parse} (linked : Linked frames handled (.frame f :: pending) buffer task link)
    (complete : Complete frames task) (unowed : task.phase.owed = []) :
    ∀ g ∈ frames, g.index < f.index → ∀ e ∈ g.events, e ∈ task.sent := by
  intro g known below
  by_cases later : link.requested ≤ g.index
  · have handled_ := linked.ordered handled f pending linked.written g known later below
    simpa [unowed] using linked.sent g handled_
  · exact complete g known ((Nat.lt_of_not_le later).trans_le linked.resumed)

lemma drain (linked : Linked frames handled pending buffer task link)
    (complete : Complete frames task) (at_ : task.phase = .draining buffer) :
    Complete frames (EventStream.drain parse task buffer) ∧ ∃ handled' pending' buffer',
      (EventStream.drain parse task buffer).phase.buffer? = some buffer' ∧
        Linked frames handled' pending' buffer' (EventStream.drain parse task buffer) link := by
  have unowed : task.phase.owed = [] := by simp [at_, Phase.owed]
  have sent : ∀ f, .frame f ∈ handled → ∀ e ∈ f.events, e ∈ task.sent := by
    simpa [unowed] using linked.sent
  unfold EventStream.drain
  cases taken : takeLine buffer with
  | none =>
    refine ⟨complete, handled, pending, buffer, rfl, ?_⟩
    exact { linked with sent := by simpa [Phase.owed] using sent }
  | some pair =>
    obtain ⟨line, rest⟩ := pair
    obtain ⟨body, free, rfl, rfl⟩ := takeLine_eq_some taken
    obtain ⟨item, tail, rfl, rfl, unread⟩ := encode_cons free linked.unread
    have written : link.written = (handled ++ [item]) ++ tail := by
      rw [linked.written, List.append_assoc, List.singleton_append]
    dsimp only
    rw [readLine_newline]
    cases read : readLine parse item.line with
    | none =>
      refine ⟨complete, handled ++ [item], tail, rest, rfl, ?_⟩
      refine { linked with written, unread, sent := fun f mem => ?_ }
      rcases List.mem_append.mp mem with old | new
      · simpa [Phase.owed] using sent f old
      · obtain rfl := List.mem_singleton.mp new
        have silent : f.events = [] := by
          rw [ServedFrame.events, show readLine parse f.line = none from read, Option.elim_none]
        simp [silent]
    | some frame =>
      cases item with
      | heartbeat line _ silent => exact ((Option.some_ne_none _) (read.symm.trans silent)).elim
      | frame f =>
        have index : frame.index = f.index := f.carries frame read
        have events : f.events = frame.events.map (EventEnvelope.event frame.index) := by
          rw [ServedFrame.events, show readLine parse f.line = some frame from read, Option.elim_some]
          rfl
        refine ⟨?_, handled ++ [.frame f], tail, rest, sendAll_buffer? .., ?_⟩
        · intro g known below
          exact linked.complete_next complete unowed g known (index ▸ below)
        · have mem : Item.frame f ∈ link.written := by simp [linked.written]
          have resumed : link.requested ≤ frame.index := index.symm ▸ linked.from_ f mem
          refine { linked with written, unread, resumed, sent := fun g mem => ?_ }
          rw [sendAll_owed]
          rcases List.mem_append.mp mem with old | new
          · exact fun e here => List.mem_append_left _ (sent g old e here)
          · obtain rfl := Item.frame.inj (List.mem_singleton.mp new)
            intro e here
            exact List.mem_append_right _ (events ▸ here)

lemma send {index : ℕ} {event : EventEnvelope} {events : List EventEnvelope}
    (linked : Linked frames handled pending buffer task link)
    (at_ : task.phase = .sending buffer index (event :: events)) :
    Linked frames handled pending buffer { task with
      phase := .sendAll buffer index events, sent := task.sent ++ [event.event index] } link := by
  refine { linked with sent := fun f mem e here => ?_ }
  rw [sendAll_owed, List.append_assoc]
  simpa [at_, Phase.owed] using linked.sent f mem e here

end Linked

/-! ## What holds over all connections -/

structure Kept (frames : Set (ServedFrame parse)) (s : State parse) : Prop where
  complete : Complete frames s.task
  requested : ∀ i, s.task.phase = .requested i → i = s.task.lastIndex
  linked : ∀ buffer, s.task.phase.buffer? = some buffer →
    ∃ link, s.link = some link ∧ ∃ handled pending, Linked frames handled pending buffer s.task link

/-- A phase outside of a connection, with what was sent before. -/
lemma Kept.outside (kept : Kept frames s) {phase : Phase} (unbuffered : phase.buffer? = none)
    (requested : ∀ i, phase = .requested i → i = s.task.lastIndex) (link : Option (Link parse)) :
    Kept frames ⟨{ s.task with phase := phase }, link⟩ where
  complete := kept.complete
  requested := requested
  linked := fun buffer inside => by
    rw [unbuffered] at inside
    cases inside

lemma Kept.task_step (kept : Kept frames s) {e : EventStream.Event} (taken : step s (.task e) = some t)
    (honest : Honest frames h s (.task e)) : Kept frames t := by
  obtain ⟨⟨phase, lastIndex, sent⟩, link⟩ := s
  cases e with
  | chunk bytes => cases taken
  | closed => exact honest.elim
  | connect =>
    cases phase with
    | idle =>
      obtain rfl := Option.some.inj taken
      exact kept.outside rfl (fun i at_ => (Phase.requested.inj at_).symm) _
    | _ => cases taken
  | accepted =>
    cases phase with
    | requested index =>
      obtain rfl := Option.some.inj taken
      obtain rfl := kept.requested index rfl
      refine ⟨kept.complete, nofun, fun buffer inside => ⟨_, rfl, [], [], ?_⟩⟩
      obtain rfl := Option.some.inj inside
      exact ⟨rfl, rfl, le_rfl, fun f mem => absurd mem List.not_mem_nil,
        fun before f rest cut => by simp at cut, fun f mem => absurd mem List.not_mem_nil⟩
    | _ => cases taken
  | line =>
    cases phase with
    | draining buffer =>
      obtain rfl := Option.some.inj taken
      obtain ⟨link, rfl, handled, pending, linked⟩ := kept.linked buffer rfl
      obtain ⟨complete, handled', pending', buffer', inside, linked'⟩ := linked.drain kept.complete rfl
      refine ⟨complete, fun i at_ => ?_, fun held at_ => ⟨link, rfl, handled', pending', ?_⟩⟩
      · rw [at_] at inside
        cases inside
      · obtain rfl := Option.some.inj (at_.symm.trans inside)
        exact linked'
    | _ => cases taken
  | send =>
    cases phase with
    | sending buffer index events =>
      cases events with
      | nil => cases taken
      | cons event events =>
        obtain rfl := Option.some.inj taken
        obtain ⟨link, rfl, handled, pending, linked⟩ := kept.linked buffer rfl
        refine ⟨fun f known below e here => ?_, fun i at_ => ?_, fun held at_ =>
          ⟨link, rfl, handled, pending, ?_⟩⟩
        · exact List.mem_append_left _ (kept.complete f known below e here)
        · cases events <;> cases at_
        · obtain rfl := Option.some.inj ((sendAll_buffer? index events).symm.trans at_)
          exact linked.send rfl
    | _ => cases taken
  | refused | broken | cancelled | retry =>
    cases phase <;> first
      | (cases taken; done)
      | (obtain rfl := Option.some.inj taken
         exact kept.outside rfl (fun i at_ => by cases at_) _)

lemma Kept.next (kept : Kept frames s) {e : Event parse} (taken : step s e = some t)
    (honest : Honest frames h s e) : Kept frames t := by
  cases e with
  | task e => exact kept.task_step taken honest
  | write item =>
    obtain ⟨link, open_, rfl⟩ := Option.map_eq_some_iff.mp taken
    refine ⟨kept.complete, kept.requested, fun buffer inside => ?_⟩
    obtain ⟨_, same, handled, pending, linked⟩ := kept.linked buffer inside
    obtain rfl := Option.some.inj (open_.symm.trans same)
    refine ⟨_, rfl, handled, pending ++ [item], linked.write item ?_⟩
    rintro f rfl
    obtain ⟨from_, -, before⟩ := honest.2 link open_
    exact ⟨from_, before⟩
  | deliver count =>
    obtain ⟨link, open_, taken⟩ := Option.bind_eq_some_iff.mp taken
    obtain ⟨u, arrives, taken⟩ := Option.bind_eq_some_iff.mp taken
    obtain rfl := Option.some.inj taken
    obtain ⟨⟨phase, lastIndex, sent⟩, link'⟩ := s
    cases phase with
    | reading buffer =>
      obtain rfl := Option.some.inj arrives
      obtain ⟨_, same, handled, pending, linked⟩ := kept.linked buffer rfl
      obtain rfl := Option.some.inj (open_.symm.trans same)
      refine ⟨kept.complete, nofun, fun held inside => ⟨_, rfl, handled, pending, ?_⟩⟩
      obtain rfl := Option.some.inj inside
      exact linked.deliver count rfl
    | _ => cases arrives

lemma kept_of_run (run : RunWhere (system parse) (Honest frames) h s) : Kept frames s := by
  refine run.state_invariant (Kept frames) ?_ fun h s t e kept taken honest => kept.next taken honest
  exact ⟨fun f _ below => absurd below (Nat.not_lt_zero f.index), nofun, nofun⟩

/-- However often the connection breaks, all frames below `last_index` have been sent, and the
frames that have not are among those that the next connection asks for. -/
theorem nothing_lost (parse : List Char → Option EventStreamFrame) (frames : Set (ServedFrame parse))
    (h : List (Event parse)) (s : State parse)
    (run : RunWhere (system parse) (Honest frames) h s) :
    (∀ f ∈ frames, f.index < s.task.lastIndex → s.FullySent f) ∧
      ∀ i, s.task.phase = .requested i → ∀ f ∈ frames, ¬ s.FullySent f → i ≤ f.index := by
  have kept := kept_of_run run
  refine ⟨kept.complete, fun i at_ f known missing => ?_⟩
  rw [kept.requested i at_]
  by_contra below
  exact missing (kept.complete f known (Nat.lt_of_not_le below))

/-! ## A connection that breaks inside a line -/

def shortFrame (index : ℕ) : EventStreamFrame := ⟨[⟨"Allocation", "AllocationUpdated", .null⟩], index⟩

/-- Two frames have one letter each. -/
def shortParse : List Char → Option EventStreamFrame
  | ['a'] => some (shortFrame 1)
  | ['b'] => some (shortFrame 2)
  | _ => none

def frameA : ServedFrame shortParse := ⟨[97], 1, by decide, fun _ read => by cases read; rfl⟩

def frameB : ServedFrame shortParse := ⟨[98], 2, by decide, fun _ read => by cases read; rfl⟩

lemma forall_frames_iff {written : List (Item parse)} {p : ServedFrame parse → Prop} :
    (∀ item ∈ written, ∀ g, item = .frame g → p g) ↔ ∀ g, .frame g ∈ written → p g :=
  ⟨fun all g mem => all _ mem g rfl, fun all _ mem g same => all g (same ▸ mem)⟩

instance (item : Item parse) (p : ServedFrame parse → Prop) [DecidablePred p] :
    Decidable (∀ g, item = .frame g → p g) :=
  match item with
  | .frame f => decidable_of_iff (p f) ⟨fun holds _ same => Item.frame.inj same ▸ holds,
      fun all => all f rfl⟩
  | .heartbeat .. => isTrue nofun

instance (written : List (Item parse)) (p : ServedFrame parse → Prop) [DecidablePred p] :
    Decidable (∀ g, .frame g ∈ written → p g) := decidable_of_iff _ forall_frames_iff

instance (known : List (ServedFrame parse)) (h : List (Event parse)) (s : State parse)
    (e : Event parse) : Decidable (Honest {f | f ∈ known} h s e) := by
  rcases e with e | item | count
  · cases e <;> unfold Honest <;> infer_instance
  · cases item with
    | frame f =>
      exact inferInstanceAs (Decidable (f ∈ known ∧ ∀ link ∈ s.link, link.requested ≤ f.index ∧
        (∀ g, .frame g ∈ link.written → g.index ≤ f.index) ∧
        ∀ g ∈ known, link.requested ≤ g.index → g.index < f.index → .frame g ∈ link.written))
    | heartbeat => exact isTrue trivial
  · exact isTrue trivial

/-- The first connection breaks inside the line of the second frame. -/
theorem frameA_sent : ∃ s : State shortParse, s.task.lastIndex = 2 ∧ s.FullySent frameA := by
  obtain ⟨h, s, run, last⟩ := exists_run (T := system shortParse) (C := Honest {f | f ∈ [frameA, frameB]})
    (fun _ s => s.task.lastIndex = 2)
    ([.task .connect, .task .accepted, .write (.frame frameA), .write (.frame frameB), .deliver 3,
      .task .line, .task .send, .task .line, .task .broken, .task .retry, .task .connect,
      .task .accepted, .write (.frame frameA), .write (.frame frameB), .deliver 4, .task .line,
      .task .send, .task .line])
    (by decide +kernel)
  exact ⟨s, last, (nothing_lost shortParse {f | f ∈ [frameA, frameB]} h s run).1 frameA
    (by simp) (last ▸ (by decide : (1 : ℕ) < 2))⟩

end NScale.EventReconnect
