import NScale.EventReconnect
import NScale.Stutter

/-!
# The frames that are handed on

What the consumer sends to its channel over all connections, compared with the log of the
server: frame by frame in the order of the log, with frames repeated that a connection asked
for again.
-/
namespace NScale.EventReconnect
open Transition Text EventStream Stutter

variable {parse : List Char → Option EventStreamFrame}

/-- What the server has to tell. Each frame has an index of its own. -/
structure Log (parse : List Char → Option EventStreamFrame) where
  frames : List (ServedFrame parse)
  ascending : frames.Pairwise fun f g => f.index < g.index

/-- The consumer can read the frame, and it has events. -/
def ServedFrame.told (f : ServedFrame parse) : Bool := (readLine parse f.line).isSome

/-- The frames of the log that the consumer can read. -/
def Log.told (log : Log parse) : List (ServedFrame parse) := log.frames.filter ServedFrame.told

/-- The frames of the log, for a server that keeps it. -/
abbrev Log.served (log : Log parse) : Set (ServedFrame parse) := {f | f ∈ log.frames}

variable {log : Log parse} {frames : Set (ServedFrame parse)} {fs : List (ServedFrame parse)}
  {f g : ServedFrame parse} {items handled pending handled' pending' : List (Item parse)}
  {buffer : List UInt8} {task : EventStream.State} {link : Link parse} {s t : State parse}
  {h : List (Event parse)}

lemma Log.mem_told : f ∈ log.told ↔ f ∈ log.frames ∧ f.told = true := List.mem_filter

lemma Log.told_ascending (log : Log parse) : log.told.Pairwise fun f g => f.index < g.index :=
  log.ascending.filter _

instance : Std.Irrefl fun f g : ServedFrame parse => f.index < g.index := ⟨fun f => lt_irrefl f.index⟩

/-! ## On a connection -/

lemma count_encode (items : List (Item parse)) : (encode items).count newline = items.length := by
  induction items with
  | nil => rfl
  | cons item items ih =>
    have cons : encode (item :: items) = item.line ++ [newline] ++ encode items := rfl
    have line : item.line.count newline = 0 := List.count_eq_zero.mpr item.oneLine
    rw [cons, List.count_append, List.count_append, line, ih, List.length_cons]
    simp
    omega

/-- Where the task is among the lines of a connection is told by what it has not yet read. -/
lemma Linked.eq_of_unread (linked : Linked frames handled pending buffer task link)
    (written : link.written = handled' ++ pending') (unread : buffer ++ link.wire = encode pending') :
    handled = handled' ∧ pending = pending' := by
  have length : pending.length = pending'.length := by
    rw [← count_encode, ← linked.unread, unread, count_encode]
  exact List.append_inj' (linked.written.symm.trans written) length

/-- The lines on a connection, with the frames `fs` that were handed on over all connections. -/
structure Relayed (log : Log parse) (fs : List (ServedFrame parse)) (handled pending : List (Item parse))
    (buffer : List UInt8) (task : EventStream.State) (link : Link parse) : Prop
    extends Linked log.served handled pending buffer task link where
  known : ∀ f, .frame f ∈ link.written → f ∈ log.frames
  sorted : ∀ before f rest, link.written = before ++ .frame f :: rest →
    ∀ g, .frame g ∈ before → g.index ≤ f.index
  reached : task.lastIndex = link.requested ∨ ∃ g, .frame g ∈ link.written ∧ g.index = task.lastIndex
  ahead : ∀ f, .frame f ∈ pending → task.lastIndex ≤ f.index
  caught : ∀ f, .frame f ∈ handled → f.told = true → f ∈ fs

namespace Relayed

lemma write (relayed : Relayed log fs handled pending buffer task link) (item : Item parse)
    (frame : ∀ f, item = .frame f → f ∈ log.frames ∧ link.requested ≤ f.index ∧
      (∀ g, .frame g ∈ link.written → g.index ≤ f.index) ∧
      ∀ g ∈ log.served, link.requested ≤ g.index → g.index < f.index → .frame g ∈ link.written) :
    Relayed log fs handled (pending ++ [item]) buffer task { link with
      written := link.written ++ [item], wire := link.wire ++ (item.line ++ [newline]) } where
  toLinked := relayed.toLinked.write item fun f same => ⟨(frame f same).2.1, (frame f same).2.2.2⟩
  known := by
    intro f mem
    rcases List.mem_append.mp mem with old | new
    · exact relayed.known f old
    · exact (frame f (List.mem_singleton.mp new).symm).1
  sorted := by
    intro before f rest cut g mem
    rcases List.eq_nil_or_concat rest with rfl | ⟨init, last, rfl⟩
    · obtain ⟨rfl, new⟩ := List.append_inj' cut rfl
      exact (frame f (List.singleton_inj.mp new)).2.2.1 g mem
    · have cut' : link.written ++ [item] = (before ++ .frame f :: init) ++ [last] := by
        simpa using cut
      obtain ⟨old, -⟩ := List.append_inj' cut' rfl
      exact relayed.sorted before f init old g mem
  reached := relayed.reached.imp id fun ⟨g, mem, same⟩ => ⟨g, List.mem_append_left _ mem, same⟩
  ahead := by
    intro f mem
    rcases List.mem_append.mp mem with old | new
    · exact relayed.ahead f old
    · obtain ⟨-, from_, after, -⟩ := frame f (List.mem_singleton.mp new).symm
      rcases relayed.reached with same | ⟨g, written, same⟩
      · exact same.le.trans from_
      · exact same.ge.trans (after g written)
  caught := relayed.caught

lemma deliver (relayed : Relayed log fs handled pending buffer task link) (count : ℕ)
    (unowed : task.phase.owed = []) : Relayed log fs handled pending
      (buffer ++ link.wire.take count) { task with phase := .draining (buffer ++ link.wire.take count) }
      { link with wire := link.wire.drop count } where
  toLinked := relayed.toLinked.deliver count unowed
  known := relayed.known
  sorted := relayed.sorted
  reached := relayed.reached
  ahead := relayed.ahead
  caught := relayed.caught

end Relayed

/-! ## A line of the buffer -/

/-- The frames `fs` were handed on: an initial part of the log, with repetitions. -/
structure Handed (log : Log parse) (fs : List (ServedFrame parse)) (task : EventStream.State) : Prop where
  sent : task.sent ++ task.phase.owed = fs.flatMap ServedFrame.events
  part : fs.destutter (· ≠ ·) <+: log.told
  last : task.lastIndex = fs.getLast?.elim 0 ServedFrame.index

namespace Handed

lemma below (handed : Handed log fs task) (mem : g ∈ log.told) (below : g.index < task.lastIndex) :
    g ∈ fs := by
  rw [handed.last] at below
  cases last : fs.getLast? with
  | none => simp [last] at below
  | some f =>
    rw [last, Option.elim_some] at below
    exact mem_of_prefix handed.part log.told_ascending mem last below.asymm

/-- The next frame on the connection is the last one again, or the next one of the log. -/
lemma next (handed : Handed log fs task)
    (relayed : Relayed log fs handled (.frame f :: pending) buffer task link) (told : f.told = true) :
    (fs ++ [f]).destutter (· ≠ ·) <+: log.told := by
  have mem : f ∈ log.frames := relayed.known f (by simp [relayed.written])
  refine destutter_concat_prefix handed.part log.told_ascending (Log.mem_told.mpr ⟨mem, told⟩) ?_ ?_
  · intro g last
    have ahead : task.lastIndex ≤ f.index := relayed.ahead f List.mem_cons_self
    rw [handed.last, last, Option.elim_some] at ahead
    omega
  · intro g known below
    obtain ⟨mem, told⟩ := Log.mem_told.mp known
    by_cases later : link.requested ≤ g.index
    · exact relayed.caught g (relayed.ordered handled f pending relayed.written g mem later below) told
    · exact handed.below known (by have := relayed.resumed; omega)

end Handed

lemma Relayed.drain (relayed : Relayed log fs handled pending buffer task link)
    (handed : Handed log fs task) (complete : Complete log.served task)
    (at_ : task.phase = .draining buffer) :
    ∃ fs', Handed log fs' (EventStream.drain parse task buffer) ∧ ∃ handled' pending' buffer',
      (EventStream.drain parse task buffer).phase.buffer? = some buffer' ∧
        Relayed log fs' handled' pending' buffer' (EventStream.drain parse task buffer) link := by
  obtain ⟨-, handled', pending', buffer', inside, linked'⟩ := relayed.toLinked.drain complete at_
  have sent : task.sent = fs.flatMap ServedFrame.events := by simpa [at_, Phase.owed] using handed.sent
  cases taken : takeLine buffer with
  | none =>
    have drained : EventStream.drain parse task buffer = { task with phase := .reading buffer } := by
      simp [EventStream.drain, taken]
    rw [drained] at inside linked' ⊢
    obtain rfl : buffer = buffer' := Option.some.inj inside
    obtain ⟨rfl, rfl⟩ := linked'.eq_of_unread relayed.written relayed.unread
    exact ⟨fs, ⟨by simpa [Phase.owed] using sent, handed.part, handed.last⟩, _, _, buffer, rfl,
      { linked', relayed with }⟩
  | some pair =>
    obtain ⟨line, rest⟩ := pair
    obtain ⟨body, free, rfl, rfl⟩ := takeLine_eq_some taken
    obtain ⟨item, tail, rfl, rfl, unread⟩ := encode_cons free relayed.unread
    have written : link.written = (handled ++ [item]) ++ tail := by
      rw [relayed.written, List.append_assoc, List.singleton_append]
    cases read : readLine parse item.line with
    | none =>
      have drained : EventStream.drain parse task (item.line ++ newline :: rest) =
          { task with phase := .draining rest } := by
        simp [EventStream.drain, taken, readLine_newline, read]
      rw [drained] at inside linked' ⊢
      obtain rfl : rest = buffer' := Option.some.inj inside
      obtain ⟨rfl, rfl⟩ := linked'.eq_of_unread written unread
      refine ⟨fs, ⟨by simpa [Phase.owed] using sent, handed.part, handed.last⟩, _, _, rest, rfl,
        { linked', relayed with ahead := fun f mem => relayed.ahead f (List.mem_cons_of_mem _ mem), caught := ?_ }⟩
      intro f mem told
      rcases List.mem_append.mp mem with old | new
      · exact relayed.caught f old told
      · obtain rfl := List.mem_singleton.mp new
        have silent : readLine parse f.line = none := read
        simp [ServedFrame.told, silent] at told
    | some frame =>
      have drained : EventStream.drain parse task (item.line ++ newline :: rest) =
          { task with phase := .sendAll rest frame.index frame.events, lastIndex := frame.index } := by
        simp [EventStream.drain, taken, readLine_newline, read]
      rw [drained] at inside linked' ⊢
      cases item with
      | heartbeat line _ silent => exact ((Option.some_ne_none _) (read.symm.trans silent)).elim
      | frame f =>
        have reads : readLine parse f.line = some frame := read
        have told : f.told = true := by simp [ServedFrame.told, reads]
        have index : frame.index = f.index := f.carries frame reads
        have events : f.events = frame.events.map (EventEnvelope.event frame.index) := by
          simp [ServedFrame.events, reads, EventStreamFrame.nomadEvents]
        obtain rfl : rest = buffer' := Option.some.inj ((sendAll_buffer? ..).symm.trans inside)
        obtain ⟨rfl, rfl⟩ := linked'.eq_of_unread written unread
        refine ⟨fs ++ [f], ⟨?_, handed.next relayed told, ?_⟩, _, _, rest, sendAll_buffer? ..,
          { linked', relayed with reached := ?_, ahead := ?_, caught := ?_ }⟩
        · rw [sendAll_owed, sent, List.flatMap_append, List.flatMap_singleton, events]
        · rw [List.getLast?_concat, Option.elim_some, index]
        · exact .inr ⟨f, by simp [relayed.written], index.symm⟩
        · intro g mem
          obtain ⟨before, after, split⟩ := List.append_of_mem mem
          have here : link.written = (handled ++ .frame f :: before) ++ .frame g :: after := by
            rw [relayed.written, split]
            simp
          rw [index]
          exact relayed.sorted _ g after here f (by simp)
        · intro g mem told'
          rcases List.mem_append.mp mem with old | new
          · exact List.mem_append_left _ (relayed.caught g old told')
          · obtain rfl := Item.frame.inj (List.mem_singleton.mp new)
            exact List.mem_append_right _ (List.mem_singleton_self g)

/-! ## Over all connections -/

structure Relay (log : Log parse) (fs : List (ServedFrame parse)) (s : State parse) : Prop
    extends Handed log fs s.task where
  linked : ∀ buffer, s.task.phase.buffer? = some buffer →
    ∃ link, s.link = some link ∧ ∃ handled pending, Relayed log fs handled pending buffer s.task link

namespace Relay

/-- A phase outside of a connection. -/
lemma outside (relay : Relay log fs s) {phase : Phase} (unbuffered : phase.buffer? = none)
    (owed : phase.owed = s.task.phase.owed) (link : Option (Link parse)) :
    Relay log fs ⟨{ s.task with phase := phase }, link⟩ where
  sent := by
    rw [owed]
    exact relay.sent
  part := relay.part
  last := relay.last
  linked := fun buffer inside => by
    rw [unbuffered] at inside
    cases inside

lemma task_step (relay : Relay log fs s) (kept : Kept log.served s) {e : EventStream.Event}
    (taken : step s (.task e) = some t) (honest : Honest log.served h s (.task e)) :
    ∃ fs', Relay log fs' t := by
  obtain ⟨⟨phase, lastIndex, sent⟩, link⟩ := s
  cases e with
  | chunk bytes => cases taken
  | closed => exact honest.elim
  | accepted =>
    cases phase with
    | requested index =>
      obtain rfl := Option.some.inj taken
      obtain rfl := kept.requested index rfl
      refine ⟨fs, ⟨relay.sent, relay.part, relay.last⟩, fun buffer inside => ⟨_, rfl, [], [], ?_⟩⟩
      obtain rfl := Option.some.inj inside
      exact ⟨⟨rfl, rfl, le_rfl, fun f mem => absurd mem List.not_mem_nil,
        fun before f rest cut => by simp at cut, fun f mem => absurd mem List.not_mem_nil⟩,
        fun f mem => absurd mem List.not_mem_nil, fun before f rest cut => by simp at cut,
        .inl rfl, fun f mem => absurd mem List.not_mem_nil, fun f mem => absurd mem List.not_mem_nil⟩
    | _ => cases taken
  | line =>
    cases phase with
    | draining buffer =>
      obtain rfl := Option.some.inj taken
      obtain ⟨link, rfl, handled, pending, relayed⟩ := relay.linked buffer rfl
      obtain ⟨fs', handed, handled', pending', buffer', inside, relayed'⟩ :=
        relayed.drain relay.toHanded kept.complete rfl
      refine ⟨fs', handed, fun held at_ => ⟨link, rfl, handled', pending', ?_⟩⟩
      obtain rfl := Option.some.inj (at_.symm.trans inside)
      exact relayed'
    | _ => cases taken
  | send =>
    cases phase with
    | sending buffer index events =>
      cases events with
      | nil => cases taken
      | cons event events =>
        obtain rfl := Option.some.inj taken
        obtain ⟨link, rfl, handled, pending, relayed⟩ := relay.linked buffer rfl
        refine ⟨fs, ⟨?_, relay.part, relay.last⟩, fun held at_ => ⟨link, rfl, handled, pending, ?_⟩⟩
        · rw [sendAll_owed, ← relay.sent, List.append_assoc]
          rfl
        · obtain rfl := Option.some.inj ((sendAll_buffer? index events).symm.trans at_)
          exact { relayed.toLinked.send rfl, relayed with }
    | _ => cases taken
  | connect | refused | broken | cancelled | retry =>
    cases phase <;> first
      | (cases taken; done)
      | (obtain rfl := Option.some.inj taken
         refine ⟨fs, relay.outside ?_ ?_ _⟩ <;> rfl)

theorem next (relay : Relay log fs s) (kept : Kept log.served s) {e : Event parse}
    (taken : step s e = some t) (honest : Honest log.served h s e) : ∃ fs', Relay log fs' t := by
  cases e with
  | task e => exact relay.task_step kept taken honest
  | write item =>
    obtain ⟨link, open_, rfl⟩ := Option.map_eq_some_iff.mp taken
    refine ⟨fs, relay.toHanded, fun buffer inside => ?_⟩
    obtain ⟨_, same, handled, pending, relayed⟩ := relay.linked buffer inside
    obtain rfl := Option.some.inj (open_.symm.trans same)
    refine ⟨_, rfl, handled, pending ++ [item], relayed.write item ?_⟩
    rintro f rfl
    exact ⟨honest.1, honest.2 link open_⟩
  | deliver count =>
    obtain ⟨link, open_, taken⟩ := Option.bind_eq_some_iff.mp taken
    obtain ⟨u, arrives, taken⟩ := Option.bind_eq_some_iff.mp taken
    obtain rfl := Option.some.inj taken
    obtain ⟨⟨phase, lastIndex, sent⟩, link'⟩ := s
    cases phase with
    | reading buffer =>
      obtain rfl := Option.some.inj arrives
      obtain ⟨_, same, handled, pending, relayed⟩ := relay.linked buffer rfl
      obtain rfl := Option.some.inj (open_.symm.trans same)
      refine ⟨fs, ⟨relay.sent, relay.part, relay.last⟩, fun held inside => ⟨_, rfl, handled, pending, ?_⟩⟩
      obtain rfl := Option.some.inj inside
      exact relayed.deliver count rfl
    | _ => cases arrives

/-- When the server has written all that was asked for, and all lines have been read, the log has
been handed on to its end. -/
theorem complete (relay : Relay log fs s) (open_ : s.link = some link)
    (reads : s.task.phase = .reading buffer) (unread : newline ∉ buffer ++ link.wire)
    (written : ∀ f ∈ log.frames, link.requested ≤ f.index → .frame f ∈ link.written) :
    fs.destutter (· ≠ ·) = log.told := by
  obtain ⟨link', same, handled, pending, relayed⟩ := relay.linked buffer (by rw [reads]; rfl)
  obtain rfl := Option.some.inj (open_.symm.trans same)
  have none_ : pending = [] := by
    rw [← List.length_eq_zero_iff, ← count_encode, ← relayed.unread]
    exact List.count_eq_zero.mpr unread
  refine prefix_eq relay.part log.told_ascending fun f mem => mem_destutter.mpr ?_
  obtain ⟨known, told⟩ := Log.mem_told.mp mem
  by_cases asked : link.requested ≤ f.index
  · have here := written f known asked
    rw [relayed.written, none_, List.append_nil] at here
    exact relayed.caught f here told
  · exact relay.below mem (by have := relayed.resumed; omega)

end Relay

/-- In every run the frames that were handed on are an initial part of the log. -/
theorem relay_of_run (run : RunWhere (system parse) (Honest log.served) h s) : ∃ fs, Relay log fs s := by
  refine run.invariant (fun _ s => ∃ fs, Relay log fs s) ?_ ?_
  · exact ⟨[], ⟨rfl, List.nil_prefix, rfl⟩, nofun⟩
  · rintro h s t e prior ⟨fs, relay⟩ taken honest
    exact relay.next (kept_of_run prior) taken honest

end NScale.EventReconnect
