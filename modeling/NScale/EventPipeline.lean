import NScale.Channel
import NScale.EventLog
import NScale.EventProcessor

/-!
# From the event stream to the processor

`start_event_stream` and `EventProcessor::run` with the channel between them. The processor
performs the operations of its handler one at a time, whatever their answers are. The consumer
waits while the channel is full, and the processor ends when the consumer has ended and the
channel is empty.
-/
namespace NScale.EventPipeline
open Transition Text EventStream EventReconnect Service

/-- `mpsc::channel(256)`. -/
abbrev capacity : ℕ := 256

/-- What the processor reads of an event that it receives. -/
def read (event : EventStream.NomadEvent) : EventProcessor.NomadEvent := ⟨event.topic, event.payload⟩

inductive Processor
  | receiving
  | handling (event : EventStream.NomadEvent) (code : Code (Result Unit))
  | stopped

/-- The event that is being handled. -/
def Processor.current : Processor → List EventStream.NomadEvent
  | .handling event _ => [event]
  | _ => []

variable {parse : List Char → Option EventStreamFrame}

/-- The events that have been handled to the end are kept, oldest first. -/
structure State (parse : List Char → Option EventStreamFrame) where
  stream : EventReconnect.State parse
  channel : Channel EventStream.NomadEvent capacity
  processor : Processor
  handled : List EventStream.NomadEvent

inductive Event (parse : List Char → Option EventStreamFrame)
  | stream (e : EventReconnect.Event parse)
  | receive
  | answer (op : Op) (a : op.Answer)
  | finish
  | stop

/-- The consumer sends the next event of its frame, when the channel has room. -/
def State.send (s : State parse) : Option (State parse) := do
  let event ← s.stream.task.phase.owed.head?
  let channel ← s.channel.send event
  let stream ← EventReconnect.step s.stream (.task .send)
  return { s with stream, channel }

def State.moveStream (s : State parse) (e : EventReconnect.Event parse) : Option (State parse) :=
  (EventReconnect.step s.stream e).map fun stream => { s with stream }

def step (cfg : Config) (s : State parse) : Event parse → Option (State parse)
  | .stream (.task .send) => s.send
  -- the receiver is dropped when `run` returns
  | .stream (.task .closed) =>
    match s.processor with
    | .stopped => s.moveStream (.task .closed)
    | _ => none
  | .stream e => s.moveStream e
  | .receive =>
    match s.processor with
    | .receiving => s.channel.receive.map fun (event, channel) => { s with
        channel, processor := .handling event (EventProcessor.handleEvent cfg (read event)) }
    | _ => none
  | .answer op a =>
    match s.processor with
    | .handling event code =>
      (code.answered? op a).map fun code => { s with processor := .handling event code }
    | _ => none
  -- an error is only logged
  | .finish =>
    match s.processor with
    | .handling event (.pure _) =>
      some { s with processor := .receiving, handled := s.handled ++ [event] }
    | _ => none
  -- `recv` returns nothing when the sender is dropped and the channel is empty
  | .stop =>
    match s.processor, s.stream.task.phase, s.channel.queue with
    | .receiving, .ended, [] => some { s with processor := .stopped }
    | _, _, _ => none

def system (cfg : Config) (parse : List Char → Option EventStreamFrame) :
    System (State parse) (Event parse) :=
  ⟨⟨(EventReconnect.system parse).start, .empty, .receiving, []⟩, step cfg⟩

/-- The server of a log writes its frames on a connection as it should. -/
def Served (log : Log parse) (_ : List (Event parse)) (s : State parse) : Event parse → Prop
  | .stream (.write item) => Honest log.served [] s.stream (.write item)
  | _ => True

def Event.stream? : Event parse → Option (EventReconnect.Event parse)
  | .stream e => some e
  | _ => none

/-- What the stream has done, newest first. -/
def streamOf (h : List (Event parse)) : List (EventReconnect.Event parse) := h.filterMap Event.stream?

variable {cfg : Config} {log : Log parse} {s t : State parse} {u v : EventReconnect.State parse}
  {h : List (Event parse)} {e : EventReconnect.Event parse}

/-! ## What a step of the stream does -/

lemma step_send (taken : EventReconnect.step u (.task .send) = some v) :
    ∃ event, u.task.phase.owed.head? = some event ∧ v.task.sent = u.task.sent ++ [event] := by
  obtain ⟨⟨phase, lastIndex, sent⟩, link⟩ := u
  cases phase with
  | sending buffer index events =>
    cases events with
    | nil => cases taken
    | cons event events =>
      obtain rfl := Option.some.inj taken
      exact ⟨_, rfl, rfl⟩
  | _ => cases taken

lemma step_sent (taken : EventReconnect.step u e = some v) (unsent : e ≠ .task .send) :
    v.task.sent = u.task.sent := by
  obtain ⟨⟨phase, lastIndex, sent⟩, link⟩ := u
  cases e with
  | task e =>
    cases e with
    | send => exact absurd rfl unsent
    | line =>
      cases phase with
      | draining buffer =>
        obtain rfl := Option.some.inj taken
        simp only [drain]
        split
        · rfl
        · split <;> rfl
      | _ => cases taken
    | _ => cases phase <;> first | (cases taken; done) | (obtain rfl := Option.some.inj taken; rfl)
  | write item =>
    obtain ⟨link, -, rfl⟩ := Option.map_eq_some_iff.mp taken
    rfl
  | deliver count =>
    obtain ⟨link, -, taken⟩ := Option.bind_eq_some_iff.mp taken
    obtain ⟨w, arrives, taken⟩ := Option.bind_eq_some_iff.mp taken
    obtain rfl := Option.some.inj taken
    cases phase with
    | reading buffer =>
      obtain rfl := Option.some.inj arrives
      rfl
    | _ => cases arrives

lemma step_ended (taken : EventReconnect.step u e = some v) (ended : u.task.phase = .ended) :
    v.task = u.task := by
  obtain ⟨⟨phase, lastIndex, sent⟩, link⟩ := u
  obtain rfl : phase = .ended := ended
  cases e with
  | task e => cases e <;> cases taken
  | write item =>
    obtain ⟨link, -, rfl⟩ := Option.map_eq_some_iff.mp taken
    rfl
  | deliver count =>
    obtain ⟨link, -, taken⟩ := Option.bind_eq_some_iff.mp taken
    obtain ⟨w, arrives, -⟩ := Option.bind_eq_some_iff.mp taken
    cases arrives

/-- What is sent goes into the channel, and the receiver is dropped after the end only. -/
structure Moved (s : State parse) (e : EventReconnect.Event parse) (t : State parse) : Prop where
  taken : EventReconnect.step s.stream e = some t.stream
  processor : t.processor = s.processor
  handled : t.handled = s.handled
  sends : ∃ events, t.stream.task.sent = s.stream.task.sent ++ events ∧
    t.channel.queue = s.channel.queue ++ events
  dropped : e = .task .closed → s.processor = .stopped

lemma moved_of_moveStream (taken : s.moveStream e = some t) (unsent : e ≠ .task .send)
    (dropped : e = .task .closed → s.processor = .stopped) : Moved s e t := by
  obtain ⟨v, next, rfl⟩ := Option.map_eq_some_iff.mp taken
  exact ⟨next, rfl, rfl, ⟨[], by simpa using step_sent next unsent, by simp⟩, dropped⟩

lemma moved_of_send (taken : s.send = some t) : Moved s (.task .send) t := by
  obtain ⟨event, next, taken⟩ := Option.bind_eq_some_iff.mp taken
  obtain ⟨channel, fits, taken⟩ := Option.bind_eq_some_iff.mp taken
  obtain ⟨v, moves, taken⟩ := Option.bind_eq_some_iff.mp taken
  obtain rfl := Option.some.inj taken
  obtain ⟨event', next', sent⟩ := step_send moves
  obtain rfl := Option.some.inj (next.symm.trans next')
  exact ⟨moves, rfl, rfl, ⟨[event], sent, Channel.send_queue fits⟩, nofun⟩

lemma moved_of_step (taken : step cfg s (.stream e) = some t) : Moved s e t := by
  cases e with
  | task e =>
    cases e with
    | send => exact moved_of_send taken
    | closed =>
      simp only [step] at taken
      split at taken
      · next stopped => exact moved_of_moveStream taken nofun fun _ => stopped
      · cases taken
    | _ => exact moved_of_moveStream taken nofun nofun
  | _ => exact moved_of_moveStream taken nofun nofun

/-! ## What holds of the pipeline -/

/-- Nothing is lost, repeated or put out of order on the way, and the processor goes on for as long
as the consumer does. -/
structure Piped (s : State parse) : Prop where
  order : s.handled ++ s.processor.current ++ s.channel.queue = s.stream.task.sent
  stopped : s.processor = .stopped → s.stream.task.phase = .ended ∧ s.channel.queue = []

lemma Piped.moved (piped : Piped s) (moved : Moved s e t) : Piped t where
  order := by
    obtain ⟨events, sent, queue⟩ := moved.sends
    rw [sent, queue, moved.handled, moved.processor, ← piped.order, List.append_assoc _ _ events]
  stopped := by
    intro stopped
    obtain ⟨ended, empty⟩ := piped.stopped (moved.processor ▸ stopped)
    have same : t.stream.task = s.stream.task := step_ended moved.taken ended
    obtain ⟨events, sent, queue⟩ := moved.sends
    have none_ : events = [] := by simpa [same] using sent
    exact ⟨same ▸ ended, by rw [queue, empty, none_, List.append_nil]⟩

theorem Piped.next (piped : Piped s) {e : Event parse} (taken : step cfg s e = some t) : Piped t := by
  cases e with
  | stream e => exact piped.moved (moved_of_step taken)
  | receive =>
    simp only [step] at taken
    split at taken
    · next receiving =>
      obtain ⟨⟨event, channel⟩, received, rfl⟩ := Option.map_eq_some_iff.mp taken
      have order := piped.order
      rw [receiving, Channel.receive_queue received] at order
      exact ⟨by simpa [Processor.current] using order, nofun⟩
    · cases taken
  | answer op a =>
    simp only [step] at taken
    split at taken
    · next event code handling =>
      obtain ⟨code', -, rfl⟩ := Option.map_eq_some_iff.mp taken
      have order := piped.order
      rw [handling] at order
      exact ⟨order, nofun⟩
    · cases taken
  | finish =>
    simp only [step] at taken
    split at taken
    · next event result handling =>
      obtain rfl := Option.some.inj taken
      have order := piped.order
      rw [handling] at order
      exact ⟨by simpa [Processor.current] using order, nofun⟩
    · cases taken
  | stop =>
    simp only [step] at taken
    split at taken
    · next receiving ended empty =>
      obtain rfl := Option.some.inj taken
      have order := piped.order
      rw [receiving] at order
      exact ⟨order, fun _ => ⟨ended, empty⟩⟩
    · cases taken

/-- The processor leaves the stream alone. -/
lemma stream_of_step {e : Event parse} (taken : step cfg s e = some t) (other : e.stream? = none) :
    t.stream = s.stream := by
  cases e with
  | stream e => cases other
  | receive | answer =>
    simp only [step] at taken
    split at taken
    · obtain ⟨_, -, rfl⟩ := Option.map_eq_some_iff.mp taken
      rfl
    · cases taken
  | finish | stop =>
    simp only [step] at taken
    split at taken
    · obtain rfl := Option.some.inj taken
      rfl
    · cases taken

/-- A consumer that sends finds the receiver there. -/
lemma Piped.open_ (piped : Piped s) (taken : step cfg s (.stream (.task .closed)) = some t) : False := by
  have moved := moved_of_step taken
  have ended := (piped.stopped (moved.dropped rfl)).1
  have closes := moved.taken
  obtain ⟨⟨⟨phase, lastIndex, sent⟩, link⟩, channel, processor, handled⟩ := s
  obtain rfl : phase = .ended := ended
  cases closes

/-- The stream of the pipeline runs as it does alone, with a receiver that stays open. -/
theorem stream_of_run (run : RunWhere (system cfg parse) (Served log) h s) :
    RunWhere (EventReconnect.system parse) (Honest log.served) (streamOf h) s.stream ∧ Piped s := by
  refine run.invariant (fun h s => RunWhere (EventReconnect.system parse) (Honest log.served)
    (streamOf h) s.stream ∧ Piped s) ⟨.nil, rfl, fun stopped => by cases stopped⟩ ?_
  rintro h s t e _ ⟨stream, piped⟩ taken served
  replace taken : step cfg s e = some t := taken
  refine ⟨?_, piped.next taken⟩
  cases e with
  | stream e =>
    refine stream.step (moved_of_step taken).taken ?_
    cases e with
    | task e =>
      cases e with
      | closed => exact piped.open_ taken
      | _ => trivial
    | write item =>
      cases item with
      | frame f => exact served
      | heartbeat => trivial
    | deliver count => trivial
  | receive | answer | finish | stop =>
    have same : t.stream = s.stream := stream_of_step taken rfl
    rw [same]
    exact stream

instance (log : Log parse) (h : List (Event parse)) (s : State parse) (e : Event parse) :
    Decidable (Served log h s e) :=
  match e with
  | .stream (.write item) => inferInstanceAs (Decidable (Honest log.served [] s.stream (.write item)))
  | .stream (.task _) | .stream (.deliver _) => isTrue trivial
  | .receive | .answer .. | .finish | .stop => isTrue trivial

def shortLog : Log shortParse := ⟨[frameA, frameB], by decide⟩

/-- The first frame is sent and handled, and then the connection breaks. -/
def brokenOnce : List (Event shortParse) :=
  [.stream (.task .connect), .stream (.task .accepted), .stream (.write (.frame frameA)),
    .stream (.write (.frame frameB)), .stream (.deliver 3), .stream (.task .line),
    .stream (.task .send), .receive, .finish, .stream (.task .line), .stream (.task .broken)]

/-- The second connection sends both frames. -/
def servedAgain : List (Event shortParse) := brokenOnce ++
  [.stream (.task .retry), .stream (.task .connect), .stream (.task .accepted),
    .stream (.write (.frame frameA)), .stream (.write (.frame frameB)), .stream (.deliver 4),
    .stream (.task .line), .stream (.task .send), .stream (.task .line), .stream (.task .send),
    .receive, .finish, .receive, .finish]

/-- Steps of the two tasks alone, while the server writes nothing more. -/
def Alone (_ : List (Event parse)) (_ : State parse) : Event parse → Prop
  | .stream (.write _) | .stream (.deliver _) => False
  | _ => True

/-- The processor waits at an empty channel. -/
structure Idle (s : State parse) : Prop where
  receiving : s.processor = .receiving
  empty : s.channel.queue = []

section Alone
variable {h₀ : List (Event parse)} {s₀ : State parse}

abbrev RunAlone (cfg : Config) (h₀ : List (Event parse)) (s₀ : State parse) (h : List (Event parse))
    (s : State parse) : Prop := RunFrom (system cfg parse) Alone h₀ s₀ h s

lemma extend {e : Event parse} (run : RunAlone cfg h₀ s₀ h s) (taken : step cfg s e = some t)
    (own : Alone h s e) : RunAlone cfg h₀ s₀ (e :: h) t := RunFrom.step run taken own

/-- The handler returns, since every operation is answered. -/
lemma finishes {event : EventStream.NomadEvent} {code : Code (Result Unit)}
    (run : RunAlone cfg h₀ s₀ h s) (handling : s.processor = .handling event code) :
    ∃ h' t, RunAlone cfg h₀ s₀ h' t ∧ t.stream = s.stream ∧ t.channel = s.channel ∧
      t.processor = .receiving := by
  induction code generalizing h s with
  | pure result =>
    have ends : step cfg s .finish =
        some { s with processor := .receiving, handled := s.handled ++ [event] } := by
      simp only [step, handling]
    have next := extend (e := .finish) run ends trivial
    exact ⟨_, _, next, rfl, rfl, rfl⟩
  | perform op next ih =>
    have goes : step cfg s (.answer op default) =
        some { s with processor := .handling event (next default) } := by
      simp [step, handling, Program.answered?]
    have next := extend (e := .answer op default) run goes trivial
    obtain ⟨h', t, run', stream, channel, receiving⟩ := ih default next rfl
    exact ⟨h', t, run', stream, channel, receiving⟩

lemma empties (run : RunAlone cfg h₀ s₀ h s) (receiving : s.processor = .receiving) :
    ∃ h' t, RunAlone cfg h₀ s₀ h' t ∧ t.stream = s.stream ∧ Idle t := by
  induction holds : s.channel.queue generalizing h s with
  | nil => exact ⟨h, s, run, rfl, receiving, holds⟩
  | cons event queue ih =>
    obtain ⟨channel, received, rest⟩ := Channel.exists_receive holds
    have takes : step cfg s .receive = some { s with
        channel, processor := .handling event (EventProcessor.handleEvent cfg (read event)) } := by
      simp only [step, receiving, received, Option.map_some]
    obtain ⟨h', t, run', stream, same, receiving'⟩ := finishes (extend run takes trivial) rfl
    obtain ⟨h'', u, run'', stream', idle⟩ := ih run' receiving' (by rw [same, rest])
    exact ⟨h'', u, run'', stream'.trans stream, idle⟩

lemma settles (run : RunAlone cfg h₀ s₀ h s) (alive : s.processor ≠ .stopped) :
    ∃ h' t, RunAlone cfg h₀ s₀ h' t ∧ t.stream = s.stream ∧ Idle t := by
  cases at_ : s.processor with
  | receiving => exact empties run at_
  | stopped => exact absurd at_ alive
  | handling event code =>
    obtain ⟨h', t, run', stream, -, receiving⟩ := finishes run at_
    obtain ⟨h'', u, run'', stream', idle⟩ := empties run' receiving
    exact ⟨h'', u, run'', stream'.trans stream, idle⟩

lemma step_task {e : EventStream.Event} (unread : e.chunk? = none) (u : EventReconnect.State parse) :
    EventReconnect.step u (.task e) =
      (EventStream.step parse u.task e).map fun t => ⟨t, u.linkAfter e⟩ := by
  cases e <;> first | rfl | cases unread

/-- At an empty channel the consumer is free to do what it does alone. -/
lemma moves {e : EventStream.Event} {task : EventStream.State} (run : RunAlone cfg h₀ s₀ h s)
    (idle : Idle s) (taken : EventStream.step parse s.stream.task e = some task)
    (unread : e.chunk? = none) (open_ : e ≠ .closed) :
    ∃ h' t, RunAlone cfg h₀ s₀ h' t ∧ t.stream.task = task ∧ Idle t := by
  have goes : EventReconnect.step s.stream (.task e) = some ⟨task, s.stream.linkAfter e⟩ := by
    rw [step_task unread, taken, Option.map_some]
  by_cases send : e = .send
  · subst send
    obtain ⟨event, next, -⟩ := step_send goes
    obtain ⟨channel, fits⟩ := Channel.exists_send (a := event)
      (show s.channel.queue.length < capacity by rw [idle.empty]; decide)
    have sends : step cfg s (.stream (.task .send)) =
        some { s with stream := ⟨task, s.stream.linkAfter .send⟩, channel } := by
      simp [step, State.send, next, fits, goes]
    obtain ⟨h', t, run', stream, idle'⟩ := empties (extend run sends trivial) idle.receiving
    exact ⟨h', t, run', congrArg EventReconnect.State.task stream, idle'⟩
  · have moves : step cfg s (.stream (.task e)) =
        some { s with stream := ⟨task, s.stream.linkAfter e⟩ } := by
      cases e with
      | send => exact absurd rfl send
      | closed => exact absurd rfl open_
      | _ => simp [step, State.moveStream, goes]
    have next := extend run moves trivial
    exact ⟨_, _, next, rfl, idle.receiving, idle.empty⟩

lemma follows {k : List EventStream.Event} {task : EventStream.State} (run : RunAlone cfg h₀ s₀ h s)
    (idle : Idle s) (own : RunFrom (EventStream.system parse 0) Undisturbed [] s.stream.task k task)
    (unread : chunksOf k = []) : ∃ h' t, RunAlone cfg h₀ s₀ h' t ∧ t.stream.task = task ∧ Idle t := by
  induction own with
  | nil => exact ⟨h, s, run, rfl, idle⟩
  | @step k t t' e prior taken quiet ih =>
    rw [chunksOf_cons, List.append_eq_nil_iff, Option.toList_eq_nil_iff] at unread
    obtain ⟨h', u, run', rfl, idle'⟩ := ih unread.1
    exact moves run' idle' taken unread.2 quiet.2.2

lemma cancels (run : RunAlone cfg h₀ s₀ h s) (idle : Idle s)
    (taken : EventStream.step parse s.stream.task .cancelled = some { s.stream.task with phase := .ended }) :
    ∃ h' t, RunAlone cfg h₀ s₀ h' t ∧ t.stream.task.phase = .ended ∧ Idle t := by
  obtain ⟨h', t, run', task, idle'⟩ := moves run idle taken rfl (by simp)
  exact ⟨h', t, run', by rw [task], idle'⟩

/-- The consumer ends when it is cancelled, after the lines that it has already received. -/
lemma ends (run : RunAlone cfg h₀ s₀ h s) (idle : Idle s)
    (full : ∀ buffer index, s.stream.task.phase ≠ .sending buffer index []) :
    ∃ h' t, RunAlone cfg h₀ s₀ h' t ∧ t.stream.task.phase = .ended ∧ Idle t := by
  have drained {k : List EventStream.Event} {task : EventStream.State} {buffer : List UInt8}
      (own : RunFrom (EventStream.system parse 0) Undisturbed [] s.stream.task k task)
      (unread : chunksOf k = []) (at_ : task.phase = .draining buffer) :
      ∃ h' t, RunAlone cfg h₀ s₀ h' t ∧ t.stream.task.phase = .ended ∧ Idle t := by
    obtain ⟨k', task', own', same, rest, reads⟩ := settles_draining own at_
    obtain ⟨h', t, run', rfl, idle'⟩ := follows run idle own' (same.trans unread)
    exact cancels run' idle' (by simp only [EventStream.step, reads])
  cases at_ : s.stream.task.phase with
  | ended => exact ⟨h, s, run, at_, idle⟩
  | idle | reading | waiting => exact cancels run idle (by simp only [EventStream.step, at_])
  | requested index =>
    have refused : EventStream.step parse s.stream.task .refused =
        some { s.stream.task with phase := .waiting } := by simp only [EventStream.step, at_]
    obtain ⟨h', t, run', task, idle'⟩ := moves run idle refused rfl (by simp)
    exact cancels run' idle' (by simp only [EventStream.step, task])
  | draining buffer => exact drained .nil rfl at_
  | sending buffer index events =>
    cases events with
    | nil => exact absurd at_ (full buffer index)
    | cons event events =>
      have sendAll : s.stream.task.phase = .sendAll buffer index (event :: events) := at_
      obtain ⟨k, task, own, same, draining⟩ := settles_sendAll .nil sendAll
      exact drained own same draining

end Alone

/-- A frame that is being sent has events left. -/
lemma sending_ne_nil {C : Condition (EventReconnect.State parse) (EventReconnect.Event parse)}
    {k : List (EventReconnect.Event parse)} (run : RunWhere (EventReconnect.system parse) C k u)
    (buffer : List UInt8) (index : ℕ) : u.task.phase ≠ .sending buffer index [] := by
  have sendAll_ne (held : List UInt8) (i : ℕ) (events : List EventEnvelope) :
      Phase.sendAll held i events ≠ .sending buffer index [] := by
    cases events <;> simp [Phase.sendAll]
  refine run.state_invariant (fun u => u.task.phase ≠ .sending buffer index [])
    (fun sending => by cases sending) ?_
  intro _ u v e full (taken : EventReconnect.step u e = some v) _
  obtain ⟨⟨phase, lastIndex, sent⟩, link⟩ := u
  cases e with
  | task e =>
    cases e with
    | send =>
      cases phase with
      | sending held i events =>
        cases events with
        | nil => cases taken
        | cons event events =>
          obtain rfl := Option.some.inj taken
          exact sendAll_ne held i events
      | _ => cases taken
    | line =>
      cases phase with
      | draining held =>
        obtain rfl := Option.some.inj taken
        simp only [drain]
        split
        · intro sending
          cases sending
        · split
          · intro sending
            cases sending
          · next frame _ => exact sendAll_ne _ frame.index frame.events
      | _ => cases taken
    | _ =>
      cases phase <;> first
        | (cases taken; done)
        | (obtain rfl := Option.some.inj taken; intro sending; cases sending)
  | write item =>
    obtain ⟨link, -, rfl⟩ := Option.map_eq_some_iff.mp taken
    exact full
  | deliver count =>
    obtain ⟨link, -, taken⟩ := Option.bind_eq_some_iff.mp taken
    obtain ⟨w, arrives, taken⟩ := Option.bind_eq_some_iff.mp taken
    obtain rfl := Option.some.inj taken
    cases phase with
    | reading held =>
      obtain rfl := Option.some.inj arrives
      intro sending
      cases sending
    | _ => cases arrives

/-- What has been sent or is owed goes on to be sent. -/
lemma step_owed (taken : EventReconnect.step u e = some v) (open_ : e ≠ .task .closed) :
    u.task.sent ++ u.task.phase.owed <+: v.task.sent ++ v.task.phase.owed := by
  obtain ⟨⟨phase, lastIndex, sent⟩, link⟩ := u
  cases e with
  | task e =>
    cases e with
    | closed => exact absurd rfl open_
    | send =>
      cases phase with
      | sending buffer index events =>
        cases events with
        | nil => cases taken
        | cons event events =>
          obtain rfl := Option.some.inj taken
          rw [sendAll_owed]
          simp [Phase.owed]
      | _ => cases taken
    | line =>
      cases phase with
      | draining buffer =>
        obtain rfl := Option.some.inj taken
        simp only [drain]
        split
        · exact List.prefix_rfl
        · split
          · exact List.prefix_rfl
          · simp [Phase.owed]
      | _ => cases taken
    | _ => cases phase <;> first
        | (cases taken; done)
        | (obtain rfl := Option.some.inj taken; exact List.prefix_rfl)
  | write item =>
    obtain ⟨link, -, rfl⟩ := Option.map_eq_some_iff.mp taken
    exact List.prefix_rfl
  | deliver count =>
    obtain ⟨link, -, taken⟩ := Option.bind_eq_some_iff.mp taken
    obtain ⟨w, arrives, taken⟩ := Option.bind_eq_some_iff.mp taken
    obtain rfl := Option.some.inj taken
    cases phase with
    | reading buffer =>
      obtain rfl := Option.some.inj arrives
      exact List.prefix_rfl
    | _ => cases arrives

/-- The two tasks do not wait for each other for ever: from every state that is reached, without
another byte from the server, they can come to their end, and what was sent has then been handled,
with the rest of the frame that was being sent. -/
theorem can_end (cfg : Config) (log : Log parse) (h : List (Event parse)) (s : State parse)
    (run : RunWhere (system cfg parse) (Served log) h s) :
    ∃ h' t, RunFrom (system cfg parse) Alone h s h' t ∧ t.processor = .stopped ∧
      s.stream.task.sent ++ s.stream.task.phase.owed <+: t.handled := by
  obtain ⟨stream, piped⟩ := stream_of_run run
  -- a processor that has stopped has handled everything
  by_cases stopped : s.processor = .stopped
  · obtain ⟨ended, empty⟩ := piped.stopped stopped
    have order := piped.order
    rw [stopped, empty] at order
    exact ⟨h, s, .nil, stopped, by simp [← order, ended, Processor.current, Phase.owed]⟩
  · have begins : RunAlone cfg h s h s := .nil
    obtain ⟨h', t, run', same, idle⟩ := settles begins stopped
    obtain ⟨h'', u, run'', ended, idle'⟩ := ends run' idle fun buffer index => by
      rw [same]
      exact sending_ne_nil stream buffer index
    have grows : Piped u ∧ s.stream.task.sent ++ s.stream.task.phase.owed <+:
        u.stream.task.sent ++ u.stream.task.phase.owed := by
      refine run''.state_invariant (fun u => Piped u ∧ s.stream.task.sent ++ s.stream.task.phase.owed <+:
        u.stream.task.sent ++ u.stream.task.phase.owed) ⟨piped, List.prefix_rfl⟩ ?_
      rintro _ u v e ⟨piped, part⟩ taken -
      replace taken : step cfg u e = some v := taken
      refine ⟨piped.next taken, part.trans ?_⟩
      cases e with
      | stream e =>
        refine step_owed (moved_of_step taken).taken ?_
        rintro rfl
        exact piped.open_ taken
      | receive | answer | finish | stop =>
        rw [stream_of_step taken rfl]
    have stops : step cfg u .stop = some { u with processor := .stopped } := by
      simp only [step, idle'.receiving, ended, idle'.empty]
    refine ⟨_, _, extend run'' stops trivial, rfl, ?_⟩
    have order := grows.1.order
    rw [idle'.receiving, idle'.empty] at order
    have handled : u.handled = u.stream.task.sent := by simpa [Processor.current] using order
    have part := grows.2
    rw [ended] at part
    simpa [handled, Phase.owed] using part

/-- The tasks end while a frame is being sent. -/
theorem brokenOnce_ends : ∃ s t : State shortParse, s.stream.task.phase.owed.length = 1 ∧
    t.processor = .stopped ∧ s.stream.task.sent ++ s.stream.task.phase.owed <+: t.handled := by
  obtain ⟨h, s, run, owes⟩ := exists_run (T := system EventProcessor.durableConfig shortParse) (C := Served shortLog)
    (fun _ s => s.stream.task.phase.owed.length = 1) (brokenOnce.take 6) (by decide +kernel)
  obtain ⟨h', t, -, stopped, part⟩ := can_end EventProcessor.durableConfig shortLog h s run
  exact ⟨s, t, owes, stopped, part⟩

end NScale.EventPipeline
