import NScale.Json
import NScale.Text
import NScale.Transition

/-!
# The consumer of the Nomad event stream

`event_stream_loop` with `connect_and_consume` as one task, that waits for the next chunk, handles
a line of its buffer, or sends an event. How the bytes are cut into chunks turns out not to
matter: what is sent is what the complete lines hold.
-/
namespace NScale.EventStream
open Transition Text

structure EventEnvelope where
  topic : String
  eventType : String
  payload : Json.Value

/-- Both fields have defaults, for a heartbeat is `{}`. -/
structure EventStreamFrame where
  events : List EventEnvelope
  index : ℕ

structure NomadEvent where
  index : ℕ
  topic : String
  eventType : String
  payload : Json.Value

/-- The event that is sent for an envelope of a frame. -/
def EventEnvelope.event (index : ℕ) (envelope : EventEnvelope) : NomadEvent :=
  ⟨index, envelope.topic, envelope.eventType, envelope.payload⟩

def EventStreamFrame.nomadEvents (frame : EventStreamFrame) : List NomadEvent :=
  frame.events.map (EventEnvelope.event frame.index)

/-- The position of the first newline, and `drain(..=pos)`. -/
def takeLine (buffer : List UInt8) : Option (List UInt8 × List UInt8) :=
  (buffer.findIdx? (· = newline)).map fun pos => (buffer.take (pos + 1), buffer.drop (pos + 1))

/-- Where the task is. A phase with a buffer is inside `connect_and_consume`. -/
inductive Phase
  | idle
  | requested (index : ℕ)
  | reading (buffer : List UInt8)
  | draining (buffer : List UInt8)
  | sending (buffer : List UInt8) (index : ℕ) (events : List EventEnvelope)
  | waiting
  | ended

/-- The loop over the events of a frame. -/
def Phase.sendAll (buffer : List UInt8) (index : ℕ) : List EventEnvelope → Phase
  | [] => .draining buffer
  | event :: events => .sending buffer index (event :: events)

/-- The channel is kept as what was sent to it, oldest first. -/
structure State where
  phase : Phase
  lastIndex : ℕ
  sent : List NomadEvent

inductive Event
  | connect
  | refused
  | accepted
  | chunk (bytes : List UInt8)
  | broken
  | line
  | send
  | closed
  | cancelled
  | retry

section Step
variable (parse : List Char → Option EventStreamFrame)

/-- The frame of a line that is not blank, can be parsed, and has events. -/
def readLine (line : List UInt8) : Option EventStreamFrame :=
  let text := trim (fromUtf8Lossy line)
  if text.isEmpty then none else (parse text).filter fun frame => !frame.events.isEmpty

/-- One turn of the loop that drains the buffer. -/
def drain (s : State) (buffer : List UInt8) : State :=
  match takeLine buffer with
  | none => { s with phase := .reading buffer }
  | some (line, rest) =>
    match readLine parse line with
    | none => { s with phase := .draining rest }
    | some frame =>
      { s with phase := .sendAll rest frame.index frame.events, lastIndex := frame.index }

def sendNext (s : State) (buffer : List UInt8) (index : ℕ) : List EventEnvelope → Option State
  | [] => none
  | event :: events =>
    some { s with phase := .sendAll buffer index events, sent := s.sent ++ [event.event index] }

def step (s : State) (e : Event) : Option State :=
  match s.phase, e with
  | .idle, .cancelled => some { s with phase := .ended }
  | .idle, .connect => some { s with phase := .requested s.lastIndex }
  | .requested _, .refused => some { s with phase := .waiting }
  | .requested _, .accepted => some { s with phase := .reading [] }
  | .reading buffer, .chunk bytes => some { s with phase := .draining (buffer ++ bytes) }
  -- an error of the stream, or its end
  | .reading _, .broken => some { s with phase := .waiting }
  | .reading _, .cancelled => some { s with phase := .ended }
  | .draining buffer, .line => some (drain parse s buffer)
  | .sending buffer index events, .send => sendNext s buffer index events
  | .sending .., .closed => some { s with phase := .ended }
  | .waiting, .retry => some { s with phase := .idle }
  | .waiting, .cancelled => some { s with phase := .ended }
  | _, _ => none

def system (initialIndex : ℕ) : System State Event := ⟨⟨.idle, initialIndex, []⟩, step parse⟩

end Step

/-! ## What a stream of bytes holds -/

section Content
variable (parse : List Char → Option EventStreamFrame)

/-- What comes before the newlines; a last line without one is not complete. -/
def completeLines (bytes : List UInt8) : List (List UInt8) := (bytes.splitOn newline).dropLast

def framesOf (lines : List (List UInt8)) : List EventStreamFrame := lines.filterMap (readLine parse)

def emitted (lines : List (List UInt8)) : List NomadEvent :=
  (framesOf parse lines).flatMap EventStreamFrame.nomadEvents

/-- The index of the last frame, if there is any. -/
def resumeIndex (initial : ℕ) (lines : List (List UInt8)) : ℕ :=
  (framesOf parse lines).foldl (fun _ frame => frame.index) initial

end Content

def Event.chunk? : Event → Option (List UInt8)
  | .chunk bytes => some bytes
  | _ => none

def chunksOf (h : List Event) : List (List UInt8) := h.reverse.filterMap Event.chunk?

/-- The stream goes on, nobody cancels, and the receiver stays open. -/
def Undisturbed (_ : List Event) (_ : State) (e : Event) : Prop :=
  e ≠ .broken ∧ e ≠ .cancelled ∧ e ≠ .closed

/-- From the response on, `connect_and_consume` gets these chunks and handles them. -/
def Consumes (parse : List Char → Option EventStreamFrame) (initial : ℕ)
    (chunks : List (List UInt8)) (sent : List NomadEvent) (lastIndex : ℕ) : Prop :=
  ∃ h buffer, RunFrom (system parse initial) Undisturbed [] ⟨.reading [], initial, []⟩ h
    ⟨.reading buffer, lastIndex, sent⟩ ∧ chunksOf h = chunks

variable {parse : List Char → Option EventStreamFrame} {initial : ℕ} {buffer bytes : List UInt8}
  {s t : State} {h : List Event}

lemma takeLine_eq_none : takeLine buffer = none ↔ newline ∉ buffer := by
  rw [takeLine, Option.map_eq_none_iff, List.findIdx?_eq_none_iff]
  simp only [decide_eq_false_iff_not]
  exact ⟨fun all mem => all newline mem rfl, fun free _ mem eq => free (eq ▸ mem)⟩

lemma takeLine_eq_some {line rest : List UInt8} (taken : takeLine buffer = some (line, rest)) :
    ∃ body, newline ∉ body ∧ line = body ++ [newline] ∧ buffer = body ++ newline :: rest := by
  obtain ⟨pos, at_, cut⟩ := Option.map_eq_some_iff.mp taken
  obtain ⟨inside, ends, before⟩ := List.findIdx?_eq_some_iff_getElem.mp at_
  obtain ⟨rfl, rfl⟩ := Prod.mk.inj cut
  have here : buffer[pos] = newline := by simpa using ends
  refine ⟨buffer.take pos, fun mem => ?_, ?_, ?_⟩
  · obtain ⟨i, lt, at_⟩ := List.mem_take_iff_getElem.mp mem
    exact before i (by omega) (by simpa using at_)
  · rw [List.take_add_one, List.getElem?_eq_getElem inside, here]
    rfl
  · rw [← here, ← List.drop_eq_getElem_cons inside, List.take_append_drop]

/-- The newline at the end of a line is trimmed away. -/
lemma readLine_newline (body : List UInt8) :
    readLine parse (body ++ [newline]) = readLine parse body := by
  simp only [readLine, fromUtf8Lossy_newline, trim_newline]

/-- Whatever comes after the bytes: they hold these lines and then what is in the buffer. -/
def Cut (bytes : List UInt8) (lines : List (List UInt8)) (buffer : List UInt8) : Prop :=
  ∀ more, (bytes ++ more).splitOn newline = lines ++ (buffer ++ more).splitOn newline

lemma Cut.refl (bytes : List UInt8) : Cut bytes [] bytes := fun _ => rfl

lemma Cut.append {lines : List (List UInt8)} (cut : Cut bytes lines buffer) (chunk : List UInt8) :
    Cut (bytes ++ chunk) lines (buffer ++ chunk) := by
  intro more
  rw [List.append_assoc, List.append_assoc]
  exact cut (chunk ++ more)

lemma Cut.take {lines : List (List UInt8)} {body rest : List UInt8}
    (cut : Cut bytes lines (body ++ newline :: rest)) (free : newline ∉ body) :
    Cut bytes (lines ++ [body]) rest := by
  intro more
  have first : (body ++ newline :: rest ++ more).splitOn newline =
      body :: (rest ++ more).splitOn newline := by
    rw [List.append_assoc, List.cons_append, List.splitOn_append_cons_self_of_not_mem free]
  rw [cut more, first, List.append_assoc, List.singleton_append]

/-- When no newline is left the lines are all the complete ones. -/
lemma Cut.completeLines {lines : List (List UInt8)} (cut : Cut bytes lines buffer)
    (free : newline ∉ buffer) : completeLines bytes = lines := by
  have all := cut []
  rw [List.append_nil, List.append_nil, List.splitOn_eq_singleton free] at all
  rw [EventStream.completeLines, all, List.dropLast_concat]

/-! ## The task while nothing disturbs it -/

def Phase.buffer? : Phase → Option (List UInt8)
  | .reading buffer | .draining buffer | .sending buffer _ _ => some buffer
  | _ => none

/-- The events of the current frame that are still to be sent. -/
def Phase.owed : Phase → List NomadEvent
  | .sending _ index events => events.map (EventEnvelope.event index)
  | _ => []

@[simp] lemma sendAll_buffer? (index : ℕ) (events : List EventEnvelope) :
    (Phase.sendAll buffer index events).buffer? = some buffer := by
  cases events <;> rfl

@[simp] lemma sendAll_owed (index : ℕ) (events : List EventEnvelope) :
    (Phase.sendAll buffer index events).owed = events.map (EventEnvelope.event index) := by
  cases events <;> rfl

lemma sendAll_ne_reading (index : ℕ) (events : List EventEnvelope) :
    Phase.sendAll buffer index events ≠ .reading bytes := by
  cases events <;> simp [Phase.sendAll]

/-- Of the bytes received, the task has handled these lines. -/
structure Handled (parse : List Char → Option EventStreamFrame) (initial : ℕ) (bytes : List UInt8)
    (lines : List (List UInt8)) (buffer : List UInt8) (s : State) : Prop where
  inside : s.phase.buffer? = some buffer
  cut : Cut bytes lines buffer
  sent : s.sent ++ s.phase.owed = emitted parse lines
  last : s.lastIndex = resumeIndex parse initial lines
  read : s.phase = .reading buffer → newline ∉ buffer

lemma emitted_concat (parse : List Char → Option EventStreamFrame) (lines : List (List UInt8))
    (line : List UInt8) : emitted parse (lines ++ [line]) =
      emitted parse lines ++ (readLine parse line).elim [] EventStreamFrame.nomadEvents := by
  cases read : readLine parse line <;> simp [emitted, framesOf, read]

lemma resumeIndex_concat (parse : List Char → Option EventStreamFrame) (initial : ℕ)
    (lines : List (List UInt8)) (line : List UInt8) : resumeIndex parse initial (lines ++ [line]) =
      (readLine parse line).elim (resumeIndex parse initial lines) EventStreamFrame.index := by
  cases read : readLine parse line <;> simp [resumeIndex, framesOf, read]

lemma Handled.drain {lines : List (List UInt8)}
    (handled : Handled parse initial bytes lines buffer s) (at_ : s.phase = .draining buffer) :
    ∃ lines' buffer', Handled parse initial bytes lines' buffer' (drain parse s buffer) := by
  have sent : s.sent = emitted parse lines := by simpa [at_, Phase.owed] using handled.sent
  unfold EventStream.drain
  cases taken : takeLine buffer with
  | none =>
    exact ⟨lines, buffer, rfl, handled.cut, by simpa [Phase.owed] using sent, handled.last,
      fun _ => takeLine_eq_none.mp taken⟩
  | some pair =>
    obtain ⟨line, rest⟩ := pair
    obtain ⟨body, free, rfl, rfl⟩ := takeLine_eq_some taken
    refine ⟨lines ++ [body], rest, ?_⟩
    simp only [readLine_newline]
    have cut := handled.cut.take free
    have emits := emitted_concat parse lines body
    have resumes := resumeIndex_concat parse initial lines body
    cases read : readLine parse body with
    | none =>
      rw [read] at emits resumes
      exact ⟨rfl, cut, by simp [Phase.owed, sent, emits], handled.last.trans resumes.symm, nofun⟩
    | some frame =>
      rw [read] at emits resumes
      refine ⟨sendAll_buffer? .., cut, ?_, resumes.symm,
        fun reads => absurd reads (sendAll_ne_reading frame.index frame.events)⟩
      rw [sendAll_owed, sent, emits]
      rfl

/-- One step, with the chunk that it may receive. -/
lemma Handled.next {lines : List (List UInt8)} {e : Event}
    (handled : Handled parse initial bytes lines buffer s) (taken : step parse s e = some t)
    (quiet : Undisturbed h s e) :
    ∃ lines' buffer', Handled parse initial (bytes ++ e.chunk?.getD []) lines' buffer' t := by
  obtain ⟨phase, lastIndex, sent⟩ := s
  have inside := handled.inside
  cases e with
  | connect | refused | accepted | retry =>
    cases phase <;> first | (cases taken; done) | cases inside
  | broken => exact absurd rfl quiet.1
  | cancelled => exact absurd rfl quiet.2.1
  | closed => exact absurd rfl quiet.2.2
  | chunk chunk =>
    cases phase with
    | reading held =>
      obtain rfl := Option.some.inj inside
      obtain rfl := Option.some.inj taken
      exact ⟨lines, _, rfl, handled.cut.append chunk, handled.sent, handled.last, nofun⟩
    | _ => cases taken
  | line =>
    cases phase with
    | draining held =>
      obtain rfl := Option.some.inj inside
      obtain rfl := Option.some.inj taken
      have unread : bytes ++ Event.line.chunk?.getD [] = bytes := List.append_nil bytes
      rw [unread]
      exact handled.drain rfl
    | _ => cases taken
  | send =>
    cases phase with
    | sending held index events =>
      obtain rfl := Option.some.inj inside
      cases events with
      | nil => cases taken
      | cons event events =>
        obtain rfl := Option.some.inj taken
        have unread : bytes ++ Event.send.chunk?.getD [] = bytes := List.append_nil bytes
        rw [unread]
        refine ⟨lines, held, sendAll_buffer? .., handled.cut, ?_, handled.last,
          fun reads => absurd reads (sendAll_ne_reading index events)⟩
        rw [sendAll_owed, ← handled.sent, List.append_assoc]
        rfl
    | _ => cases taken

lemma chunksOf_cons (e : Event) (h : List Event) :
    chunksOf (e :: h) = chunksOf h ++ e.chunk?.toList := by
  cases e <;> simp [chunksOf, Event.chunk?]

lemma handled_of_run
    (run : RunFrom (system parse initial) Undisturbed [] ⟨.reading [], initial, []⟩ h s) :
    ∃ lines buffer, Handled parse initial (chunksOf h).flatten lines buffer s := by
  refine run.invariant (fun h s => ∃ lines buffer,
    Handled parse initial (chunksOf h).flatten lines buffer s) ?_ ?_
  · exact ⟨[], [], rfl, .refl [], rfl, rfl, fun _ => List.not_mem_nil⟩
  · rintro h s t e - ⟨lines, buffer, handled⟩ taken quiet
    have received : (chunksOf (e :: h)).flatten = (chunksOf h).flatten ++ e.chunk?.getD [] := by
      rw [chunksOf_cons, List.flatten_append]
      cases e.chunk? <;> simp
    rw [received]
    exact handled.next taken quiet

/-! ## What is received is handled -/

section Progress
variable {h₀ : List Event} {s₀ : State}

/-- The run goes on to a state with the property, and receives nothing on the way. -/
def Settles (parse : List Char → Option EventStreamFrame) (initial : ℕ) (h₀ : List Event)
    (s₀ : State) (h : List Event) (Q : Phase → Prop) : Prop :=
  ∃ h' t, RunFrom (system parse initial) Undisturbed h₀ s₀ h' t ∧ chunksOf h' = chunksOf h ∧ Q t.phase

lemma settles_sendAll {index : ℕ} {events : List EventEnvelope}
    (run : RunFrom (system parse initial) Undisturbed h₀ s₀ h s)
    (at_ : s.phase = .sendAll buffer index events) :
    Settles parse initial h₀ s₀ h (· = .draining buffer) := by
  induction events generalizing h s with
  | nil => exact ⟨h, s, run, rfl, at_⟩
  | cons event events ih =>
    have sends : step parse s .send =
        some { s with phase := .sendAll buffer index events, sent := s.sent ++ [event.event index] } := by
      simp only [step, at_, Phase.sendAll, sendNext]
    obtain ⟨h', t, run', same, done⟩ := ih (.step run sends (by simp [Undisturbed])) rfl
    exact ⟨h', t, run', same.trans (by simp [chunksOf_cons, Event.chunk?]), done⟩

/-- Each turn of the draining loop leaves a shorter buffer. -/
lemma settles_draining (run : RunFrom (system parse initial) Undisturbed h₀ s₀ h s)
    (at_ : s.phase = .draining buffer) :
    Settles parse initial h₀ s₀ h (∃ b, · = .reading b) := by
  induction length : buffer.length using Nat.strong_induction_on generalizing h s buffer with
  | _ n ih =>
    have drains : step parse s .line = some (drain parse s buffer) := by simp only [step, at_]
    have next := RunFrom.step run drains (by simp [Undisturbed])
    have same : chunksOf (.line :: h) = chunksOf h := by simp [chunksOf_cons, Event.chunk?]
    cases taken : takeLine buffer with
    | none => exact ⟨_, _, next, same, buffer, by simp [drain, taken]⟩
    | some pair =>
      obtain ⟨line, rest⟩ := pair
      obtain ⟨body, -, -, rfl⟩ := takeLine_eq_some taken
      have shorter : rest.length < n := by
        rw [← length, List.length_append, List.length_cons]
        omega
      cases read : readLine parse line with
      | none =>
        have drained : (drain parse s (body ++ newline :: rest)).phase = .draining rest := by
          simp [drain, taken, read]
        obtain ⟨h', t, run', same', done⟩ := ih rest.length shorter next drained rfl
        exact ⟨h', t, run', same'.trans same, done⟩
      | some frame =>
        have sending : (drain parse s (body ++ newline :: rest)).phase =
            .sendAll rest frame.index frame.events := by simp [drain, taken, read]
        obtain ⟨h', t, run', same', drained⟩ := settles_sendAll next sending
        obtain ⟨h'', u, run'', same'', done⟩ := ih rest.length shorter run' drained rfl
        exact ⟨h'', u, run'', same''.trans (same'.trans same), done⟩

end Progress

/-- Every sequence of chunks can be received to its end. -/
lemma exists_consumed (parse : List Char → Option EventStreamFrame) (initial : ℕ)
    (chunks : List (List UInt8)) : ∃ h s buffer,
      RunFrom (system parse initial) Undisturbed [] ⟨.reading [], initial, []⟩ h s ∧
        chunksOf h = chunks ∧ s.phase = .reading buffer := by
  induction chunks using List.reverseRecOn with
  | nil => exact ⟨[], _, [], .nil, rfl, rfl⟩
  | append_singleton chunks chunk ih =>
    obtain ⟨h, s, buffer, run, received, reads⟩ := ih
    have arrives : step parse s (.chunk chunk) =
        some { s with phase := .draining (buffer ++ chunk) } := by simp only [step, reads]
    have next := RunFrom.step run arrives (by simp [Undisturbed])
    obtain ⟨h', t, run', same, rest, done⟩ := settles_draining next rfl
    refine ⟨h', t, rest, run', ?_, done⟩
    rw [same, chunksOf_cons, received]
    rfl

/-- What is sent and where the stream would be resumed depend on the bytes alone: on what their
complete lines hold. -/
lemma consumes_iff_content (chunks : List (List UInt8)) (sent : List NomadEvent) (last : ℕ) :
    Consumes parse initial chunks sent last ↔
      sent = emitted parse (completeLines chunks.flatten) ∧
        last = resumeIndex parse initial (completeLines chunks.flatten) := by
  have content {h : List Event} {buffer : List UInt8} {sent : List NomadEvent} {last : ℕ}
      (run : RunFrom (system parse initial) Undisturbed [] ⟨.reading [], initial, []⟩ h
        ⟨.reading buffer, last, sent⟩) :
      sent = emitted parse (completeLines (chunksOf h).flatten) ∧
        last = resumeIndex parse initial (completeLines (chunksOf h).flatten) := by
    obtain ⟨lines, held, handled⟩ := handled_of_run run
    obtain rfl : buffer = held := Option.some.inj handled.inside
    rw [handled.cut.completeLines (handled.read rfl)]
    exact ⟨by simpa [Phase.owed] using handled.sent, handled.last⟩
  constructor
  · rintro ⟨h, buffer, run, rfl⟩
    exact content run
  · rintro ⟨rfl, rfl⟩
    obtain ⟨h, ⟨phase, last, sent⟩, buffer, run, rfl, rfl⟩ := exists_consumed parse initial chunks
    obtain ⟨emits, resumes⟩ := content run
    exact ⟨h, buffer, resumes ▸ emits ▸ run, rfl⟩

/-- Cutting the stream into chunks changes nothing. -/
theorem consumes_iff (parse : List Char → Option EventStreamFrame) (initial : ℕ)
    (chunks : List (List UInt8)) (sent : List NomadEvent) (last : ℕ) :
    (Consumes parse initial chunks sent last ↔
      Consumes parse initial [chunks.flatten] sent last) ∧
    (Consumes parse initial chunks sent last ↔
      sent = emitted parse (completeLines chunks.flatten) ∧
        last = resumeIndex parse initial (completeLines chunks.flatten)) := by
  refine ⟨?_, consumes_iff_content chunks sent last⟩
  rw [consumes_iff_content, consumes_iff_content, List.flatten_singleton]

end NScale.EventStream
