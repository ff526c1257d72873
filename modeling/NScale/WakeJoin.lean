import NScale.WakeBackend
import NScale.WakeTurns

/-!
# The outcome of the wake that was joined

All wakes of one `WakeState` share its channel, and a failed task stores DORMANT before it
sends. In that gap the next caller can start a new wake and subscribe, and then receives the
failure of the old one. While nobody joins in the gap, each task sends to those who joined
its own wake.
-/
namespace NScale.WakeCoordinator
open Transition

/-- Only `ensure_running` is called, and callers subscribe after the failures of earlier wakes
were sent. -/
def JoinsAfterSend : Condition (State × WakeLog) Event := fun h p e =>
  OnlyEnsures h p e ∧
    match e with
    | .subscribe _ _ w | .ownSubscribe _ _ w => EarlierSent p.1 p.2 w
    | _ => True

/-- Whoever started a wake, or subscribed while it was live, returns its own timeout or the
result that this wake broadcast. -/
def OutcomeOfWake (s : State) (g : WakeLog) : Prop :=
  ∀ i k reg result, g.joined i = some k → s.calls i = some (.ensured reg result) →
    (∃ elapsed, result = .error (.wakeTimeout reg.jobId.val elapsed)) ∨
      ∃ msg, g.sent k = some msg ∧ result = reply reg msg

/-- The `WakeState` on whose channel the caller waits for its first message. -/
def Call.waits? : Call → Option ℕ
  | .spawn _ w none | .recv _ w none => some w
  | _ => none

/-- The first message that the caller has received and not yet looked at. -/
def Call.inbox? : Call → Option WakeResult
  | .spawn _ _ inbox | .recv _ _ inbox => inbox
  | _ => none

/-- Positions of a caller that has started a wake or subscribed. -/
def Call.joins : Call → Bool
  | .ownSubscribe _ _ | .spawn _ _ _ | .recv _ _ _ | .ensured _ _ | .dropped => true
  | _ => false

/-- What a send does to one caller: it stays in its place, and what it waited for or has
received changes only if it waited on that channel. -/
lemma Call.deliver_cases (w : ℕ) (msg : WakeResult) (c : Call) :
    c.deliver w msg = c ∨
      c.waits? = some w ∧ (c.deliver w msg).waits? = none ∧ (c.deliver w msg).inbox? = some msg := by
  have goes : ∀ v : ℕ, v ≠ w → (if v = w then some msg else none) = none := fun v hv => by simp [hv]
  cases c with
  | spawn reg v inbox | recv reg v inbox =>
    cases inbox with
    | some m => exact .inl rfl
    | none =>
      by_cases hv : v = w
      · exact .inr (by simp [Call.deliver, Call.waits?, Call.inbox?, hv])
      · exact .inl (by simp [Call.deliver, goes v hv])
  | _ => exact .inl rfl

@[simp] lemma Call.inEnsure_deliver (w : ℕ) (msg : WakeResult) (c : Call) :
    (c.deliver w msg).inEnsure = c.inEnsure := by
  cases c with
  | spawn reg v inbox => cases inbox <;> rfl
  | recv reg v inbox => cases inbox <;> rfl
  | _ => rfl

@[simp] lemma Call.joins_deliver (w : ℕ) (msg : WakeResult) (c : Call) :
    (c.deliver w msg).joins = c.joins := by
  cases c with
  | spawn reg v inbox => cases inbox <;> rfl
  | recv reg v inbox => cases inbox <;> rfl
  | _ => rfl

/-- Whoever sends on the channel of `w` before wake `k` does, is wake `k`. -/
structure Awaits (s : State) (g : WakeLog) (k w : ℕ) : Prop where
  live : Live s g k w
  tasks : ∀ {t l}, s.tasks t = some l → l.unsent? = some w → g.starter t = some k
  callers : ∀ {m reg inbox}, s.calls m = some (.spawn reg w inbox) → m = k

/-- Callers wait for the wake they joined, and take its result. -/
structure Joining (s : State) (g : WakeLog) : Prop where
  scope : ∀ {i c}, s.calls i = some c → c.inEnsure = true
  joins : ∀ {i k}, g.joined i = some k → ∃ c, s.calls i = some c ∧ c.joins = true
  own : ∀ {i p}, s.wake (.inl i) = some p → g.joined i = some i
  wait : ∀ {i c w k}, s.calls i = some c → c.waits? = some w → g.joined i = some k → Awaits s g k w
  inbox : ∀ {i c msg k}, s.calls i = some c → c.inbox? = some msg → g.joined i = some k →
    g.sent k = some msg
  result : OutcomeOfWake s g

lemma joining_initial (n timeout : ℕ) : Joining (initial n timeout) .empty := by
  constructor
  case own =>
    intro i p hp
    simp [initial, State.wake] at hp
  case result =>
    intro i k reg r hk
    simp [WakeLog.empty] at hk
  all_goals
    intros
    simp_all [initial, WakeLog.empty]

section Frames
variable {s s' : State} {g : WakeLog} {i t w k v : ℕ} {c c' : Call} {l l' : Task}

lemma Live.of_wake (live : Live s g k w) (wake : s'.wake = s.wake) (tasks : s'.tasks = s.tasks) :
    Live s' g k w := by simpa only [Live, wake, tasks] using live

/-- A caller that does not get to its spawn leaves the waiters as they are. -/
lemma Awaits.setCall (ok : Awaits s g k w) (at_ : s.calls i = some c) (same : c'.wake? = c.wake?)
    (other : ∀ reg v inbox, c' ≠ .spawn reg v inbox) : Awaits (s.setCall i c') g k w where
  live := ok.live.of_wake (wake_setCall at_ same) rfl
  tasks := ok.tasks
  callers {m reg inbox} hm := by
    have hmi : m ≠ i := by
      rintro rfl
      exact other reg w inbox (by simpa using hm)
    exact ok.callers (by simpa [hmi] using hm)

lemma Awaits.setTask (ok : Awaits s g k w) (at_ : s.tasks t = some l)
    (unsent : l'.unsent? = l.unsent?) : Awaits (s.setTask t l') g k w where
  live := by
    rcases ok.live with caller | ⟨u, x, hu, hx, some_⟩
    · exact .inl caller
    · by_cases hut : u = t
      · subst hut
        obtain rfl : l = x := Option.some.inj (at_.symm.trans hx)
        exact .inr ⟨u, l', hu, by simp, unsent.trans some_⟩
      · exact .inr ⟨u, x, hu, by simpa [hut] using hx, some_⟩
  tasks {u x} hx some_ := by
    by_cases hut : u = t
    · subst hut
      obtain rfl : l' = x := by simpa using hx
      exact ok.tasks at_ (unsent.symm.trans some_)
    · exact ok.tasks (by simpa [hut] using hx) some_
  callers := ok.callers

end Frames

namespace Joining
variable {s s' : State} {g : WakeLog} {i t w : ℕ} {c c' : Call} {l l' : Task}

lemma unjoined (ok : Joining s g) (at_ : s.calls i = some c) (free : c.joins = false) :
    g.joined i = none := by
  refine Option.eq_none_iff_forall_not_mem.mpr fun k hk => ?_
  obtain ⟨d, hd, joins⟩ := ok.joins hk
  obtain rfl : c = d := Option.some.inj (at_.symm.trans hd)
  simp [free] at joins

lemma of_eq (ok : Joining s g) (calls : s'.calls = s.calls) (tasks : s'.tasks = s.tasks) :
    Joining s' g := by
  have wake : s'.wake = s.wake := by
    funext a
    cases a <;> simp [State.wake, calls, tasks]
  refine ⟨fun hc => ok.scope (calls ▸ hc), fun hj => calls ▸ ok.joins hj,
    fun hp => ok.own (wake ▸ hp), fun hc hw hj => ?_, fun hc => ok.inbox (calls ▸ hc), ?_⟩
  · have old := ok.wait (calls ▸ hc) hw hj
    exact ⟨old.live.of_wake wake tasks, fun ht => old.tasks (tasks ▸ ht),
      fun hm => old.callers (calls ▸ hm)⟩
  · simpa only [OutcomeOfWake, calls] using ok.result

/-- A caller moves on to a place where it neither waits nor has a message. -/
lemma setCall (ok : Joining s g) (at_ : s.calls i = some c) (same : c'.wake? = c.wake?)
    (other : ∀ reg v inbox, c' ≠ .spawn reg v inbox) (scope : c'.inEnsure = true)
    (joins : c.joins = true → c'.joins = true) (idle : c'.waits? = none)
    (empty : c'.inbox? = none)
    (result : ∀ k reg r, g.joined i = some k → c' = .ensured reg r →
      (∃ elapsed, r = .error (.wakeTimeout reg.jobId.val elapsed)) ∨
        ∃ msg, g.sent k = some msg ∧ r = reply reg msg) : Joining (s.setCall i c') g where
  scope {j d} hd := by
    by_cases hj : j = i
    · subst hj
      obtain rfl : c' = d := by simpa using hd
      exact scope
    · exact ok.scope (by simpa [hj] using hd)
  joins {j k} hk := by
    obtain ⟨d, hd, joined⟩ := ok.joins hk
    by_cases hj : j = i
    · subst hj
      obtain rfl : c = d := Option.some.inj (at_.symm.trans hd)
      exact ⟨c', by simp, joins joined⟩
    · exact ⟨d, by simpa [hj] using hd, joined⟩
  own {j p} hp := ok.own (by rwa [wake_setCall at_ same] at hp)
  wait {j d w k} hd hw hk := by
    by_cases hj : j = i
    · subst hj
      obtain rfl : c' = d := by simpa using hd
      simp [idle] at hw
    · exact (ok.wait (by simpa [hj] using hd) hw hk).setCall at_ same other
  inbox {j d msg k} hd hm hk := by
    by_cases hj : j = i
    · subst hj
      obtain rfl : c' = d := by simpa using hd
      simp [empty] at hm
    · exact ok.inbox (by simpa [hj] using hd) hm hk
  result := by
    intro j k reg r hk hd
    by_cases hj : j = i
    · subst hj
      exact result k reg r hk (by simpa using hd)
    · exact ok.result j k reg r hk (by simpa [hj] using hd)

/-- The same for a caller that has not joined any wake. -/
lemma setFree (ok : Joining s g) (at_ : s.calls i = some c) (free : c.joins = false)
    (calm : c.wake? = none) (calm' : c'.wake? = none) (scope : c'.inEnsure = true)
    (idle : c'.waits? = none) (empty : c'.inbox? = none) : Joining (s.setCall i c') g := by
  refine ok.setCall at_ (calm'.trans calm.symm) ?_ scope (by simp [free]) idle empty ?_
  · rintro reg v inbox rfl
    simp [Call.wake?] at calm'
  · intro k reg r hk
    simp [ok.unjoined at_ free] at hk

lemma setTask (ok : Joining s g) (at_ : s.tasks t = some l) (unsent : l'.unsent? = l.unsent?) :
    Joining (s.setTask t l') g where
  scope := ok.scope
  joins := ok.joins
  own := ok.own
  wait hc hw hk := (ok.wait hc hw hk).setTask at_ unsent
  inbox := ok.inbox
  result := ok.result

/-- A new call has joined nothing. -/
lemma begin (ok : Joining s g) (wf : WellFormed s) (reg : JobRegistration) :
    Joining (Event.next s (.begin (.ensureRunning reg))) g := by
  have old : ∀ {j d}, s.calls j = some d → j ≠ s.nextCall := fun hd => (wf.calls hd).ne
  have fresh : g.joined s.nextCall = none := by
    refine Option.eq_none_iff_forall_not_mem.mpr fun k hk => ?_
    obtain ⟨d, hd, -⟩ := ok.joins hk
    exact old hd rfl
  have was : ∀ {j d}, (Event.next s (.begin (.ensureRunning reg))).calls j = some d →
      d ≠ .fastPath reg ∨ g.joined j ≠ none → s.calls j = some d := by
    intro j d hd other
    by_cases hj : j = s.nextCall
    · subst hj
      obtain rfl : Call.fastPath reg = d := by simpa [Event.next, Operation.call] using hd
      simp [fresh] at other
    · simpa [Event.next, hj] using hd
  have wake : (Event.next s (.begin (.ensureRunning reg))).wake = s.wake := by
    funext a
    cases a with
    | inl j =>
      by_cases hj : j = s.nextCall
      · have none_ : s.calls s.nextCall = none :=
          Option.eq_none_iff_forall_not_mem.mpr fun d hd => old hd rfl
        simp [State.wake, Event.next, hj, none_, Operation.call, Call.wake?]
      · simp [State.wake, Event.next, hj]
    | inr u => rfl
  refine ⟨fun {j d} hd => ?_, fun {j k} hk => ?_, fun hp => ok.own (wake ▸ hp),
    fun {j d w k} hd hw hk => ?_, fun {j d msg k} hd hm hk => ?_, fun j k reg' r hk hd => ?_⟩
  · by_cases hj : d = .fastPath reg
    · subst hj; rfl
    · exact ok.scope (was hd (.inl hj))
  · obtain ⟨d, hd, joins⟩ := ok.joins hk
    exact ⟨d, by simpa [Event.next, old hd] using hd, joins⟩
  · have before := ok.wait (was hd (.inr (by simp [hk]))) hw hk
    refine ⟨before.live.of_wake wake rfl, before.tasks, fun hm => before.callers (was hm (.inl ?_))⟩
    simp
  · exact ok.inbox (was hd (.inr (by simp [hk]))) hm hk
  · exact ok.result j k reg' r hk (was hd (.inr (by simp [hk])))

/-- The winner of the race joins its own wake. -/
lemma start (ok : Joining s g) {reg : JobRegistration} (at_ : s.calls i = some (.tryStart reg w)) :
    Joining ((s.setStatus w .waking).setCall i (.ownSubscribe reg w)) (g.won i w) := by
  have free : g.joined i = none := ok.unjoined at_ rfl
  have live : ∀ {k v}, Live s g k v →
      Live ((s.setStatus w .waking).setCall i (.ownSubscribe reg w)) (g.won i w) k v := by
    rintro k v (⟨p, hp, hc⟩ | task)
    · have other : k ≠ i := by
        rintro rfl
        simp [State.wake, at_, Call.wake?] at hp
      exact .inl ⟨p, by simpa [State.wake, other] using hp, hc⟩
    · exact .inr task
  refine ⟨fun {j d} hd => ?_, fun {j k} hk => ?_, fun {j p} hp => ?_, fun {j d v k} hd hw hk => ?_,
    fun {j d msg k} hd hm hk => ?_, fun j k reg' r hk hd => ?_⟩
  all_goals by_cases hj : j = i
  · subst hj
    obtain rfl : Call.ownSubscribe reg w = d := by simpa using hd
    rfl
  · exact ok.scope (by simpa [hj] using hd)
  · exact ⟨.ownSubscribe reg w, by simp [hj], rfl⟩
  · obtain ⟨d, hd, joins⟩ := ok.joins (by simpa [hj] using hk)
    exact ⟨d, by simpa [hj] using hd, joins⟩
  · simp [hj]
  · simpa [hj] using ok.own (by simpa [State.wake, hj] using hp)
  · subst hj
    obtain rfl : Call.ownSubscribe reg w = d := by simpa using hd
    simp [Call.waits?] at hw
  · have before := ok.wait (by simpa [hj] using hd) hw (by simpa [hj] using hk)
    refine ⟨live before.live, before.tasks, fun {m reg' inbox} hm => ?_⟩
    have hmi : m ≠ i := by
      rintro rfl
      simp at hm
    exact before.callers (by simpa [hmi] using hm)
  · subst hj
    obtain rfl : Call.ownSubscribe reg w = d := by simpa using hd
    simp [Call.inbox?] at hm
  · exact ok.inbox (by simpa [hj] using hd) hm (by simpa [hj] using hk)
  · subst hj
    simp at hd
  · exact ok.result j k reg' r (by simpa [hj] using hk) (by simpa [hj] using hd)

/-- Before a winner subscribes, with the failures of earlier wakes sent, everybody who still
waits on the channel waits for this winner. -/
lemma awaits_winner (owners : Owners s g) (wf : WellFormed s) (sent : EarlierSent s g w)
    {k m : ℕ} (awaits : Awaits s g k w) (winner : g.winner w = some m) :
    m = k := by
  rcases awaits.live with ⟨p, hp, rfl⟩ | ⟨t, l, ht, hl, some_⟩
  · have waking : p.waking = true := by
      obtain ⟨c, -, hc⟩ := Option.bind_eq_some_iff.mp hp
      cases c <;> simp [Call.wake?] at hc <;> subst hc <;> rfl
    have mine := (owners.waking hp waking).2
    exact Option.some.inj (winner.symm.trans mine)
  · have mine := owners.starter_of_unsent wf sent hl some_
    exact Option.some.inj (winner.symm.trans (mine.symm.trans ht))

/-- Only the last winner of a `WakeState` is at its spawn. -/
lemma winner_of_spawn (owners : Owners s g) {m : ℕ} {reg : JobRegistration}
    {inbox : Option WakeResult} (hm : s.calls m = some (.spawn reg w inbox)) :
    g.winner w = some m := by
  have mine : s.wake (.inl m) = some ⟨reg.jobId, w, true⟩ := by simp [State.wake, hm, Call.wake?]
  exact (owners.waking mine rfl).2

/-- The winner subscribes before it spawns its task. -/
lemma ownSubscribe (ok : Joining s g) (owners : Owners s g) (wf : WellFormed s)
    (sent : EarlierSent s g w) {reg : JobRegistration}
    (at_ : s.calls i = some (.ownSubscribe reg w)) :
    Joining (s.setCall i (.spawn reg w none)) g := by
  have pending : s.wake (.inl i) = some ⟨reg.jobId, w, true⟩ := by
    simp [State.wake, at_, Call.wake?]
  have winner : g.winner w = some i := (owners.waking pending rfl).2
  have own : g.joined i = some i := ok.own pending
  have wake : (s.setCall i (.spawn reg w none)).wake = s.wake := wake_setCall at_ rfl
  -- at the moment of the subscription, nobody else can send on this channel first
  have callers : ∀ {k m reg' inbox v}, (v = w → i = k) →
      (∀ {m reg' inbox}, s.calls m = some (.spawn reg' v inbox) → m = k) →
      (s.setCall i (.spawn reg w none)).calls m = some (.spawn reg' v inbox) → m = k := by
    intro k m reg' inbox v mine before hm
    by_cases hmi : m = i
    · subst hmi
      obtain ⟨-, rfl, -⟩ : reg = reg' ∧ w = v ∧ none = inbox := by simpa using hm
      exact mine rfl
    · exact before (by simpa [hmi] using hm)
  refine ⟨fun {j d} hd => ?_, fun {j k} hk => ?_, fun hp => ok.own (wake ▸ hp),
    fun {j d v k} hd hw hk => ?_, fun {j d msg k} hd hm hk => ?_, fun j k reg' r hk hd => ?_⟩
  all_goals by_cases hj : j = i
  · subst hj
    obtain rfl : Call.spawn reg w none = d := by simpa using hd
    rfl
  · exact ok.scope (by simpa [hj] using hd)
  · exact ⟨.spawn reg w none, by simp [hj], rfl⟩
  · obtain ⟨d, hd, joins⟩ := ok.joins hk
    exact ⟨d, by simpa [hj] using hd, joins⟩
  · subst hj
    obtain rfl : Call.spawn reg w none = d := by simpa using hd
    obtain rfl : w = v := Option.some.inj hw
    obtain rfl : j = k := Option.some.inj (own.symm.trans hk)
    refine ⟨.inl ⟨_, wake ▸ pending, rfl⟩, fun ht some_ => ?_, callers (fun _ => rfl) fun hm => ?_⟩
    · exact (owners.starter_of_unsent wf sent ht some_).trans winner
    · exact Option.some.inj ((winner_of_spawn owners hm).symm.trans winner)
  · have before := ok.wait (by simpa [hj] using hd) hw hk
    refine ⟨before.live.of_wake wake rfl, before.tasks, callers (fun hv => ?_) before.callers⟩
    subst hv
    exact awaits_winner owners wf sent before winner
  · subst hj
    obtain rfl : Call.spawn reg w none = d := by simpa using hd
    simp [Call.inbox?] at hm
  · exact ok.inbox (by simpa [hj] using hd) hm hk
  · subst hj
    simp at hd
  · exact ok.result j k reg' r hk (by simpa [hj] using hd)

/-- A waiter subscribes and joins the live wake, if there is one. -/
lemma subscribe (ok : Joining s g) (owners : Owners s g) (wf : WellFormed s)
    (sent : EarlierSent s g w) {reg : JobRegistration}
    (at_ : s.calls i = some (.subscribe reg w)) :
    Joining (s.setCall i (.recv reg w none)) (g.subscribed i w) := by
  have wake : (s.setCall i (.recv reg w none)).wake = s.wake := wake_setCall at_ rfl
  refine ⟨fun {j d} hd => ?_, fun {j k} hk => ?_, fun {j p} hp => ?_, fun {j d v k} hd hw hk => ?_,
    fun {j d msg k} hd hm hk => ?_, fun j k reg' r hk hd => ?_⟩
  all_goals by_cases hj : j = i
  · subst hj
    obtain rfl : Call.recv reg w none = d := by simpa using hd
    rfl
  · exact ok.scope (by simpa [hj] using hd)
  · exact ⟨.recv reg w none, by simp [hj], rfl⟩
  · obtain ⟨d, hd, joins⟩ := ok.joins (by simpa [hj] using hk)
    exact ⟨d, by simpa [hj] using hd, joins⟩
  · subst hj
    simp [State.wake, Call.wake?] at hp
  · simpa [hj] using ok.own (wake ▸ hp)
  · subst hj
    obtain rfl : Call.recv reg w none = d := by simpa using hd
    obtain rfl : w = v := Option.some.inj hw
    have live : g.live w = some k := by simpa using hk
    obtain ⟨winner, unsent⟩ : g.winner w = some k ∧ (g.sent k).isNone = true :=
      Option.filter_eq_some_iff.mp live
    have under : Live s g k w := owners.live winner (Option.isNone_iff_eq_none.mp unsent)
    refine ⟨under.of_wake wake rfl, fun ht some_ => ?_, fun {m reg' inbox} hm => ?_⟩
    · exact (owners.starter_of_unsent wf sent ht some_).trans winner
    · have hmi : m ≠ j := by
        rintro rfl
        simp at hm
      have mine := winner_of_spawn owners (show s.calls m = _ by simpa [hmi] using hm)
      exact Option.some.inj (mine.symm.trans winner)
  · have before := ok.wait (by simpa [hj] using hd) hw (by simpa [hj] using hk)
    have moved : Awaits (s.setCall i (.recv reg w none)) g k v := before.setCall at_ rfl (by simp)
    exact ⟨moved.live, moved.tasks, moved.callers⟩
  · subst hj
    obtain rfl : Call.recv reg w none = d := by simpa using hd
    simp [Call.inbox?] at hm
  · exact ok.inbox (by simpa [hj] using hd) hm (by simpa [hj] using hk)
  · subst hj
    simp at hd
  · exact ok.result j k reg' r (by simpa [hj] using hk) (by simpa [hj] using hd)

/-- The winner spawns its task, the only one to send before its wake is over. -/
lemma spawn (ok : Joining s g) (owners : Owners s g) (wf : WellFormed s) {reg : JobRegistration}
    {inbox : Option WakeResult} (at_ : s.calls i = some (.spawn reg w inbox)) :
    Joining (Event.next s (.spawn i reg w inbox)) (g.spawned i s.nextTask) := by
  have old : ∀ {u x}, s.tasks u = some x → u ≠ s.nextTask := fun hx => (wf.tasks hx).ne
  have named : ∀ {u j}, g.starter u = some j → u ≠ s.nextTask :=
    fun hu => (owners.spawned hu).1.ne
  have awaits : ∀ {k v}, Awaits s g k v →
      Awaits (Event.next s (.spawn i reg w inbox)) (g.spawned i s.nextTask) k v := by
    intro k v before
    refine ⟨?_, fun {t x} hx some_ => ?_, fun {m reg' inbox'} hm => ?_⟩
    · rcases before.live with ⟨p, hp, hc⟩ | ⟨t, x, ht, hx, some_⟩
      · by_cases hk : k = i
        · subst hk
          have mine : (⟨reg.jobId, w, true⟩ : Wake) = p := by
            simpa [State.wake, at_, Call.wake?] using hp
          exact .inr ⟨s.nextTask, .acquire reg w, by simp, by simp [Event.next],
            congrArg some ((congrArg Wake.cell mine).trans hc)⟩
        · exact .inl ⟨p, by simpa [State.wake, Event.next, hk] using hp, hc⟩
      · exact .inr ⟨t, x, by simpa [named ht] using ht, by simpa [Event.next, old hx] using hx,
          some_⟩
    · by_cases htn : t = s.nextTask
      · subst htn
        obtain rfl : Task.acquire reg w = x := by simpa [Event.next] using hx
        obtain rfl : w = v := Option.some.inj some_
        simpa using before.callers at_
      · simpa [htn] using before.tasks (by simpa [Event.next, htn] using hx) some_
    · have hmi : m ≠ i := by
        rintro rfl
        simp [Event.next] at hm
      exact before.callers (by simpa [Event.next, hmi] using hm)
  have was : ∀ {j d}, (Event.next s (.spawn i reg w inbox)).calls j = some d → ∃ d',
      s.calls j = some d' ∧ d'.waits? = d.waits? ∧ d'.inbox? = d.inbox? ∧
        d'.inEnsure = d.inEnsure ∧ (j ≠ i → d' = d) := by
    intro j d hd
    by_cases hj : j = i
    · subst hj
      obtain rfl : Call.recv reg w inbox = d := by simpa [Event.next] using hd
      refine ⟨_, at_, ?_, rfl, rfl, by simp⟩
      cases inbox <;> rfl
    · exact ⟨d, by simpa [Event.next, hj] using hd, rfl, rfl, rfl, fun _ => rfl⟩
  refine ⟨fun {j d} hd => ?_, fun {j k} hk => ?_, fun {j p} hp => ?_, fun {j d v k} hd hw hk => ?_,
    fun {j d msg k} hd hm hk => ?_, fun j k reg' r hk hd => ?_⟩
  · obtain ⟨d', hd', -, -, scope, -⟩ := was hd
    exact scope ▸ ok.scope hd'
  · obtain ⟨d, hd, joins⟩ := ok.joins hk
    by_cases hj : j = i
    · exact ⟨.recv reg w inbox, by simp [Event.next, hj], rfl⟩
    · exact ⟨d, by simpa [Event.next, hj] using hd, joins⟩
  · have hj : j ≠ i := by
      rintro rfl
      simp [State.wake, Event.next, Call.wake?] at hp
    exact ok.own (by simpa [State.wake, Event.next, hj] using hp)
  · obtain ⟨d', hd', waits, -⟩ := was hd
    exact awaits (ok.wait hd' (waits.trans hw) hk)
  · obtain ⟨d', hd', -, inbox', -⟩ := was hd
    exact ok.inbox hd' (inbox'.trans hm) hk
  · have hj : j ≠ i := by
      rintro rfl
      simp [Event.next] at hd
    exact ok.result j k reg' r hk (by simpa [Event.next, hj] using hd)

/-- A task sends its result to those who joined its wake, and to nobody else who waits. -/
lemma send (ok : Joining s g) (owners : Owners s g) {msg : WakeResult} (at_ : s.tasks t = some l)
    (mine : l.unsent? = some w) (done : l'.unsent? = none) :
    Joining ((s.broadcast w msg).setTask t l') (g.broadcast t msg) := by
  obtain ⟨k, starter⟩ := owners.started at_
  have sent : (g.broadcast t msg).sent = Function.update g.sent k (some msg) := by
    simp [WakeLog.broadcast, starter]
  have first : g.sent k = none := owners.unsent starter at_ mine
  have keeps : ∀ {j m}, g.sent j = some m → (g.broadcast t msg).sent j = some m := by
    intro j m hj
    have other : j ≠ k := by
      rintro rfl
      simp [first] at hj
    simpa [sent, other] using hj
  have was : ∀ {j d}, ((s.broadcast w msg).setTask t l').calls j = some d →
      ∃ c, s.calls j = some c ∧ c.deliver w msg = d := fun hd => Option.map_eq_some_iff.mp hd
  have spawns : ∀ {c : Call} {reg v inbox}, c.deliver w msg = .spawn reg v inbox →
      ∃ inbox', c = .spawn reg v inbox' := by
    intro c reg v inbox same
    cases c with
    | spawn reg' v' inbox' =>
      cases inbox' <;> simp only [Call.deliver, Call.spawn.injEq] at same
      · exact ⟨none, by rw [same.1, same.2.1]⟩
      · exact ⟨inbox, by rw [same.1, same.2.1, same.2.2]⟩
    | recv reg' v' inbox' => cases inbox' <;> simp [Call.deliver] at same
    | _ => simp [Call.deliver] at same
  refine ⟨fun {j d} hd => ?_, fun {j m} hm => ?_, fun {j p} hp => ?_, fun {j d v m} hd hw hm => ?_,
    fun {j d r m} hd hr hm => ?_, fun j m reg r hm hd => ?_⟩
  · obtain ⟨c, hc, rfl⟩ := was hd
    simpa using ok.scope hc
  · obtain ⟨c, hc, joins⟩ := ok.joins (by simpa using hm)
    exact ⟨c.deliver w msg, by simp [hc], by simpa using joins⟩
  · have same : (s.broadcast w msg).wake (.inl j) = s.wake (.inl j) := congrFun wake_broadcast _
    simpa using ok.own (same ▸ hp)
  · obtain ⟨c, hc, rfl⟩ := was hd
    rcases c.deliver_cases w msg with same | ⟨-, idle, -⟩
    · rw [same] at hw
      have joined : g.joined j = some m := by simpa using hm
      have before := ok.wait hc hw joined
      -- a caller that still waits after the send waits on another channel
      have apart : v ≠ w := by
        rintro rfl
        have delivered : (c.deliver v msg).waits? = none := by
          cases c with
          | spawn reg v' inbox | recv reg v' inbox =>
            cases inbox <;> simp_all [Call.deliver, Call.waits?]
          | _ => simp [Call.waits?] at hw
        simp [same, hw] at delivered
      refine ⟨?_, fun {u x} hx some_ => ?_, fun {i reg inbox} hi => ?_⟩
      · rcases before.live with ⟨p, hp, hcell⟩ | ⟨u, x, hu, hx, some_⟩
        · have wake : (s.broadcast w msg).wake (.inl m) = s.wake (.inl m) :=
            congrFun wake_broadcast _
          exact .inl ⟨p, wake.trans hp, hcell⟩
        · have hut : u ≠ t := by
            rintro rfl
            obtain rfl : l = x := Option.some.inj (at_.symm.trans hx)
            exact apart (Option.some.inj (some_.symm.trans mine))
          exact .inr ⟨u, x, by simpa using hu, by simpa [hut] using hx, some_⟩
      · have hut : u ≠ t := by
          rintro rfl
          obtain rfl : l' = x := by simpa using hx
          simp [done] at some_
        simpa using before.tasks (by simpa [hut] using hx) some_
      · obtain ⟨c', hc', same'⟩ := was hi
        obtain ⟨inbox', rfl⟩ := spawns same'
        exact before.callers hc'
    · simp [idle] at hw
  · obtain ⟨c, hc, rfl⟩ := was hd
    have joined : g.joined j = some m := by simpa using hm
    rcases c.deliver_cases w msg with same | ⟨waits, -, told⟩
    · exact keeps (ok.inbox hc (same ▸ hr) joined)
    · obtain rfl : msg = r := Option.some.inj (told.symm.trans hr)
      obtain rfl : k = m := Option.some.inj
        (starter.symm.trans ((ok.wait hc waits joined).tasks at_ mine))
      simp [sent]
  · obtain ⟨c, hc, same⟩ := was hd
    have ensured : c = .ensured reg r := by
      cases c with
      | spawn reg' v inbox => cases inbox <;> simp [Call.deliver] at same
      | recv reg' v inbox => cases inbox <;> simp [Call.deliver] at same
      | _ => exact same
    rcases ok.result j m reg r (by simpa using hm) (ensured ▸ hc) with own | ⟨told, hs, reply⟩
    · exact .inl own
    · exact .inr ⟨told, keeps hs, reply⟩

end Joining

section Step
variable {h : List Event} {s : State} {g : WakeLog} {e : Event}

/-- A step under the condition keeps every caller with the wake it joined. -/
theorem Joining.next (ok : Joining s g) (owners : Owners s g) (wf : WellFormed s)
    (en : e.enabled s = true) (cond : JoinsAfterSend h (s, g) e) :
    Joining (e.next s) (g.note s e) := by
  cases e with
  | begin op =>
    cases op with
    | ensureRunning reg => exact ok.begin wf reg
    | markDormant | invalidate | refreshEndpoint => exact cond.1.elim
  | entry i reg =>
    have at_ : (s.orInsert reg.jobId).1.calls i = some (.entry reg) := by
      simpa using of_decide_eq_true en
    exact (ok.of_eq (by simp) (by simp)).setFree at_ rfl rfl rfl rfl rfl rfl
  | fastPath | cached | load | fetched =>
    simp only [Event.next]
    split <;> exact ok.setFree (of_decide_eq_true en) rfl rfl rfl rfl rfl rfl
  | store i reg ep =>
    have put : Joining (s.setEndpoint reg.jobId (some ep)) g := ok.of_eq rfl rfl
    exact put.setFree (of_decide_eq_true en) rfl rfl rfl rfl rfl rfl
  | dropFetch => exact ok.setFree (of_decide_eq_true en) rfl rfl rfl rfl rfl rfl
  | tryStart i reg w =>
    simp only [Event.next, WakeLog.note]
    split
    · exact ok.start (of_decide_eq_true en)
    · exact ok.setFree (of_decide_eq_true en) rfl rfl rfl rfl rfl rfl
  | ownSubscribe i reg w =>
    exact (ok.ownSubscribe owners wf cond.2 (of_decide_eq_true en)).of_eq rfl rfl
  | subscribe i reg w =>
    exact (ok.subscribe owners wf cond.2 (of_decide_eq_true en)).of_eq rfl rfl
  | spawn i reg w inbox => exact ok.spawn owners wf (of_decide_eq_true en)
  | recv i reg w msg =>
    have at_ := of_decide_eq_true en
    have gone : Joining (s.left w) g := ok.of_eq rfl rfl
    refine gone.setCall at_ rfl (by simp) rfl (fun _ => rfl) rfl rfl fun k reg' r hk same => ?_
    cases same
    exact .inr ⟨msg, ok.inbox at_ rfl hk, rfl⟩
  | timeout i reg w =>
    have gone : Joining (s.left w) g := ok.of_eq rfl rfl
    refine gone.setCall (of_decide_eq_true en) rfl (by simp) rfl (fun _ => rfl) rfl rfl
      fun k reg' r hk same => ?_
    cases same
    exact .inl ⟨s.wakeTimeout, rfl⟩
  | dropRecv i reg w inbox =>
    have gone : Joining (s.left w) g := ok.of_eq rfl rfl
    exact gone.setCall (of_decide_eq_true en) rfl (by simp) rfl (fun _ => rfl) rfl rfl (by simp)
  | dropQuery i reg | evict i reg | reset i reg | remove i reg | queried i reg
  | refreshStore i reg | refreshReady i reg =>
    have outside := ok.scope (of_decide_eq_true en)
    simp [Call.inEnsure] at outside
  | acquire t reg w =>
    have taken : Joining (s.setPermits (s.permits - 1)) g := ok.of_eq rfl rfl
    exact taken.setTask (of_decide_eq_true en).1 rfl
  | scaled =>
    have freed : Joining (s.setPermits (s.permits + 1)) g := ok.of_eq rfl rfl
    simp only [Event.next]
    split <;> exact freed.setTask (of_decide_eq_true en) rfl
  | healthy =>
    simp only [Event.next]
    split <;> exact ok.setTask (of_decide_eq_true en) rfl
  | pollReceivers =>
    simp only [Event.next]
    split_ifs <;> exact ok.setTask (of_decide_eq_true en) rfl
  | publish t reg w ep =>
    have put : Joining (s.setEndpoint reg.jobId (some ep)) g := ok.of_eq rfl rfl
    exact put.setTask (of_decide_eq_true en) rfl
  | storeReady t reg w ep =>
    have stored : Joining (s.setStatus w .ready) g := ok.of_eq rfl rfl
    exact stored.setTask (of_decide_eq_true en) rfl
  | storeDormant t reg w why =>
    have stored : Joining (s.setStatus w .dormant) g := ok.of_eq rfl rfl
    exact stored.setTask (of_decide_eq_true en) rfl
  | sendReady | sendFailure => exact ok.send owners (of_decide_eq_true en) rfl rfl
  | removeEntry t reg w =>
    have dropped : Joining (s.setJob reg.jobId none) g := ok.of_eq rfl rfl
    exact dropped.setTask (of_decide_eq_true en) rfl

end Step

variable {n timeout : ℕ} {h : List Event} {s : State} {g : WakeLog}

/-- Whoever joins a wake after the failures of earlier ones were sent gets its result. -/
theorem outcomeOfWake_of_run (n timeout : ℕ) (h : List Event) (s : State) (g : WakeLog)
    (run : RunWhere (logged n timeout) JoinsAfterSend h (s, g)) : OutcomeOfWake s g := by
  have both : WellFormed (s, g).1 ∧ Owners (s, g).1 (s, g).2 ∧ Joining (s, g).1 (s, g).2 := by
    apply run.state_invariant fun p => WellFormed p.1 ∧ Owners p.1 p.2 ∧ Joining p.1 p.2
    · exact ⟨wellFormed_initial n timeout, owners_initial n timeout, joining_initial n timeout⟩
    · rintro h ⟨s, g⟩ ⟨t, g'⟩ e ⟨wf, owners, joining⟩ taken cond
      obtain ⟨step, rfl⟩ := System.logged_step.mp taken
      obtain ⟨en, rfl⟩ := step_iff.mp step
      exact ⟨wf.next en, owners.next wf en joining.scope cond.1, joining.next owners wf en cond⟩
  exact both.2.2.result

instance (h : List Event) (p : State × WakeLog) (e : Event) : Decidable (JoinsAfterSend h p e) := by
  unfold JoinsAfterSend EarlierSent; split <;> infer_instance

theorem sharedDone_outcome : ∃ h s g, RunWhere (logged 50 60) JoinsAfterSend h (s, g) ∧
    g.joined 1 = some 0 ∧ s.calls 1 = some (.ensured echoReg (.ok echoReady)) ∧
      OutcomeOfWake s g := by
  obtain ⟨h, ⟨s, g⟩, run, joined, ensured⟩ := exists_run (T := logged 50 60) (C := JoinsAfterSend)
    (fun _ p => p.2.joined 1 = some 0 ∧ p.1.calls 1 = some (.ensured echoReg (.ok echoReady)))
    sharedReady (by decide)
  exact ⟨h, s, g, run, joined, ensured, outcomeOfWake_of_run 50 60 h s g run⟩

/-- The wake of the first caller fails. Between its DORMANT store and its send, the second
caller starts a new wake and subscribes, and is told that the job was not found. -/
def joinsInTheGap : List Event :=
  let missing : WakeResult := .jobNotFound "echo-submit-job"
  [.begin (.ensureRunning echoReg), .fastPath 0 echoReg, .entry 0 echoReg, .load 0 echoReg 0,
    .tryStart 0 echoReg 0, .ownSubscribe 0 echoReg 0, .spawn 0 echoReg 0 none,
    .acquire 0 echoReg 0, .scaled 0 echoReg 0 (.error (.jobNotFound "echo-submit-job")),
    .begin (.ensureRunning echoReg), .fastPath 1 echoReg, .entry 1 echoReg,
    .storeDormant 0 echoReg 0 missing, .load 1 echoReg 0, .tryStart 1 echoReg 0,
    .ownSubscribe 1 echoReg 0, .sendFailure 0 echoReg 0 missing, .spawn 1 echoReg 0 (some missing),
    .recv 1 echoReg 0 missing]

theorem outcome_of_earlier_wake : ¬ ∀ h s g, RunWhere (logged 50 60) OnlyEnsures h (s, g) →
    OutcomeOfWake s g := by
  intro all
  obtain ⟨h, ⟨s, g⟩, run, joined, ensured, unsent⟩ := exists_run (T := logged 50 60)
    (C := OnlyEnsures)
    (fun _ p => p.2.joined 1 = some 1 ∧
      p.1.calls 1 = some (.ensured echoReg (.error (.jobNotFound "echo-submit-job"))) ∧
      p.2.sent 1 = none) joinsInTheGap (by decide)
  rcases all h s g run 1 1 echoReg _ joined ensured with ⟨elapsed, own⟩ | ⟨msg, sent, -⟩
  · cases own
  · cases unsent.symm.trans sent

end NScale.WakeCoordinator
