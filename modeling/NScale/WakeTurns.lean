import NScale.WakeOwner

/-!
# The wakes of one `WakeState` take turns

As long as only `ensure_running` is called, nobody but the task of the last winner stores a
status on a waking `WakeState`. Its wakes come one after the other, except that a failed
task stores DORMANT, which lets the next wake begin, before it sends its failure.
-/
namespace NScale.WakeCoordinator
open Transition

/-- Only `ensure_running` is called. -/
def OnlyEnsures : Condition (State × WakeLog) Event := fun _ _ e =>
  match e with
  | .begin (.ensureRunning _) => True
  | .begin _ => False
  | _ => True

instance (h : List Event) (p : State × WakeLog) (e : Event) : Decidable (OnlyEnsures h p e) := by
  unfold OnlyEnsures
  induction e using Event.casesOn with
  | begin op => induction op using Operation.casesOn <;> infer_instance
  | _ => infer_instance

/-- The `WakeState` on which a failed task has stored DORMANT with its failure still to send. -/
def Task.failing? : Task → Option ℕ
  | .sendFailure _ w _ => some w
  | _ => none

/-- No task of an earlier wake of the `WakeState` has its failure still to send. -/
def EarlierSent (s : State) (g : WakeLog) (w : ℕ) : Prop :=
  ∀ t < s.nextTask, (s.tasks t).bind Task.failing? = some w → g.starter t = g.winner w

/-- Positions of `ensure_running`. -/
def Call.inEnsure : Call → Bool
  | .evict _ _ | .reset _ _ | .remove _ _ | .cleared _ | .query _ _ => false
  | .refreshStore _ _ _ | .refreshReady _ _ _ | .refreshed _ _ => false
  | _ => true

/-- The caller in whose name a wake is under way. -/
def WakeLog.owner (g : WakeLog) : ℕ ⊕ ℕ → Option ℕ
  | .inl i => some i
  | .inr t => g.starter t

/-- Positions of a winner after it has spawned its task. -/
def Call.afterSpawn : Call → Bool
  | .recv _ _ _ | .ensured _ _ | .dropped => true
  | _ => false

lemma Call.wake?_afterSpawn {c : Call} (after : c.afterSpawn = true) : c.wake? = none := by
  cases c <;> first | rfl | simp [Call.afterSpawn] at after

@[simp] lemma Call.afterSpawn_deliver (w : ℕ) (msg : WakeResult) (c : Call) :
    (c.deliver w msg).afterSpawn = c.afterSpawn := by
  cases c with
  | spawn reg v inbox => cases inbox <;> rfl
  | recv reg v inbox => cases inbox <;> rfl
  | _ => rfl

/-- The wake of caller `k` on the `WakeState` has its broadcast to come. -/
def Live (s : State) (g : WakeLog) (k w : ℕ) : Prop :=
  (∃ p, s.wake (.inl k) = some p ∧ p.cell = w) ∨
    ∃ t l, g.starter t = some k ∧ s.tasks t = some l ∧ l.unsent? = some w

/-- The wakes of a run without resets: one at a time on each `WakeState`, up to its status
store, and one broadcast for each of them. -/
structure Owners (s : State) (g : WakeLog) : Prop where
  waking : ∀ {a p}, s.wake a = some p → p.waking = true →
    (s.cells p.cell).status = .waking ∧ g.winner p.cell = g.owner a
  ready : ∀ {t reg w ep}, s.tasks t = some (.sendReady reg w ep) →
    (s.cells w).status = .ready ∧ g.winner w = g.starter t
  started : ∀ {t k}, s.tasks t = some k → ∃ i, g.starter t = some i
  once : ∀ {t u i}, g.starter t = some i → g.starter u = some i → t = u
  spawned : ∀ {t i}, g.starter t = some i →
    t < s.nextTask ∧ ∃ c, s.calls i = some c ∧ c.afterSpawn = true
  sent : ∀ {k}, g.sent k ≠ none →
    ∃ t l, g.starter t = some k ∧ s.tasks t = some l ∧ l.unsent? = none
  live : ∀ {k w}, g.winner w = some k → g.sent k = none → Live s g k w

lemma owners_initial (n timeout : ℕ) : Owners (initial n timeout) .empty := by
  constructor <;> intros <;> simp_all [initial, WakeLog.empty, State.wake]
  rename_i a p hp hw
  cases a <;> simp at hp

namespace Owners
variable {s s' : State} {g : WakeLog} {i t u w : ℕ} {c c' : Call} {k k' : Task}

/-- At most one wake of a `WakeState` has its status store to come. -/
lemma single (ok : Owners s g) {a b : ℕ ⊕ ℕ} {p q : Wake} (hp : s.wake a = some p)
    (hq : s.wake b = some q) (pw : p.waking = true) (qw : q.waking = true)
    (cell : p.cell = q.cell) : a = b := by
  have same : g.owner a = g.owner b := by
    rw [← (ok.waking hp pw).2, ← (ok.waking hq qw).2, cell]
  have apart : ∀ {j v}, s.wake (.inl j) ≠ none → g.starter v ≠ some j := by
    intro j v pending starter
    obtain ⟨-, c, hc, after⟩ := ok.spawned starter
    exact pending (by simp [State.wake, hc, Call.wake?_afterSpawn after])
  cases a with
  | inl j =>
    cases b with
    | inl m => exact congrArg Sum.inl (Option.some.inj same)
    | inr v => exact absurd same.symm (apart (by simp [hp]))
  | inr v =>
    cases b with
    | inl m => exact absurd same (apart (by simp [hq]))
    | inr x =>
      obtain ⟨l, hl, -⟩ := Option.bind_eq_some_iff.mp hp
      obtain ⟨j, hj⟩ := ok.started hl
      exact congrArg Sum.inr (ok.once hj (same.symm.trans hj))

/-- A wake whose task has not sent has no result in the log. -/
lemma unsent (ok : Owners s g) {j : ℕ} (starter : g.starter t = some j) (at_ : s.tasks t = some k)
    (unsent : k.unsent? = some w) : g.sent j = none := by
  by_contra done
  obtain ⟨u, l, hu, hl, none_⟩ := ok.sent done
  obtain rfl := ok.once starter hu
  obtain rfl : k = l := Option.some.inj (at_.symm.trans hl)
  simp [unsent] at none_

/-- On the `WakeState` of a live wake, the failures of earlier wakes being sent, every task
that has still to send belongs to the last winner. -/
lemma starter_of_unsent (ok : Owners s g) (wf : WellFormed s) (sent : EarlierSent s g w)
    (at_ : s.tasks t = some k) (unsent : k.unsent? = some w) : g.starter t = g.winner w := by
  have pending : ∀ job, k.wake? = some ⟨job, w, true⟩ → g.starter t = g.winner w := by
    intro job mine
    have hp : s.wake (.inr t) = some ⟨job, w, true⟩ := by simp [State.wake, at_, mine]
    exact (ok.waking hp rfl).2.symm
  cases k with
  | sendReady reg v ep =>
    obtain rfl := Option.some.inj unsent
    exact (ok.ready at_).2.symm
  | sendFailure reg v why => exact sent t (wf.tasks at_) (by simpa [at_, Task.failing?, Task.unsent?] using unsent)
  | removeEntry | finished => simp [Task.unsent?] at unsent
  | acquire reg | scaleUp reg | health reg | publish reg | storeReady reg | storeDormant reg =>
    obtain rfl := Option.some.inj unsent
    exact pending reg.jobId rfl

lemma of_wake (ok : Owners s g) (wf : WellFormed s) (wake : s'.wake = s.wake)
    (tasks : s'.tasks = s.tasks) (next : s'.nextTask = s.nextTask)
    (past : ∀ {i c}, s.calls i = some c → c.afterSpawn = true →
      ∃ c', s'.calls i = some c' ∧ c'.afterSpawn = true)
    (status : ∀ v < s.nextCell, (s'.cells v).status = (s.cells v).status) : Owners s' g where
  waking hp hw := by
    have old := wake ▸ hp
    rw [status _ (wf.wake_holds old).1]
    exact ok.waking old hw
  ready ht := by
    have old := tasks ▸ ht
    rw [status _ (wf.taskCell old rfl).1]
    exact ok.ready old
  started ht := ok.started (tasks ▸ ht)
  once := ok.once
  spawned hs := by
    obtain ⟨fresh, c, hc, after⟩ := ok.spawned hs
    exact ⟨next ▸ fresh, past hc after⟩
  sent hs := by simpa only [tasks] using ok.sent hs
  live hw hs := by simpa only [Live, wake, tasks] using ok.live hw hs

/-- A caller moves on without starting or handing over a wake. -/
lemma setCall (ok : Owners s g) (wf : WellFormed s) (at_ : s.calls i = some c)
    (same : c'.wake? = c.wake?) (past : c.afterSpawn = true → c'.afterSpawn = true) :
    Owners (s.setCall i c') g := by
  refine ok.of_wake wf (wake_setCall at_ same) rfl rfl (fun {j d} hd after => ?_) fun _ _ => rfl
  by_cases hj : j = i
  · subst hj
    obtain rfl : c = d := Option.some.inj (at_.symm.trans hd)
    exact ⟨c', by simp, past after⟩
  · exact ⟨d, by simpa [hj] using hd, after⟩

lemma setEndpoint (ok : Owners s g) (wf : WellFormed s) {job : JobId} {ep : Option Endpoint} :
    Owners (s.setEndpoint job ep) g :=
  ok.of_wake wf rfl rfl rfl (fun hc after => ⟨_, hc, after⟩) fun _ _ => rfl

lemma setJob (ok : Owners s g) (wf : WellFormed s) {job : JobId} {v : Option ℕ} :
    Owners (s.setJob job v) g :=
  ok.of_wake wf rfl rfl rfl (fun hc after => ⟨_, hc, after⟩) fun _ _ => rfl

lemma setPermits (ok : Owners s g) (wf : WellFormed s) {n : ℕ} : Owners (s.setPermits n) g :=
  ok.of_wake wf rfl rfl rfl (fun hc after => ⟨_, hc, after⟩) fun _ _ => rfl

lemma setReceivers (ok : Owners s g) (wf : WellFormed s) {n : ℕ} :
    Owners (s.setReceivers w n) g := by
  refine ok.of_wake wf rfl rfl rfl (fun hc after => ⟨_, hc, after⟩) fun v _ => ?_
  by_cases hv : v = w
  · simp [hv]
  · simp [hv]

lemma orInsert (ok : Owners s g) (wf : WellFormed s) {job : JobId} :
    Owners (s.orInsert job).1 g := by
  unfold State.orInsert
  split
  · exact ok
  · refine ok.of_wake wf rfl rfl rfl (fun hc after => ⟨_, hc, after⟩) fun v hv => ?_
    simp [hv.ne]

/-- A task that neither stores a status nor sends moves on. -/
lemma setTask (ok : Owners s g) (at_ : s.tasks t = some k) (same : k'.wake? = k.wake?)
    (unsent : k'.unsent? = k.unsent?) (other : ∀ reg w ep, k' ≠ .sendReady reg w ep) :
    Owners (s.setTask t k') g := by
  have wake := wake_setTask at_ same
  have now : ∀ {u l}, s.tasks u = some l →
      ∃ l', (s.setTask t k').tasks u = some l' ∧ l'.unsent? = l.unsent? := by
    intro u l hl
    by_cases hu : u = t
    · subst hu
      obtain rfl : k = l := Option.some.inj (at_.symm.trans hl)
      exact ⟨k', by simp, unsent⟩
    · exact ⟨l, by simpa [hu] using hl, rfl⟩
  constructor
  · exact fun hp hw => ok.waking (wake ▸ hp) hw
  · intro u reg w ep hu
    by_cases hut : u = t
    · subst hut
      exact absurd (by simpa using hu) (other reg w ep)
    · exact ok.ready (by simpa [hut] using hu)
  · intro u l hu
    by_cases hut : u = t
    · exact hut ▸ ok.started at_
    · exact ok.started (by simpa [hut] using hu)
  · exact ok.once
  · exact ok.spawned
  · intro j hs
    obtain ⟨u, l, hu, hl, none_⟩ := ok.sent hs
    obtain ⟨l', hl', same'⟩ := now hl
    exact ⟨u, l', hu, hl', same'.trans none_⟩
  · intro j w hw hs
    rcases ok.live hw hs with caller | ⟨u, l, hu, hl, some_⟩
    · exact .inl (wake ▸ caller)
    · obtain ⟨l', hl', same'⟩ := now hl
      exact .inr ⟨u, l', hu, hl', same'.trans some_⟩

/-- The winner of the race takes over a `WakeState` that was dormant. -/
lemma start (ok : Owners s g) {reg : JobRegistration} (at_ : s.calls i = some (.tryStart reg w))
    (dormant : (s.cells w).status = .dormant) :
    Owners ((s.setStatus w .waking).setCall i (.ownSubscribe reg w)) (g.won i w) := by
  have calls : ∀ {j d}, s.calls j = some d → d.wake? ≠ none ∨ d.afterSpawn = true → j ≠ i := by
    rintro j d hd kind rfl
    obtain rfl : Call.tryStart reg w = d := Option.some.inj (at_.symm.trans hd)
    simp [Call.wake?, Call.afterSpawn] at kind
  have live : ∀ {j v}, Live s g j v →
      Live ((s.setStatus w .waking).setCall i (.ownSubscribe reg w)) (g.won i w) j v := by
    rintro j v (⟨p, hp, hc⟩ | task)
    · obtain ⟨d, hd, hw⟩ := Option.bind_eq_some_iff.mp hp
      have other := calls hd (.inl (by simp [hw]))
      exact .inl ⟨p, by simpa [State.wake, other] using hp, hc⟩
    · exact .inr task
  constructor
  · intro a p hp hw
    by_cases ha : a = .inl i
    · subst ha
      obtain rfl : (⟨reg.jobId, w, true⟩ : Wake) = p := by
        simpa [State.wake, Call.wake?] using hp
      simp [WakeLog.owner]
    · have old : s.wake a = some p := by
        cases a with
        | inl j => simpa [State.wake, show j ≠ i by simpa using ha] using hp
        | inr u => exact hp
      obtain ⟨status, winner⟩ := ok.waking old hw
      have other : p.cell ≠ w := by
        rintro rfl
        simp [dormant] at status
      cases a <;> simpa [other, WakeLog.owner] using ⟨status, winner⟩
  · intro t reg' v ep ht
    obtain ⟨status, winner⟩ := ok.ready ht
    have other : v ≠ w := by
      rintro rfl
      simp [dormant] at status
    simpa [other] using ⟨status, winner⟩
  · exact ok.started
  · exact ok.once
  · intro t j hs
    obtain ⟨fresh, c, hc, after⟩ := ok.spawned hs
    exact ⟨fresh, c, by simpa [calls hc (.inr after)] using hc, after⟩
  · exact ok.sent
  · intro j v hw hs
    by_cases hv : v = w
    · subst hv
      obtain rfl : i = j := by simpa using hw
      exact .inl ⟨⟨reg.jobId, v, true⟩, by simp [State.wake, Call.wake?], rfl⟩
    · exact live (ok.live (by simpa [hv] using hw) hs)

/-- The winner hands its wake over to the task it spawns. -/
lemma spawn (ok : Owners s g) (wf : WellFormed s) {reg : JobRegistration}
    {inbox : Option WakeResult} (at_ : s.calls i = some (.spawn reg w inbox)) :
    Owners (Event.next s (.spawn i reg w inbox)) (g.spawned i s.nextTask) := by
  have mine : s.wake (.inl i) = some ⟨reg.jobId, w, true⟩ := by simp [State.wake, at_, Call.wake?]
  obtain ⟨status, winner⟩ := ok.waking mine rfl
  have old : ∀ {u l}, s.tasks u = some l → u ≠ s.nextTask := fun hl => (wf.tasks hl).ne
  have named : ∀ {u j}, g.starter u = some j → u ≠ s.nextTask := fun hu => (ok.spawned hu).1.ne
  have first : ∀ {u}, g.starter u ≠ some i := by
    intro u hu
    obtain ⟨-, c, hc, after⟩ := ok.spawned hu
    obtain rfl : Call.spawn reg w inbox = c := Option.some.inj (at_.symm.trans hc)
    simp [Call.afterSpawn] at after
  constructor
  · intro a p hp hw
    cases a with
    | inl j =>
      have other : j ≠ i := by
        rintro rfl
        simp [State.wake, Event.next, Call.wake?] at hp
      exact ok.waking (a := .inl j) (by simpa [State.wake, Event.next, other] using hp) hw
    | inr u =>
      by_cases hu : u = s.nextTask
      · subst hu
        obtain rfl : (⟨reg.jobId, w, true⟩ : Wake) = p := by
          simpa [State.wake, Event.next, Task.wake?] using hp
        exact ⟨status, by simpa [WakeLog.owner] using winner⟩
      · have := ok.waking (a := .inr u) (by simpa [State.wake, Event.next, hu] using hp) hw
        simpa [WakeLog.owner, Event.next, hu] using this
  · intro u reg' v ep hu
    have hut : u ≠ s.nextTask := by
      rintro rfl
      simp [Event.next] at hu
    have := ok.ready (t := u) (by simpa [Event.next, hut] using hu)
    simpa [Event.next, hut] using this
  · intro u l hu
    by_cases hut : u = s.nextTask
    · exact ⟨i, by simp [hut]⟩
    · obtain ⟨j, hj⟩ := ok.started (by simpa [Event.next, hut] using hu)
      exact ⟨j, by simpa [hut] using hj⟩
  · intro t u j ht hu
    by_cases htn : t = s.nextTask <;> by_cases hun : u = s.nextTask
    · exact htn.trans hun.symm
    · obtain rfl : i = j := by simpa [htn] using ht
      exact absurd (by simpa [hun] using hu) first
    · obtain rfl : i = j := by simpa [hun] using hu
      exact absurd (by simpa [htn] using ht) first
    · exact ok.once (by simpa [htn] using ht) (by simpa [hun] using hu)
  · intro t j ht
    by_cases htn : t = s.nextTask
    · obtain rfl : i = j := by simpa [htn] using ht
      exact ⟨htn ▸ Nat.lt_succ_self _, .recv reg w inbox, by simp [Event.next], rfl⟩
    · have starter : g.starter t = some j := by simpa [htn] using ht
      obtain ⟨fresh, c, hc, after⟩ := ok.spawned starter
      have other : j ≠ i := fun hj => first (hj ▸ starter)
      exact ⟨fresh.trans (Nat.lt_succ_self _), c, by simpa [Event.next, other] using hc, after⟩
  · intro j hs
    obtain ⟨t, l, ht, hl, none_⟩ := ok.sent hs
    exact ⟨t, l, by simpa [named ht] using ht, by simpa [Event.next, old hl] using hl, none_⟩
  · intro j v hw hs
    rcases ok.live hw hs with ⟨p, hp, hc⟩ | ⟨t, l, ht, hl, some_⟩
    · by_cases hj : j = i
      · subst hj
        obtain rfl := Option.some.inj (mine.symm.trans hp)
        exact .inr ⟨s.nextTask, .acquire reg w, by simp, by simp [Event.next], congrArg some hc⟩
      · exact .inl ⟨p, by simpa [State.wake, Event.next, hj] using hp, hc⟩
    · exact .inr ⟨t, l, by simpa [named ht] using ht, by simpa [Event.next, old hl] using hl, some_⟩

/-- The task of the last winner stores its final status. -/
lemma settle (ok : Owners s g) {job : JobId} {status : Status} (at_ : s.tasks t = some k)
    (mine : k.wake? = some ⟨job, w, true⟩) (unsent : k.unsent? = some w)
    (calm : ∀ q, k'.wake? = some q → q.waking = false) (unsent' : k'.unsent? = some w)
    (ready : ∀ reg v ep, k' = .sendReady reg v ep → v = w ∧ status = .ready) :
    Owners ((s.setStatus w status).setTask t k') g := by
  have hp : s.wake (.inr t) = some ⟨job, w, true⟩ := by simp [State.wake, at_, mine]
  obtain ⟨waking, winner⟩ := ok.waking hp rfl
  have now : ∀ {u l}, s.tasks u = some l → ∃ l',
      ((s.setStatus w status).setTask t k').tasks u = some l' ∧ l'.unsent? = l.unsent? := by
    intro u l hl
    by_cases hu : u = t
    · subst hu
      obtain rfl : k = l := Option.some.inj (at_.symm.trans hl)
      exact ⟨k', by simp, unsent'.trans unsent.symm⟩
    · exact ⟨l, by simpa [hu] using hl, rfl⟩
  constructor
  · intro a q hq hw
    have ha : a ≠ .inr t := by
      rintro rfl
      simp [calm q (by simpa [State.wake] using hq)] at hw
    have old : s.wake a = some q := by
      cases a with
      | inl j => exact hq
      | inr u => simpa [State.wake, show u ≠ t by simpa using ha] using hq
    have other : q.cell ≠ w := fun hc => ha (ok.single old hp hw rfl hc)
    simpa [other] using ok.waking old hw
  · intro u reg v ep hu
    by_cases hut : u = t
    · subst hut
      obtain ⟨rfl, rfl⟩ := ready reg v ep (by simpa using hu)
      exact ⟨by simp, winner⟩
    · have old := ok.ready (t := u) (by simpa [hut] using hu)
      have other : v ≠ w := by
        rintro rfl
        simp [waking] at old
      simpa [other] using old
  · intro u l hu
    by_cases hut : u = t
    · exact hut ▸ ok.started at_
    · exact ok.started (by simpa [hut] using hu)
  · exact ok.once
  · exact ok.spawned
  · intro j hs
    obtain ⟨u, l, hu, hl, none_⟩ := ok.sent hs
    obtain ⟨l', hl', same⟩ := now hl
    exact ⟨u, l', hu, hl', same.trans none_⟩
  · intro j v hw hs
    rcases ok.live hw hs with caller | ⟨u, l, hu, hl, some_⟩
    · exact .inl caller
    · obtain ⟨l', hl', same⟩ := now hl
      exact .inr ⟨u, l', hu, hl', same.trans some_⟩

/-- A task broadcasts its result and has nothing left to send. -/
lemma send (ok : Owners s g) (at_ : s.tasks t = some k) {msg : WakeResult}
    (calm : ∀ q, k'.wake? = some q → q.waking = false) (done : k'.unsent? = none) :
    Owners ((s.broadcast w msg).setTask t k') (g.broadcast t msg) := by
  obtain ⟨j, hj⟩ := ok.started at_
  have sent : (g.broadcast t msg).sent = Function.update g.sent j (some msg) := by
    simp [WakeLog.broadcast, hj]
  have wake : ∀ a, a ≠ .inr t → ((s.broadcast w msg).setTask t k').wake a = s.wake a := by
    intro a ha
    cases a with
    | inl m => exact congrFun wake_broadcast (.inl m)
    | inr u =>
      have hu : u ≠ t := by simpa using ha
      simp [State.wake, hu]
  constructor
  · intro a q hq hw
    have ha : a ≠ .inr t := by
      rintro rfl
      simp [calm q (by simpa [State.wake] using hq)] at hw
    have old := ok.waking (wake a ha ▸ hq) hw
    cases a <;> simpa [WakeLog.owner] using old
  · intro u reg v ep hu
    have hut : u ≠ t := by
      rintro rfl
      obtain rfl : k' = .sendReady reg v ep := by simpa using hu
      simp [Task.unsent?] at done
    simpa using ok.ready (t := u) (by simpa [hut] using hu)
  · intro u l hu
    by_cases hut : u = t
    · exact ⟨j, by simpa [hut] using hj⟩
    · simpa using ok.started (by simpa [hut] using hu)
  · exact fun ht hu => ok.once (by simpa using ht) (by simpa using hu)
  · intro u m hu
    obtain ⟨fresh, c, hc, after⟩ := ok.spawned (by simpa using hu)
    exact ⟨fresh, c.deliver w msg, by simp [hc], by simpa using after⟩
  · intro m hm
    by_cases hmj : m = j
    · exact ⟨t, k', by simp [hj, hmj], by simp, done⟩
    · obtain ⟨u, l, hu, hl, none_⟩ := ok.sent (by simpa [sent, hmj] using hm)
      have hut : u ≠ t := by
        rintro rfl
        exact hmj (Option.some.inj (hu.symm.trans hj))
      exact ⟨u, l, by simpa using hu, by simpa [hut] using hl, none_⟩
  · intro m v hw hm
    have hmj : m ≠ j := by
      rintro rfl
      simp [sent] at hm
    rcases ok.live (by simpa using hw) (by simpa [sent, hmj] using hm) with
      ⟨p, hp, hc⟩ | ⟨u, l, hu, hl, some_⟩
    · exact .inl ⟨p, by rwa [wake _ (by simp)], hc⟩
    · have hut : u ≠ t := by
        rintro rfl
        exact hmj (Option.some.inj (hu.symm.trans hj))
      exact .inr ⟨u, l, by simpa using hu, by simpa [hut] using hl, some_⟩

/-- A task that has sent moves on. -/
lemma finish (ok : Owners s g) (at_ : s.tasks t = some k)
    (calm : ∀ q, k'.wake? = some q → q.waking = false) (done : k.unsent? = none)
    (done' : k'.unsent? = none) : Owners (s.setTask t k') g := by
  constructor
  · intro a q hq hw
    have ha : a ≠ .inr t := by
      rintro rfl
      simp [calm q (by simpa [State.wake] using hq)] at hw
    have old : s.wake a = some q := by
      cases a with
      | inl j => exact hq
      | inr u => simpa [State.wake, show u ≠ t by simpa using ha] using hq
    exact ok.waking old hw
  · intro u reg v ep hu
    have hut : u ≠ t := by
      rintro rfl
      obtain rfl : k' = .sendReady reg v ep := by simpa using hu
      simp [Task.unsent?] at done'
    exact ok.ready (by simpa [hut] using hu)
  · intro u l hu
    by_cases hut : u = t
    · exact hut ▸ ok.started at_
    · exact ok.started (by simpa [hut] using hu)
  · exact ok.once
  · exact ok.spawned
  · intro j hs
    obtain ⟨u, l, hu, hl, none_⟩ := ok.sent hs
    by_cases hut : u = t
    · exact ⟨u, k', hu, by simp [hut], done'⟩
    · exact ⟨u, l, hu, by simpa [hut] using hl, none_⟩
  · intro j v hw hs
    rcases ok.live hw hs with caller | ⟨u, l, hu, hl, some_⟩
    · exact .inl caller
    · have hut : u ≠ t := by
        rintro rfl
        obtain rfl : k = l := Option.some.inj (at_.symm.trans hl)
        simp [done] at some_
      exact .inr ⟨u, l, hu, by simpa [hut] using hl, some_⟩

end Owners

section Step
variable {h : List Event} {s : State} {g : WakeLog} {e : Event}

/-- A step of a run of `ensure_running` callers keeps the wakes in order. -/
theorem Owners.next (ok : Owners s g) (wf : WellFormed s) (en : e.enabled s = true)
    (scope : ∀ {i c}, s.calls i = some c → c.inEnsure = true) (cond : OnlyEnsures h (s, g) e) :
    Owners (e.next s) (g.note s e) := by
  cases e with
  | begin op =>
    cases op with
    | ensureRunning reg =>
      have old : ∀ {j d}, s.calls j = some d → j ≠ s.nextCall := fun hd => (wf.calls hd).ne
      refine ok.of_wake wf (funext fun a => ?_) rfl rfl (fun {j d} hd after => ?_) fun _ _ => rfl
      · cases a with
        | inl j =>
          by_cases hj : j = s.nextCall
          · have none_ : s.calls s.nextCall = none :=
              Option.eq_none_iff_forall_not_mem.mpr fun d hd => old hd rfl
            simp [State.wake, Event.next, hj, none_, Operation.call, Call.wake?]
          · simp [State.wake, Event.next, hj]
        | inr u => rfl
      · exact ⟨d, by simpa [Event.next, old hd] using hd, after⟩
    | markDormant | invalidate | refreshEndpoint => exact cond.elim
  | entry i reg =>
    have at_ : (s.orInsert reg.jobId).1.calls i = some (.entry reg) := by
      simpa using of_decide_eq_true en
    exact (ok.orInsert wf).setCall wf.orInsert at_ rfl (by simp [Call.afterSpawn])
  | fastPath | cached | load | fetched =>
    simp only [Event.next]
    split <;> exact ok.setCall wf (of_decide_eq_true en) rfl (by simp [Call.afterSpawn])
  | store =>
    exact (ok.setEndpoint wf).setCall wf.setEndpoint (of_decide_eq_true en) rfl
      (by simp [Call.afterSpawn])
  | subscribe i reg w =>
    have moved : Owners (Event.next s (.subscribe i reg w)) g :=
      (ok.setReceivers wf).setCall wf.joined (of_decide_eq_true en) rfl (by simp [Call.afterSpawn])
    exact ⟨moved.waking, moved.ready, moved.started, moved.once, moved.spawned, moved.sent,
      moved.live⟩
  | tryStart i reg w =>
    simp only [Event.next, WakeLog.note]
    split
    next dormant => exact ok.start (of_decide_eq_true en) dormant
    next => exact ok.setCall wf (of_decide_eq_true en) rfl (by simp [Call.afterSpawn])
  | ownSubscribe i reg w =>
    exact (ok.setReceivers wf).setCall wf.joined (of_decide_eq_true en) rfl
      (by simp [Call.afterSpawn])
  | spawn i reg w inbox => exact ok.spawn wf (of_decide_eq_true en)
  | recv | timeout | dropRecv =>
    exact (ok.setReceivers wf).setCall wf.left (of_decide_eq_true en) rfl
      (by simp [Call.afterSpawn])
  | dropFetch => exact ok.setCall wf (of_decide_eq_true en) rfl (by simp [Call.afterSpawn])
  | dropQuery i reg | evict i reg | reset i reg | remove i reg | queried i reg
  | refreshStore i reg | refreshReady i reg =>
    have outside := scope (of_decide_eq_true en)
    simp [Call.inEnsure] at outside
  | acquire t reg w => exact (ok.setPermits wf).setTask (of_decide_eq_true en).1 rfl rfl (by simp)
  | scaled =>
    simp only [Event.next]
    split <;> exact (ok.setPermits wf).setTask (of_decide_eq_true en) rfl rfl (by simp)
  | healthy =>
    simp only [Event.next]
    split <;> exact ok.setTask (of_decide_eq_true en) rfl rfl (by simp)
  | pollReceivers =>
    simp only [Event.next]
    split_ifs <;> exact ok.setTask (of_decide_eq_true en) rfl rfl (by simp)
  | publish => exact (ok.setEndpoint wf).setTask (of_decide_eq_true en) rfl rfl (by simp)
  | storeReady t reg w ep =>
    refine ok.settle (of_decide_eq_true en) rfl rfl (fun q hq => ?_) rfl fun reg' v ep' same => ?_
    · obtain rfl := Option.some.inj hq
      rfl
    · cases same
      exact ⟨rfl, rfl⟩
  | storeDormant t reg w why =>
    refine ok.settle (of_decide_eq_true en) rfl rfl (fun q hq => ?_) rfl (by simp)
    obtain rfl := Option.some.inj hq
    rfl
  | sendReady t reg w ep => exact ok.send (of_decide_eq_true en) (by simp [Task.wake?]) rfl
  | sendFailure t reg w why =>
    refine ok.send (of_decide_eq_true en) (fun q hq => ?_) rfl
    obtain rfl := Option.some.inj hq
    rfl
  | removeEntry t reg w =>
    have at_ := of_decide_eq_true en
    exact (ok.setJob wf).finish at_ (by simp [Task.wake?]) rfl rfl

end Step
end NScale.WakeCoordinator
