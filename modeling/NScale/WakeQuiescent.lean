import NScale.WakeBackend
import NScale.WakeOwner
import NScale.WakePermits

/-!
# The coordinator at rest

`ensure_running` answers "not ready" from an entry that is marked ready without an endpoint
in the cache. An entry is backed while its endpoint is cached, or an eviction that will drop
it is under way; a `WakeState` is waking only while some wake has its status store to come.
-/
namespace NScale.WakeCoordinator
open Transition

/-- The job whose endpoint a caller has evicted and whose entry it is about to drop. -/
def Call.evicting? : Call → Option JobId
  | .reset job _ | .remove job _ => some job
  | _ => none

def State.Evicting (s : State) (job : JobId) : Prop :=
  ∃ i c, s.calls i = some c ∧ c.evicting? = some job

def State.Backed (s : State) (job : JobId) : Prop :=
  s.endpoints job ≠ none ∨ s.Evicting job

/-- When `refresh_endpoint` marks the entry of its job ready, the endpoint is still cached
or the entry is about to be dropped. -/
def RefreshesBacked : Condition State Event := fun _ s e =>
  match e with
  | .refreshReady _ reg _ _ => s.jobs reg.jobId ≠ none → s.Backed reg.jobId
  | _ => True

structure ReadyBacked (s : State) : Prop where
  mapped : ∀ {job w}, s.jobs job = some w → (s.cells w).status = .ready → s.Backed job
  stored : ∀ {t reg w ep}, s.tasks t = some (.storeReady reg w ep) →
    s.jobs reg.jobId = some w → s.Backed reg.jobId

lemma readyBacked_initial (n timeout : ℕ) : ReadyBacked (initial n timeout) := by
  constructor <;> intros <;> simp_all [initial]

section Backed
variable {s s' : State} {i : ℕ} {c c' : Call} {job j : JobId} {ep : Endpoint}

lemma State.Backed.of_eq (backed : s.Backed job) (endpoints : s'.endpoints = s.endpoints)
    (calls : s'.calls = s.calls) : s'.Backed job := by
  simpa only [State.Backed, State.Evicting, endpoints, calls] using backed

/-- A caller that is not evicting moves on. -/
lemma State.Backed.setCall (backed : s.Backed job) (c' : Call) (at_ : s.calls i = some c)
    (idle : c.evicting? = none) : (s.setCall i c').Backed job := by
  rcases backed with cached | ⟨k, d, hd, he⟩
  · exact .inl cached
  · have other : k ≠ i := by
      rintro rfl
      obtain rfl : c = d := Option.some.inj (at_.symm.trans hd)
      simp [idle] at he
    exact .inr ⟨k, d, by simpa [other] using hd, he⟩

lemma State.Backed.setEndpoint (backed : s.Backed job) :
    (s.setEndpoint j (some ep)).Backed job := by
  rcases backed with cached | evicting
  · refine .inl ?_
    by_cases hj : job = j
    · simp [hj]
    · simpa [hj] using cached
  · exact .inr evicting

lemma State.Backed.broadcast (backed : s.Backed job) {w : ℕ} {msg : WakeResult} :
    (s.broadcast w msg).Backed job := by
  rcases backed with cached | ⟨k, d, hd, he⟩
  · exact .inl cached
  · have same : d.deliver w msg = d := by cases d <;> simp_all [Call.evicting?, Call.deliver]
    exact .inr ⟨k, d, by simp [hd, same], he⟩

end Backed

namespace ReadyBacked
variable {s s' : State} {i t w : ℕ} {c c' : Call} {k k' : Task} {job : JobId} {ep : Endpoint}

/-- Entries, ready statuses and pending status stores may go; what backs a job stays. -/
lemma mono (ok : ReadyBacked s) (jobs : ∀ {job w}, s'.jobs job = some w → s.jobs job = some w)
    (status : ∀ {w}, (s'.cells w).status = .ready → (s.cells w).status = .ready)
    (tasks : ∀ {t reg w ep}, s'.tasks t = some (.storeReady reg w ep) →
      s.tasks t = some (.storeReady reg w ep))
    (backed : ∀ {job w}, s'.jobs job = some w → s.Backed job → s'.Backed job) :
    ReadyBacked s' where
  mapped hj hr := backed hj (ok.mapped (jobs hj) (status hr))
  stored ht hj := backed hj (ok.stored (tasks ht) (jobs hj))

lemma setCall (ok : ReadyBacked s) (at_ : s.calls i = some c) (idle : c.evicting? = none) :
    ReadyBacked (s.setCall i c') :=
  ok.mono id id id fun _ backed => backed.setCall c' at_ idle

lemma setTask (ok : ReadyBacked s) (other : ∀ reg w ep, k' ≠ .storeReady reg w ep) :
    ReadyBacked (s.setTask t k') := by
  refine ok.mono id id (fun {u reg w ep} hu => ?_) fun _ backed => backed.of_eq rfl rfl
  by_cases hut : u = t
  · subst hut
    exact absurd (by simpa using hu) (other reg w ep)
  · simpa [hut] using hu

lemma setEndpoint (ok : ReadyBacked s) : ReadyBacked (s.setEndpoint job (some ep)) :=
  ok.mono id id id fun _ backed => backed.setEndpoint

lemma broadcast (ok : ReadyBacked s) {msg : WakeResult} : ReadyBacked (s.broadcast w msg) :=
  ok.mono id id id fun _ backed => backed.broadcast

lemma setPermits (ok : ReadyBacked s) {n : ℕ} : ReadyBacked (s.setPermits n) :=
  ok.mono id id id fun _ backed => backed.of_eq rfl rfl

/-- Cells may change in anything but to ready. -/
lemma setCell (ok : ReadyBacked s) {cell : WakeState}
    (unready : cell.status = .ready → (s.cells w).status = .ready) :
    ReadyBacked { s with cells := Function.update s.cells w cell } := by
  refine ok.mono id (fun {v} hv => ?_) id fun _ backed => backed.of_eq rfl rfl
  by_cases hw : v = w
  · subst hw; exact unready (by simpa using hv)
  · simpa [hw] using hv

lemma setReceivers (ok : ReadyBacked s) {n : ℕ} : ReadyBacked (s.setReceivers w n) :=
  ok.setCell id

lemma setStatus (ok : ReadyBacked s) {status : Status} (unready : status ≠ .ready) :
    ReadyBacked (s.setStatus w status) := ok.setCell fun h => absurd h unready

/-- A ready status may be stored where the mapped job is backed. -/
lemma setReady (ok : ReadyBacked s) (backed : ∀ job, s.jobs job = some w → s.Backed job) :
    ReadyBacked (s.setStatus w .ready) where
  mapped := by
    intro job v hv hr
    by_cases hw : v = w
    · subst hw; exact (backed job hv).of_eq rfl rfl
    · exact (ok.mapped hv (by simpa [hw] using hr)).of_eq rfl rfl
  stored ht hj := (ok.stored ht hj).of_eq rfl rfl

lemma orInsert (ok : ReadyBacked s) (wf : WellFormed s) : ReadyBacked (s.orInsert job).1 := by
  unfold State.orInsert
  split
  · exact ok
  refine ⟨?_, ?_⟩
  · intro j v hv hr
    have old : v ≠ s.nextCell := by rintro rfl; simp at hr
    have hj : j ≠ job := by
      rintro rfl
      exact old (by simpa using hv.symm)
    exact (ok.mapped (by simpa [hj] using hv) (by simpa [old] using hr)).of_eq rfl rfl
  · intro t reg v ep ht hv
    have old : v ≠ s.nextCell := (wf.taskCell ht rfl).1.ne
    have hj : reg.jobId ≠ job := by
      intro hj
      exact old (by simpa [hj] using hv.symm)
    exact (ok.stored ht (by simpa [hj] using hv)).of_eq rfl rfl

/-- Dropping an entry leaves nothing to be backed under its key. -/
lemma removeJob (ok : ReadyBacked s) (job : JobId) (backed : ∀ j, j ≠ job → s.Backed j → s'.Backed j)
    (jobs : s'.jobs = Function.update s.jobs job none) (cells : s'.cells = s.cells)
    (tasks : ∀ {t reg w ep}, s'.tasks t = some (.storeReady reg w ep) →
      s.tasks t = some (.storeReady reg w ep)) : ReadyBacked s' := by
  have other : ∀ {j v}, s'.jobs j = some v → j ≠ job := by
    rintro j v hv rfl
    simp [jobs] at hv
  exact ok.mono (fun hv => by simpa [jobs, other hv] using hv) (fun hr => cells ▸ hr) tasks
    fun hv => backed _ (other hv)

/-- One step under the condition keeps every ready entry backed. -/
theorem next {h : List Event} {e : Event} (ok : ReadyBacked s) (wf : WellFormed s)
    (en : e.enabled s = true) (cond : RefreshesBacked h s e) : ReadyBacked (e.next s) := by
  cases e with
  | begin op =>
    refine ok.mono id id id fun _ backed => ?_
    rcases backed with cached | ⟨k, d, hd, he⟩
    · exact .inl cached
    · have old : k ≠ s.nextCall := (wf.calls hd).ne
      exact .inr ⟨k, d, by simpa [Event.next, old] using hd, he⟩
  | entry i reg =>
    have at_ : (s.orInsert reg.jobId).1.calls i = some (.entry reg) := by
      simpa using of_decide_eq_true en
    exact (ok.orInsert wf).setCall at_ rfl
  | fastPath | load | cached | fetched | queried =>
    simp only [Event.next]
    split <;> exact ok.setCall (of_decide_eq_true en) rfl
  | tryStart i reg w =>
    simp only [Event.next]
    split
    · exact (ok.setStatus (by simp)).setCall (of_decide_eq_true en) rfl
    · exact ok.setCall (of_decide_eq_true en) rfl
  | store | refreshStore => exact ok.setEndpoint.setCall (of_decide_eq_true en) rfl
  | subscribe | ownSubscribe | recv | timeout | dropRecv =>
    exact ok.setReceivers.setCall (of_decide_eq_true en) rfl
  | dropFetch | dropQuery => exact ok.setCall (of_decide_eq_true en) rfl
  | spawn i reg w inbox =>
    refine ok.mono id id (fun {u reg' v ep} hu => ?_) fun _ backed =>
      (backed.setCall (.recv reg w inbox) (of_decide_eq_true en) rfl).of_eq rfl rfl
    by_cases hut : u = s.nextTask
    · simp [Event.next, hut] at hu
    · simpa [Event.next, hut] using hu
  | evict i job by_ =>
    have at_ := of_decide_eq_true en
    -- the caller that evicts the endpoint is the one that will drop the entry
    have mine : (Event.next s (.evict i job by_)).Backed job :=
      .inr ⟨i, .reset job by_, by simp [Event.next], rfl⟩
    refine ok.mono id id id fun {j v} _ backed => ?_
    by_cases hj : j = job
    · exact hj ▸ mine
    · rcases backed.setCall (.reset job by_) at_ rfl with cached | evicting
      · exact .inl (by simpa [Event.next, hj] using cached)
      · exact .inr evicting
  | reset i job by_ =>
    have at_ : (s.storeStatus job .dormant).calls i = some (.reset job by_) := by
      simpa using of_decide_eq_true en
    have stored : ReadyBacked (s.storeStatus job .dormant) := by
      unfold State.storeStatus
      split
      · exact ok.setStatus (by simp)
      · exact ok
    refine stored.mono id id id fun {j v} _ backed => ?_
    rcases backed with cached | ⟨k, d, hd, he⟩
    · exact .inl cached
    · by_cases hk : k = i
      · subst hk
        obtain rfl : Call.reset job by_ = d := Option.some.inj (at_.symm.trans hd)
        exact .inr ⟨k, .remove job by_, by simp [Event.next], he⟩
      · exact .inr ⟨k, d, by simpa [Event.next, hk] using hd, he⟩
  | remove i job by_ =>
    have at_ := of_decide_eq_true en
    refine ok.removeJob job (fun j hj backed => ?_) rfl rfl id
    rcases backed with cached | ⟨k, d, hd, he⟩
    · exact .inl cached
    · have other : k ≠ i := by
        rintro rfl
        obtain rfl : Call.remove job by_ = d := Option.some.inj (at_.symm.trans hd)
        exact hj (Option.some.inj he).symm
      exact .inr ⟨k, d, by simpa [Event.next, other] using hd, he⟩
  | refreshReady i reg current ep =>
    have at_ : (s.storeStatus reg.jobId .ready).calls i = some (.refreshReady reg current ep) := by
      simpa using of_decide_eq_true en
    refine ReadyBacked.setCall ?_ at_ rfl
    unfold State.storeStatus
    split
    next w hw =>
      refine ok.setReady fun j hj => ?_
      have same : j = reg.jobId := (wf.jobs hj).2.symm.trans (wf.jobs hw).2
      exact same ▸ cond (by simp [hw])
    next => exact ok
  | acquire => exact ok.setPermits.setTask (by simp)
  | scaled =>
    simp only [Event.next]
    split <;> exact ok.setPermits.setTask (by simp)
  | healthy =>
    simp only [Event.next]
    split <;> exact ok.setTask (by simp)
  | pollReceivers t reg w saw =>
    simp only [Event.next]
    split_ifs <;> exact ok.setTask (by simp)
  | publish t reg w ep =>
    have put : ReadyBacked (s.setEndpoint reg.jobId (some ep)) := ok.setEndpoint
    refine ⟨fun hj hr => (put.mapped hj hr).of_eq rfl rfl, fun {u reg' v ep'} hu hj => ?_⟩
    by_cases hut : u = t
    · subst hut
      obtain ⟨rfl, -⟩ : reg = reg' ∧ w = v ∧ ep = ep' := by simpa [Event.next] using hu
      exact .inl (by simp [Event.next])
    · exact (put.stored (by simpa [Event.next, hut] using hu) hj).of_eq rfl rfl
  | storeReady t reg w ep =>
    have at_ := of_decide_eq_true en
    refine (ok.setReady fun j hj => ?_).setTask (by simp)
    have same : j = reg.jobId := (wf.jobs hj).2.symm.trans (wf.taskCell at_ rfl).2
    exact same ▸ ok.stored at_ (same ▸ hj)
  | sendReady | sendFailure => exact ok.broadcast.setTask (by simp)
  | storeDormant => exact (ok.setStatus (by simp)).setTask (by simp)
  | removeEntry t reg w =>
    have dropped : ReadyBacked (s.setJob reg.jobId none) :=
      ok.removeJob reg.jobId (fun _ _ backed => backed.of_eq rfl rfl) rfl rfl id
    exact dropped.setTask (by simp)

end ReadyBacked

/-- Every waking `WakeState` has a wake with its status store to come. -/
def WakingOwned (s : State) : Prop :=
  ∀ w, (s.cells w).status = .waking → ∃ a p, s.wake a = some p ∧ p.cell = w ∧ p.waking = true

lemma Owned.wakingOwned {s : State} {g : WakeLog} (owned : Owned s g) : WakingOwned s := by
  intro w hw
  obtain ⟨i, -, a, p, hp, hc, waking, -⟩ := owned w hw
  exact ⟨a, p, hp, hc, waking⟩

/-- The caller has returned, or was dropped. -/
def Call.Returned : Call → Prop
  | .ensured _ _ | .cleared _ | .refreshed _ _ | .dropped => True
  | _ => False

instance (c : Call) : Decidable c.Returned := by unfold Call.Returned; split <;> infer_instance

/-- No call and no wake task is in progress. -/
def State.Quiescent (s : State) : Prop :=
  (∀ i c, s.calls i = some c → c.Returned) ∧ ∀ t k, s.tasks t = some k → k = .finished

/-- The same for the finitely many calls and tasks that were ever started. -/
def State.Idle (s : State) : Prop :=
  (∀ i < s.nextCall, ∀ c ∈ s.calls i, c.Returned) ∧
    ∀ t < s.nextTask, ∀ k ∈ s.tasks t, k = .finished

instance (s : State) : Decidable s.Idle := by unfold State.Idle; infer_instance

namespace State.Quiescent
variable {s : State} {n : ℕ}

lemma no_wake (rest : s.Quiescent) (a : ℕ ⊕ ℕ) : s.wake a = none := by
  refine Option.eq_none_iff_forall_not_mem.mpr fun p hp => ?_
  cases a with
  | inl i =>
    obtain ⟨c, hc, hw⟩ := Option.bind_eq_some_iff.mp hp
    have returned := rest.1 i c hc
    cases c <;> simp [Call.wake?, Call.Returned] at hw returned
  | inr t =>
    obtain ⟨k, hk, hw⟩ := Option.bind_eq_some_iff.mp hp
    obtain rfl := rest.2 t k hk
    simp [Task.wake?] at hw

lemma permits (rest : s.Quiescent) (ok : PermitsAre n s) : s.permits = n := by
  have idle : Census.members s.tasks Task.HoldsPermit = ∅ := by
    apply Census.members_empty
    intro t k hk holds
    obtain rfl := rest.2 t k hk
    exact holds
  rw [PermitsAre, idle] at ok
  simpa using ok

lemma of_idle (wf : WellFormed s) (idle : s.Idle) : s.Quiescent :=
  ⟨fun i c hc => idle.1 i (wf.calls hc) c hc, fun t k hk => idle.2 t (wf.tasks hk) k hk⟩

end State.Quiescent

/-- The next call of `ensure_running`, when it is alone: it returns the cached endpoint, or
starts a wake, for which every permit is free. -/
def Served (n timeout : ℕ) (s : State) (reg : JobRegistration) : Prop :=
  let i := s.nextCall
  (∃ ep, s.endpoints reg.jobId = some ep ∧
    (system n timeout).Leads s [.begin (.ensureRunning reg), .fastPath i reg] fun t =>
      t.calls i = some (.ensured reg (.ok ep))) ∨
  ∃ w, (system n timeout).Leads s [.begin (.ensureRunning reg), .fastPath i reg, .entry i reg,
      .load i reg w, .tryStart i reg w, .ownSubscribe i reg w, .spawn i reg w none] fun t =>
    t.tasks s.nextTask = some (.acquire reg w) ∧ t.permits = n

variable {n timeout : ℕ} {h : List Event} {s : State} {reg : JobRegistration}

/-- A cached endpoint is returned by the fast path. -/
lemma served_of_cached {ep : Endpoint} (cached : s.endpoints reg.jobId = some ep) :
    Served n timeout s reg := by
  refine .inl ⟨ep, cached, ?_⟩
  apply leads_cons rfl
  apply leads_cons (by simp [Event.enabled, Event.next, Operation.call])
  exact .nil (by simp [Event.next, cached])

/-- A caller alone at its lookup wins the race for a dormant `WakeState`. -/
lemma wakes_alone {i w : ℕ} (at_ : s.calls i = some (.load reg w))
    (dormant : (s.cells w).status = .dormant) :
    (system n timeout).Leads s [.load i reg w, .tryStart i reg w, .ownSubscribe i reg w,
      .spawn i reg w none] fun t =>
        t.tasks s.nextTask = some (.acquire reg w) ∧ t.permits = s.permits := by
  apply leads_cons (by simp [Event.enabled, at_])
  apply leads_cons (by simp [Event.enabled, Event.next, dormant])
  apply leads_cons (by simp [Event.enabled, Event.next, dormant])
  apply leads_cons (by simp [Event.enabled, Event.next, dormant])
  exact .nil (by simp [Event.next, dormant, State.joined])

lemma orInsert_dormant (dormant : ∀ w, s.jobs reg.jobId = some w → (s.cells w).status = .dormant) :
    ((s.orInsert reg.jobId).1.cells (s.orInsert reg.jobId).2).status = .dormant := by
  unfold State.orInsert
  split
  next w hw => exact dormant w hw
  next => simp

/-- Without an endpoint, a dormant entry and a fresh one are both woken. -/
lemma served_of_dormant (cold : s.endpoints reg.jobId = none) (free : s.permits = n)
    (dormant : ∀ w, s.jobs reg.jobId = some w → (s.cells w).status = .dormant) :
    Served n timeout s reg := by
  let u := Event.next (Event.next s (.begin (.ensureRunning reg))) (.fastPath s.nextCall reg)
  have hu : u = { s.setCall s.nextCall (.entry reg) with nextCall := s.nextCall + 1 } := by
    simp [u, Event.next, cold, State.setCall, Operation.call]
  refine .inr ⟨(u.orInsert reg.jobId).2, ?_⟩
  apply leads_cons rfl
  apply leads_cons (by simp [Event.enabled, Event.next, Operation.call])
  change (system n timeout).Leads u _ _
  apply leads_cons (by simp [Event.enabled, hu])
  have found : ((u.orInsert reg.jobId).1.cells (u.orInsert reg.jobId).2).status = .dormant :=
    orInsert_dormant (by simpa [hu] using dormant)
  have at_ : (Event.next u (.entry s.nextCall reg)).calls s.nextCall =
      some (.load reg (u.orInsert reg.jobId).2) := by
    simp [Event.next]
  obtain ⟨t, led, spawned, permits⟩ := wakes_alone (n := n) at_ found
  exact ⟨t, led, by simpa [Event.next, hu] using spawned,
    permits.trans (by simpa [Event.next, hu] using free)⟩

/-- At rest every entry is dormant, or ready with its endpoint in the cache, so that the next
request is served from the cache or wakes the job. -/
theorem served_of_run (n timeout : ℕ) (h : List Event) (s : State) (reg : JobRegistration)
    (run : RunWhere (system n timeout) RefreshesBacked h s) (rest : s.Quiescent) :
    (∀ w, s.jobs reg.jobId = some w → (s.cells w).status = .ready →
      s.endpoints reg.jobId ≠ none) ∧ Served n timeout s reg := by
  have backed : ReadyBacked s := by
    apply run.invariant fun _ s => ReadyBacked s
    · exact readyBacked_initial n timeout
    · intro h s t e prior backed taken cond
      obtain ⟨en, rfl⟩ := step_iff.mp taken
      exact backed.next (wellFormed_of_run prior) en cond
  have owned : WakingOwned s := by
    obtain ⟨g, logged⟩ := logged_of_run run
    exact (owned_of_run logged).wakingOwned
  have cached : ∀ w, s.jobs reg.jobId = some w → (s.cells w).status = .ready →
      s.endpoints reg.jobId ≠ none := by
    intro w hw hr
    rcases backed.mapped hw hr with cached | ⟨i, c, hc, he⟩
    · exact cached
    · have returned := rest.1 i c hc
      cases c <;> simp [Call.evicting?, Call.Returned] at he returned
  refine ⟨cached, ?_⟩
  cases hep : s.endpoints reg.jobId with
  | some ep => exact served_of_cached hep
  | none =>
    refine served_of_dormant hep (rest.permits (permitsAre_of_run run)) fun w hw => ?_
    cases hs : (s.cells w).status with
    | dormant => rfl
    | ready => exact absurd hep (cached w hw hs)
    | waking =>
      obtain ⟨a, p, hp, -⟩ := owned w hs
      simp [rest.no_wake] at hp

lemma refreshesBacked_of_first (run : RunWhere (system n timeout) FirstWake h s) :
    RunWhere (system n timeout) RefreshesBacked h s := by
  refine run.mono fun h s t e _ _ first => ?_
  cases e with
  | refreshReady => exact first.elim
  | _ => trivial

theorem sharedDone_served : ∃ h s, RunWhere (system 50 60) RefreshesBacked h s ∧ s.Quiescent ∧
    s.jobs echoReg.jobId = some 0 ∧ Served 50 60 s echoReg := by
  obtain ⟨h, s, run, idle, mapped⟩ := exists_run (T := system 50 60) (C := FirstWake)
    (fun _ s => s.Idle ∧ s.jobs echoReg.jobId = some 0) sharedDone (by decide)
  have backed := refreshesBacked_of_first run
  have rest := State.Quiescent.of_idle (wellFormed_of_run run) idle
  exact ⟨h, s, backed, rest, mapped, (served_of_run 50 60 h s echoReg backed rest).2⟩

/-- A refresh stores its endpoint, a scale-down evicts it and drops the entry, the next
request inserts a new entry, and the refresh marks that one ready. -/
def refreshAfterEviction : List Event :=
  let job := echoReg.jobId
  sharedDone ++
    [.begin (.refreshEndpoint echoReg echoReady), .queried 2 echoReg echoReady (.ok (some echoReady)),
      .refreshStore 2 echoReg echoReady echoReady, .begin (.markDormant job),
      .evict 3 job .markDormant, .reset 3 job .markDormant, .remove 3 job .markDormant,
      .begin (.ensureRunning echoReg), .fastPath 4 echoReg, .entry 4 echoReg,
      .refreshReady 2 echoReg echoReady echoReady, .load 4 echoReg 1, .cached 4 echoReg,
      .fetched 4 echoReg (.ok none)]

theorem ready_without_endpoint : ¬ ∀ h s reg, Run (system 50 60) h s → s.Quiescent →
    (∀ w, s.jobs reg.jobId = some w → (s.cells w).status = .ready →
      s.endpoints reg.jobId ≠ none) ∧ Served 50 60 s reg := by
  intro all
  obtain ⟨h, s, run, idle, mapped, ready, cold⟩ := exists_run (T := system 50 60)
    (C := fun _ _ _ => True)
    (fun _ s => s.Idle ∧ s.jobs echoReg.jobId = some 1 ∧ (s.cells 1).status = .ready ∧
      s.endpoints echoReg.jobId = none) refreshAfterEviction (by decide)
  have rest := State.Quiescent.of_idle (wellFormed_of_run run) idle
  exact (all h s echoReg run rest).1 1 mapped ready cold

end NScale.WakeCoordinator
