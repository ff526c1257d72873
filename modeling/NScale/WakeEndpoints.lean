import NScale.WakeInvariant

/-!
# Where an endpoint goes

An endpoint enters the coordinator with an answer of Consul or Nomad. From there it is
copied between the endpoint cache, the tasks, the messages and the callers, always for the
same job, so that what holds of every answer holds of every endpoint.
-/
namespace NScale.WakeCoordinator

/-- The endpoint that Consul or Nomad answers with, and the registration it was asked for. -/
def Event.answer? : Event → Option (JobRegistration × Endpoint)
  | .fetched _ reg (.ok (some ep)) => some (reg, ep)
  | .healthy _ reg _ _ (.ok ep) => some (reg, ep)
  | .queried _ reg _ (.ok (some ep)) => some (reg, ep)
  | _ => none

def WakeResult.endpoint? : WakeResult → Option Endpoint
  | .ready ep => some ep
  | _ => none

/-- The endpoint a caller is about to store or return, with the job it does so for. -/
def Call.carried? : Call → Option (JobId × Endpoint)
  | .store reg ep | .refreshStore reg _ ep => some (reg.jobId, ep)
  | .spawn reg _ inbox | .recv reg _ inbox =>
      (inbox.bind WakeResult.endpoint?).map fun ep => (reg.jobId, ep)
  | .ensured reg (.ok ep) => some (reg.jobId, ep)
  | _ => none

@[simp] lemma Reset.carried?_finish (job : JobId) (by_ : Reset) :
    (by_.finish job).carried? = none := by
  cases by_ <;> rfl

/-- What a caller carries after a send it carried before, or it took it from the message. -/
lemma Call.carried?_deliver (c : Call) {w : ℕ} {msg : WakeResult} {p : JobId × Endpoint}
    (hp : (c.deliver w msg).carried? = some p) :
    c.carried? = some p ∨ (c.cell? = some (p.1, w) ∧ msg.endpoint? = some p.2) := by
  have taken : ∀ (reg : JobRegistration) (v : ℕ),
      ((if v = w then some msg else none).bind WakeResult.endpoint?).map (reg.jobId, ·) = some p →
        (reg.jobId, v) = (p.1, w) ∧ msg.endpoint? = some p.2 := by
    intro reg v h
    by_cases hv : v = w
    · obtain ⟨ep, he, rfl⟩ := Option.map_eq_some_iff.mp h
      exact ⟨by rw [hv], by simpa [hv] using he⟩
    · simp [hv] at h
  cases c with
  | spawn reg v inbox | recv reg v inbox =>
    cases inbox with
    | some m => exact .inl hp
    | none =>
      obtain ⟨hv, he⟩ := taken reg v hp
      exact .inr ⟨congrArg some hv, he⟩
  | _ => exact .inl hp

def Task.carried? : Task → Option (JobId × Endpoint)
  | .publish reg _ ep | .storeReady reg _ ep | .sendReady reg _ ep => some (reg.jobId, ep)
  | .storeDormant reg _ why | .sendFailure reg _ why =>
      why.endpoint?.map fun ep => (reg.jobId, ep)
  | _ => none

/-- No error of a wake is broadcast as an endpoint. -/
@[simp] lemma failure_endpoint? (e : NscaleError) : (failure e).endpoint? = none := by
  cases e <;> rfl

/-- Every endpoint in the cache, a caller or a task has the property for its job. -/
structure Carried (P : JobId → Endpoint → Prop) (s : State) : Prop where
  endpoints : ∀ {job ep}, s.endpoints job = some ep → P job ep
  calls : ∀ {i c p}, s.calls i = some c → c.carried? = some p → P p.1 p.2
  tasks : ∀ {t k p}, s.tasks t = some k → k.carried? = some p → P p.1 p.2

namespace Carried
variable {P Q : JobId → Endpoint → Prop} {s s' : State} {i t w : ℕ} {c' : Call} {k' : Task}
  {job : JobId} {ep : Endpoint}

lemma initial (n timeout : ℕ) : Carried P (initial n timeout) := by
  constructor <;> intros <;> simp_all [WakeCoordinator.initial]

lemma mono (ok : Carried P s) (imp : ∀ job ep, P job ep → Q job ep) : Carried Q s :=
  ⟨fun hj => imp _ _ (ok.endpoints hj), fun hc hp => imp _ _ (ok.calls hc hp),
    fun hk hp => imp _ _ (ok.tasks hk hp)⟩

lemma of_eq (ok : Carried P s) (endpoints : s'.endpoints = s.endpoints)
    (calls : s'.calls = s.calls) (tasks : s'.tasks = s.tasks) : Carried P s' where
  endpoints hj := ok.endpoints (endpoints ▸ hj)
  calls hc := ok.calls (calls ▸ hc)
  tasks hk := ok.tasks (tasks ▸ hk)

lemma setReceivers (ok : Carried P s) {n : ℕ} : Carried P (s.setReceivers w n) :=
  ok.of_eq rfl rfl rfl

lemma setStatus (ok : Carried P s) {status : Status} : Carried P (s.setStatus w status) :=
  ok.of_eq rfl rfl rfl

lemma setJob (ok : Carried P s) {v : Option ℕ} : Carried P (s.setJob job v) := ok.of_eq rfl rfl rfl

lemma setPermits (ok : Carried P s) {n : ℕ} : Carried P (s.setPermits n) := ok.of_eq rfl rfl rfl

/-- A caller moves on with an endpoint that has the property. -/
lemma setCall (ok : Carried P s) (carried : ∀ p, c'.carried? = some p → P p.1 p.2) :
    Carried P (s.setCall i c') where
  endpoints := ok.endpoints
  calls := by
    intro j d p hd hp
    by_cases hj : j = i
    · subst hj
      obtain rfl : c' = d := by simpa using hd
      exact carried p hp
    · exact ok.calls (by simpa [hj] using hd) hp
  tasks := ok.tasks

lemma setTask (ok : Carried P s) (carried : ∀ p, k'.carried? = some p → P p.1 p.2) :
    Carried P (s.setTask t k') where
  endpoints := ok.endpoints
  calls := ok.calls
  tasks := by
    intro u l p hl hp
    by_cases hu : u = t
    · subst hu
      obtain rfl : k' = l := by simpa using hl
      exact carried p hp
    · exact ok.tasks (by simpa [hu] using hl) hp

lemma setEndpoint (ok : Carried P s) (put : P job ep) :
    Carried P (s.setEndpoint job (some ep)) where
  endpoints := by
    intro j e he
    by_cases hj : j = job
    · subst hj
      obtain rfl : ep = e := by simpa using he
      exact put
    · exact ok.endpoints (by simpa [hj] using he)
  calls := ok.calls
  tasks := ok.tasks

lemma evict (ok : Carried P s) : Carried P (s.setEndpoint job none) where
  endpoints := by
    intro j e he
    by_cases hj : j = job
    · subst hj; simp at he
    · exact ok.endpoints (by simpa [hj] using he)
  calls := ok.calls
  tasks := ok.tasks

/-- A message only reaches callers that wait for the job it is about. -/
lemma broadcast (ok : Carried P s) (wf : WellFormed s) {msg : WakeResult}
    (key : (s.cells w).key = job) (sent : ∀ ep, msg.endpoint? = some ep → P job ep) :
    Carried P (s.broadcast w msg) where
  endpoints := ok.endpoints
  calls := by
    intro i c p hc hp
    obtain ⟨d, hd, rfl⟩ := Option.map_eq_some_iff.mp hc
    rcases d.carried?_deliver hp with old | ⟨held, he⟩
    · exact ok.calls hd old
    · have same : job = p.1 := key.symm.trans (wf.callCell hd held).2
      exact same ▸ sent p.2 he
  tasks := ok.tasks

lemma begin (ok : Carried P s) (op : Operation) : Carried P (Event.next s (.begin op)) where
  endpoints := ok.endpoints
  calls := by
    intro i c p hc hp
    by_cases hi : i = s.nextCall
    · subst hi
      obtain rfl : op.call = c := by simpa [Event.next] using hc
      cases op <;> simp [Operation.call, Call.carried?] at hp
    · exact ok.calls (by simpa [Event.next, hi] using hc) hp
  tasks := ok.tasks

lemma spawn (ok : Carried P s) {reg : JobRegistration} {inbox : Option WakeResult}
    (at_ : s.calls i = some (.spawn reg w inbox)) :
    Carried P (Event.next s (.spawn i reg w inbox)) := by
  have moved : Carried P (s.setCall i (.recv reg w inbox)) :=
    ok.setCall fun p hp => ok.calls at_ hp
  refine ⟨moved.endpoints, moved.calls, ?_⟩
  intro u l p hl hp
  by_cases hu : u = s.nextTask
  · subst hu
    obtain rfl : Task.acquire reg w = l := by simpa [Event.next] using hl
    simp [Task.carried?] at hp
  · exact ok.tasks (by simpa [Event.next, hu] using hl) hp

/-- If the answer of a step has the property, every endpoint has it after the step. -/
theorem next {e : Event} (ok : Carried P s) (wf : WellFormed s) (en : e.enabled s = true)
    (answers : ∀ reg ep, e.answer? = some (reg, ep) → P reg.jobId ep) : Carried P (e.next s) := by
  cases e with
  | begin op => exact ok.begin op
  | spawn i reg w inbox => exact ok.spawn (of_decide_eq_true en)
  | entry i reg =>
    exact (ok.of_eq (by simp) (by simp) (by simp)).setCall (by simp [Call.carried?])
  | fastPath i reg | cached i reg =>
    simp only [Event.next]
    split
    next ep hep =>
      refine ok.setCall fun p hp => ?_
      obtain rfl : (reg.jobId, ep) = p := Option.some.inj hp
      exact ok.endpoints hep
    next => exact ok.setCall (by simp [Call.carried?])
  | load i reg w =>
    simp only [Event.next]
    split <;> exact ok.setCall (by simp [Call.carried?])
  | tryStart i reg w =>
    simp only [Event.next]
    split
    · exact ok.setStatus.setCall (by simp [Call.carried?])
    · exact ok.setCall (by simp [Call.carried?])
  | fetched i reg answer =>
    simp only [Event.next]
    split
    next => exact ok.setCall (by simp [Call.carried?])
    next => exact ok.setCall (by simp [Call.carried?])
    next ep =>
      refine ok.setCall fun p hp => ?_
      obtain rfl : (reg.jobId, ep) = p := Option.some.inj hp
      exact answers reg ep rfl
  | store i reg ep =>
    have put := ok.calls (of_decide_eq_true en) rfl
    refine (ok.setEndpoint put).setCall fun p hp => ?_
    obtain rfl : (reg.jobId, ep) = p := Option.some.inj hp
    exact put
  | subscribe | ownSubscribe | timeout | dropRecv =>
    exact ok.setReceivers.setCall (by simp [Call.carried?])
  | recv i reg w msg =>
    have at_ := of_decide_eq_true en
    refine ok.setReceivers.setCall fun p hp => ?_
    cases msg with
    | ready ep =>
      obtain rfl : (reg.jobId, ep) = p := Option.some.inj hp
      exact ok.calls at_ rfl
    | jobNotFound | failed | cancelled => simp [reply, Call.carried?] at hp
  | dropFetch | dropQuery => exact ok.setCall (by simp [Call.carried?])
  | evict i job by_ => exact ok.evict.setCall (by simp [Call.carried?])
  | reset i job by_ =>
    exact (ok.of_eq (by simp) (by simp) (by simp)).setCall (by simp [Call.carried?])
  | remove i job by_ => exact ok.setJob.setCall (by simp)
  | queried i reg current answer =>
    simp only [Event.next]
    split
    next => exact ok.setCall (by simp [Call.carried?])
    next => exact ok.setCall (by simp [Call.carried?])
    next ep =>
      refine ok.setCall fun p hp => ?_
      obtain rfl : (reg.jobId, ep) = p := Option.some.inj hp
      exact answers reg ep rfl
  | refreshStore i reg current ep =>
    exact (ok.setEndpoint (ok.calls (of_decide_eq_true en) rfl)).setCall (by simp [Call.carried?])
  | refreshReady i reg current ep =>
    exact (ok.of_eq (by simp) (by simp) (by simp)).setCall (by simp [Call.carried?])
  | acquire t reg w => exact ok.setPermits.setTask (by simp [Task.carried?])
  | scaled t reg w answer =>
    simp only [Event.next]
    split <;> exact ok.setPermits.setTask (by simp [Task.carried?])
  | healthy t reg w saw answer =>
    simp only [Event.next]
    split
    next ep =>
      refine ok.setTask fun p hp => ?_
      obtain rfl : (reg.jobId, ep) = p := Option.some.inj hp
      exact answers reg ep rfl
    next => exact ok.setTask (by simp [Task.carried?])
  | pollReceivers t reg w saw =>
    simp only [Event.next]
    split_ifs <;> exact ok.setTask (by simp [Task.carried?, failure, WakeResult.endpoint?])
  | publish t reg w ep =>
    have from_ := ok.tasks (of_decide_eq_true en) rfl
    refine (ok.setEndpoint from_).setTask fun p hp => ?_
    obtain rfl : (reg.jobId, ep) = p := Option.some.inj hp
    exact from_
  | storeReady t reg w ep | storeDormant t reg w why =>
    have at_ := of_decide_eq_true en
    exact ok.setStatus.setTask fun p hp => ok.tasks at_ hp
  | sendReady t reg w ep =>
    have at_ := of_decide_eq_true en
    have sent : Carried P (s.broadcast w (.ready ep)) := by
      refine ok.broadcast wf (wf.taskCell at_ rfl).2 fun ep' he => ?_
      obtain rfl : ep = ep' := Option.some.inj he
      exact ok.tasks at_ rfl
    exact sent.setTask (by simp [Task.carried?])
  | sendFailure t reg w why =>
    have at_ := of_decide_eq_true en
    have sent : Carried P (s.broadcast w why) := by
      refine ok.broadcast wf (wf.taskCell at_ rfl).2 fun ep' he => ?_
      have carries : (Task.sendFailure reg w why).carried? = some (reg.jobId, ep') := by
        simp [Task.carried?, he]
      exact ok.tasks at_ carries
    exact sent.setTask (by simp [Task.carried?])
  | removeEntry => exact ok.setJob.setTask (by simp [Task.carried?])

end Carried
end NScale.WakeCoordinator
