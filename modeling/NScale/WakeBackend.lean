import NScale.WakeCoalescing
import NScale.WakeEndpoints

/-!
# Where a returned endpoint comes from

Endpoint cache, wake state and broadcast are keyed by job id, while queries are made for a
registration, which also names a service. An endpoint is followed from the answer it came
with through the cache, the tasks and the messages to the caller that returns it.
-/
namespace NScale.WakeCoordinator
open Transition

/-- Some query made for the registration was answered with the endpoint. -/
def Answered (h : List Event) (reg : JobRegistration) (ep : Endpoint) : Prop :=
  ∃ e ∈ h, e.answer? = some (reg, ep)

/-- Every endpoint returned by `ensure_running` was found for its job and service. -/
def RightBackend (h : List Event) (s : State) : Prop :=
  ∀ i reg ep, s.calls i = some (.ensured reg (.ok ep)) →
    ∃ asked, asked.jobId = reg.jobId ∧ asked.serviceName = reg.serviceName ∧ Answered h asked ep

/-- Calls are made with one service name for each job id. -/
def OneService (service : JobId → ServiceName) : Condition State Event := fun _ _ e =>
  match e with
  | .begin (.ensureRunning reg) => reg.serviceName = service reg.jobId
  | .begin (.refreshEndpoint reg _) => reg.serviceName = service reg.jobId
  | _ => True

/-- The registration for which a caller asks, stores or returns an endpoint. -/
def Call.reg? : Call → Option JobRegistration
  | .fastPath reg | .entry reg | .load reg _ | .cached reg | .fetch reg | .store reg _ => some reg
  | .subscribe reg _ | .tryStart reg _ | .ownSubscribe reg _ | .spawn reg _ _ => some reg
  | .recv reg _ _ | .ensured reg _ | .query reg _ | .refreshStore reg _ _ => some reg
  | .refreshReady reg _ _ => some reg
  | _ => none

@[simp] lemma Reset.reg?_finish (job : JobId) (by_ : Reset) : (by_.finish job).reg? = none := by
  cases by_ <;> rfl

@[simp] lemma Call.reg?_deliver (w : ℕ) (msg : WakeResult) (c : Call) :
    (c.deliver w msg).reg? = c.reg? := by
  cases c with
  | spawn reg v inbox => cases inbox <;> rfl
  | recv reg v inbox => cases inbox <;> rfl
  | _ => rfl

def Task.reg? : Task → Option JobRegistration
  | .acquire reg _ | .scaleUp reg _ | .health reg _ _ | .publish reg _ _ => some reg
  | .storeReady reg _ _ | .sendReady reg _ _ | .storeDormant reg _ _ => some reg
  | .sendFailure reg _ _ | .removeEntry reg _ => some reg
  | .finished => none

section
variable (service : JobId → ServiceName)

/-- The endpoint was found for the job and its one service. -/
def Source (h : List Event) (job : JobId) (ep : Endpoint) : Prop :=
  ∃ reg, reg.jobId = job ∧ reg.serviceName = service job ∧ Answered h reg ep

structure Sourced (h : List Event) (s : State) : Prop where
  endpoints : ∀ {job ep}, s.endpoints job = some ep → Source service h job ep
  callReg : ∀ {i c reg}, s.calls i = some c → c.reg? = some reg →
    reg.serviceName = service reg.jobId
  callEndpoint : ∀ {i c p}, s.calls i = some c → c.carried? = some p → Source service h p.1 p.2
  taskReg : ∀ {t k reg}, s.tasks t = some k → k.reg? = some reg →
    reg.serviceName = service reg.jobId
  taskEndpoint : ∀ {t k p}, s.tasks t = some k → k.carried? = some p → Source service h p.1 p.2

end

variable {service : JobId → ServiceName} {h : List Event} {s s' : State}

lemma Source.mono {job : JobId} {ep : Endpoint} {e : Event} (src : Source service h job ep) :
    Source service (e :: h) job ep := by
  obtain ⟨reg, hj, hs, a, ha, answers⟩ := src
  exact ⟨reg, hj, hs, a, List.mem_cons_of_mem _ ha, answers⟩

lemma sourced_initial (n timeout : ℕ) : Sourced service [] (initial n timeout) := by
  constructor <;> intros <;> simp_all [initial]

/-- Every caller and task works for a registration with the property. -/
structure Registered (R : JobRegistration → Prop) (s : State) : Prop where
  calls : ∀ {i c reg}, s.calls i = some c → c.reg? = some reg → R reg
  tasks : ∀ {t k reg}, s.tasks t = some k → k.reg? = some reg → R reg

namespace Registered
variable {R : JobRegistration → Prop} {i t w : ℕ} {c c' : Call} {k k' : Task}

lemma of_eq (ok : Registered R s) (calls : s'.calls = s.calls) (tasks : s'.tasks = s.tasks) :
    Registered R s' where
  calls hc := ok.calls (calls ▸ hc)
  tasks hk := ok.tasks (tasks ▸ hk)

lemma setReceivers (ok : Registered R s) {n : ℕ} : Registered R (s.setReceivers w n) :=
  ok.of_eq rfl rfl

lemma setStatus (ok : Registered R s) {status : Status} : Registered R (s.setStatus w status) :=
  ok.of_eq rfl rfl

lemma setEndpoint (ok : Registered R s) {job : JobId} {ep : Option Endpoint} :
    Registered R (s.setEndpoint job ep) := ok.of_eq rfl rfl

lemma setJob (ok : Registered R s) {job : JobId} {v : Option ℕ} : Registered R (s.setJob job v) :=
  ok.of_eq rfl rfl

lemma setPermits (ok : Registered R s) {n : ℕ} : Registered R (s.setPermits n) := ok.of_eq rfl rfl

/-- A caller goes on for the same registration. -/
lemma setCall (ok : Registered R s) (at_ : s.calls i = some c)
    (same : ∀ reg, c'.reg? = some reg → c.reg? = some reg) : Registered R (s.setCall i c') where
  calls := by
    intro j d reg hd hr
    by_cases hj : j = i
    · subst hj
      obtain rfl : c' = d := by simpa using hd
      exact ok.calls at_ (same reg hr)
    · exact ok.calls (by simpa [hj] using hd) hr
  tasks := ok.tasks

lemma setTask (ok : Registered R s) (at_ : s.tasks t = some k)
    (same : ∀ reg, k'.reg? = some reg → k.reg? = some reg) : Registered R (s.setTask t k') where
  calls := ok.calls
  tasks := by
    intro u l reg hl hr
    by_cases hu : u = t
    · subst hu
      obtain rfl : k' = l := by simpa using hl
      exact ok.tasks at_ (same reg hr)
    · exact ok.tasks (by simpa [hu] using hl) hr

lemma broadcast (ok : Registered R s) {msg : WakeResult} : Registered R (s.broadcast w msg) where
  calls := by
    intro i c reg hc hr
    obtain ⟨d, hd, rfl⟩ := Option.map_eq_some_iff.mp hc
    exact ok.calls hd (by simpa using hr)
  tasks := ok.tasks

lemma begin (ok : Registered R s) (op : Operation) (one : ∀ reg, op.call.reg? = some reg → R reg) :
    Registered R (Event.next s (.begin op)) where
  calls := by
    intro i c reg hc hr
    by_cases hi : i = s.nextCall
    · subst hi
      obtain rfl : op.call = c := by simpa [Event.next] using hc
      exact one reg hr
    · exact ok.calls (by simpa [Event.next, hi] using hc) hr
  tasks := ok.tasks

lemma spawn (ok : Registered R s) {reg : JobRegistration} {inbox : Option WakeResult}
    (at_ : s.calls i = some (.spawn reg w inbox)) :
    Registered R (Event.next s (.spawn i reg w inbox)) := by
  have moved : Registered R (s.setCall i (.recv reg w inbox)) := ok.setCall at_ fun _ hr => hr
  refine ⟨moved.calls, ?_⟩
  intro u l reg' hl hr
  by_cases hu : u = s.nextTask
  · subst hu
    obtain rfl : Task.acquire reg w = l := by simpa [Event.next] using hl
    exact ok.calls at_ hr
  · exact ok.tasks (by simpa [Event.next, hu] using hl) hr

/-- Registrations enter with a new call and are handed from caller to task. -/
theorem next {e : Event} (ok : Registered R s) (en : e.enabled s = true)
    (one : ∀ op reg, e = .begin op → op.call.reg? = some reg → R reg) :
    Registered R (e.next s) := by
  cases e with
  | begin op => exact ok.begin op fun reg => one op reg rfl
  | spawn i reg w inbox => exact ok.spawn (of_decide_eq_true en)
  | entry i reg =>
    have at_ : (s.orInsert reg.jobId).1.calls i = some (.entry reg) := by
      simpa using of_decide_eq_true en
    exact (ok.of_eq (by simp) (by simp)).setCall at_ (by simp [Call.reg?])
  | reset i job by_ =>
    have at_ : (s.storeStatus job .dormant).calls i = some (.reset job by_) := by
      simpa using of_decide_eq_true en
    exact (ok.of_eq (by simp) (by simp)).setCall at_ (by simp [Call.reg?])
  | refreshReady i reg current ep =>
    have at_ : (s.storeStatus reg.jobId .ready).calls i = some (.refreshReady reg current ep) := by
      simpa using of_decide_eq_true en
    exact (ok.of_eq (by simp) (by simp)).setCall at_ (by simp [Call.reg?])
  | remove => exact ok.setJob.setCall (of_decide_eq_true en) (by simp)
  | fastPath | load | cached | fetched | queried =>
    simp only [Event.next]
    split <;> exact ok.setCall (of_decide_eq_true en) (by simp [Call.reg?])
  | tryStart i reg w =>
    simp only [Event.next]
    split
    · exact ok.setStatus.setCall (of_decide_eq_true en) (by simp [Call.reg?])
    · exact ok.setCall (of_decide_eq_true en) (by simp [Call.reg?])
  | subscribe | ownSubscribe | recv | timeout | dropRecv =>
    exact ok.setReceivers.setCall (of_decide_eq_true en) (by simp [Call.reg?])
  | dropFetch | dropQuery => exact ok.setCall (of_decide_eq_true en) (by simp [Call.reg?])
  | store | refreshStore | evict =>
    exact ok.setEndpoint.setCall (of_decide_eq_true en) (by simp [Call.reg?])
  | acquire => exact ok.setPermits.setTask (of_decide_eq_true en).1 (by simp [Task.reg?])
  | scaled =>
    simp only [Event.next]
    split <;> exact ok.setPermits.setTask (of_decide_eq_true en) (by simp [Task.reg?])
  | healthy =>
    simp only [Event.next]
    split <;> exact ok.setTask (of_decide_eq_true en) (by simp [Task.reg?])
  | pollReceivers =>
    simp only [Event.next]
    split_ifs <;> exact ok.setTask (of_decide_eq_true en) (by simp [Task.reg?])
  | publish => exact ok.setEndpoint.setTask (of_decide_eq_true en) (by simp [Task.reg?])
  | storeReady | storeDormant =>
    exact ok.setStatus.setTask (of_decide_eq_true en) (by simp [Task.reg?])
  | sendReady | sendFailure =>
    exact ok.broadcast.setTask (of_decide_eq_true en) (by simp [Task.reg?])
  | removeEntry => exact ok.setJob.setTask (of_decide_eq_true en) (by simp [Task.reg?])

end Registered

namespace Sourced

/-- One step keeps that every endpoint has a source for its job and the service of the job. -/
theorem next {e : Event} (src : Sourced service h s) (wf : WellFormed s)
    (en : e.enabled s = true) (one : OneService service h s e) :
    Sourced service (e :: h) (e.next s) := by
  have regs : Registered (fun reg => reg.serviceName = service reg.jobId) (e.next s) := by
    refine Registered.next ⟨src.callReg, src.taskReg⟩ en fun op reg he hr => ?_
    subst he
    cases op with
    | ensureRunning | refreshEndpoint =>
      obtain rfl := Option.some.inj hr
      exact one
    | markDormant | invalidate => simp [Operation.call, Call.reg?] at hr
  have old : Carried (Source service (e :: h)) s :=
    ⟨fun hj => (src.endpoints hj).mono, fun hc hp => (src.callEndpoint hc hp).mono,
      fun hk hp => (src.taskEndpoint hk hp).mono⟩
  -- an answer is a source for the registration of the caller or task that asked
  have carried : Carried (Source service (e :: h)) (e.next s) := by
    refine old.next wf en fun reg ep answers => ?_
    have own : reg.serviceName = service reg.jobId := by
      cases e with
      | fetched i reg' answer =>
        have at_ := of_decide_eq_true en
        rcases answer with _ | _ | ep' <;> simp [Event.answer?] at answers
        exact answers.1 ▸ src.callReg at_ rfl
      | queried i reg' current answer =>
        have at_ := of_decide_eq_true en
        rcases answer with _ | _ | ep' <;> simp [Event.answer?] at answers
        exact answers.1 ▸ src.callReg at_ rfl
      | healthy t reg' w saw answer =>
        have at_ := of_decide_eq_true en
        rcases answer with _ | ep' <;> simp [Event.answer?] at answers
        exact answers.1 ▸ src.taskReg at_ rfl
      | _ => simp [Event.answer?] at answers
    exact ⟨reg, rfl, own, e, List.mem_cons_self, answers⟩
  exact ⟨carried.endpoints, regs.calls, carried.calls, regs.tasks, carried.tasks⟩

end Sourced

variable {n timeout : ℕ}

lemma sourced_of_run (run : RunWhere (system n timeout) (OneService service) h s) :
    Sourced service h s := by
  have both : Sourced service h s ∧ WellFormed s := by
    apply run.invariant fun h s => Sourced service h s ∧ WellFormed s
    · exact ⟨sourced_initial n timeout, wellFormed_initial n timeout⟩
    · rintro h s t e - ⟨src, wf⟩ taken one
      obtain ⟨en, rfl⟩ := step_iff.mp taken
      exact ⟨src.next wf en one, wf.next en⟩
  exact both.1

/-- While every job has one service, each endpoint that `ensure_running` returns was found
by a query for that job and service. -/
theorem rightBackend_of_run (n timeout : ℕ) (service : JobId → ServiceName) (h : List Event)
    (s : State) (run : RunWhere (system n timeout) (OneService service) h s) :
    RightBackend h s := by
  intro i reg ep hi
  have src := sourced_of_run run
  obtain ⟨asked, hj, hs, answered⟩ := src.callEndpoint hi rfl
  exact ⟨asked, hj, hs.trans (src.callReg hi rfl).symm, answered⟩

instance (service : JobId → ServiceName) (h : List Event) (s : State) (e : Event) :
    Decidable (OneService service h s e) := by
  unfold OneService; split <;> infer_instance

def echoReady : Endpoint := ⟨"10.0.0.1", 8080⟩

/-- The shared wake ends and the waiting caller receives its endpoint. -/
def sharedReady : List Event :=
  sharedWake ++
    [.scaled 0 echoReg 0 (.ok ()), .healthy 0 echoReg 0 false (.ok echoReady),
      .publish 0 echoReg 0 echoReady, .storeReady 0 echoReg 0 echoReady,
      .sendReady 0 echoReg 0 echoReady, .recv 1 echoReg 0 (.ready echoReady)]

/-- Both callers of the shared wake have returned. -/
def sharedDone : List Event := sharedReady ++ [.recv 0 echoReg 0 (.ready echoReady)]

theorem sharedReady_rightBackend : ∃ h s,
    RunWhere (system 50 60) (OneService fun _ => echoReg.serviceName) h s ∧
      s.calls 1 = some (.ensured echoReg (.ok echoReady)) ∧ RightBackend h s := by
  obtain ⟨h, s, run, ensured⟩ := exists_run (T := system 50 60)
    (C := OneService fun _ => echoReg.serviceName)
    (fun _ s => s.calls 1 = some (.ensured echoReg (.ok echoReady))) sharedReady (by decide)
  exact ⟨h, s, run, ensured, rightBackend_of_run 50 60 _ h s run⟩

def adminReg : JobRegistration := { echoReg with serviceName := ⟨"echo-admin"⟩ }

/-- A second service of the job is asked for while the endpoint of the first is cached. -/
def otherService : List Event :=
  sharedReady ++ [.begin (.ensureRunning adminReg), .fastPath 2 adminReg]

theorem wrong_backend : ¬ ∀ h s, Run (system 50 60) h s → RightBackend h s := by
  intro all
  obtain ⟨h, s, run, ensured, only⟩ := exists_run (T := system 50 60) (C := fun _ _ _ => True)
    (fun h s => s.calls 2 = some (.ensured adminReg (.ok echoReady)) ∧
      ∀ e ∈ h, e.answer?.all (fun p => p.1 = echoReg) = true) otherService (by decide)
  obtain ⟨asked, -, service, e, he, answer⟩ := all h s run 2 adminReg echoReady ensured
  obtain rfl : asked = echoReg := by simpa [answer] using only e he
  exact absurd service (by decide)

end NScale.WakeCoordinator
