import NScale.RegistryKeys
import NScale.RegistryReplicas

/-!
# A registry whose operations may fail

Calls of the registry by any number of replicas, with their operations in any order. Every
operation may fail, and one that failed may have taken effect all the same; the Redis cache
may be lost at any time. In all such runs an entry stands under the key of its registration,
and a call that returns `Ok` has done what it does when nothing fails.
-/
namespace NScale.RegistryFailures
open Transition Program JobRegistry

inductive Request
  | register (reg : JobRegistration)
  | deregister (job : JobId)
  | get (lookup : JobId)
  | listAll
  | syncFromDurable
  deriving DecidableEq, Repr

abbrev Code := RegistryReplicas.Code

def Request.code (durable : Bool) : Request → Code
  | .register reg => RegistryReplicas.run (JobRegistry.register durable reg)
  | .deregister job => RegistryReplicas.run (JobRegistry.deregister durable job)
  | .get lookup => RegistryReplicas.run (JobRegistry.get durable lookup)
  | .listAll => RegistryReplicas.run (JobRegistry.listAll durable)
  | .syncFromDurable => RegistryReplicas.run (JobRegistry.syncFromDurable durable)

structure State where
  store : Store
  calls : ℕ → Option Code
  nextCall : ℕ

inductive Event
  | begin (request : Request)
  | op (i : ℕ) (op : StoreOp) (result : Result op.Value) (applied : Bool)
  | lose

/-- What an operation leaves that comes back with this result. -/
def respond (s : Store) (op : StoreOp) (result : Result op.Value) (applied : Bool) : Option Store :=
  match result with
  | .ok v => if v = (s.answer op).1 then some (s.answer op).2 else none
  | .error _ => some (if applied then (s.answer op).2 else s)

def step (durable : Bool) (s : State) : Event → Option State
  | .begin request => some { s with
      calls := Function.update s.calls s.nextCall (some (request.code durable))
      nextCall := s.nextCall + 1 }
  | .op i op result applied => do
    let call ← s.calls i
    let rest ← call.answered? op result
    let store ← respond s.store op result applied
    return { s with store := store, calls := Function.update s.calls i (some rest) }
  | .lose => some { s with store := s.store.lost }

def system (durable : Bool) : System State Event := ⟨⟨.empty, fun _ => none, 0⟩, step durable⟩

/-! ## Calls that return `Ok` -/

/-- An operation of a call that runs alone. -/
def Responds (op : StoreOp) (s : Store) (result : Result op.Value) (t : Store) : Prop :=
  ∃ applied, respond s op result applied = some t

/-- From `s` the call may return the result and leave `t`. -/
abbrev Returns {α : Type} (x : Action α) (s : Store) (result : Result α) (t : Store) : Prop :=
  Program.Runs (S := StoreOps) Responds x.run s result t

/-- A call need not fail. -/
lemma Returns.of_exec {α : Type} {x : Action α} {s t : Store} {result : Result α}
    (done : exec Store.handle x s = (result, t)) : Returns x s result t := by
  have allowed (op : StoreOp) (s : Store) :
      Responds op s (Store.handle op s).1 (Store.handle op s).2 :=
    ⟨false, by simp [respond, Store.handle]⟩
  have run := Runs.of_run (S := StoreOps) allowed x.run s
  have same : x.run.run Store.handle s = (result, t) := done
  rwa [same] at run

/-- Operations in a row whose errors are passed on. -/
inductive Plain : {α : Type} → Action α → Prop
  | pure {α : Type} (a : α) : Plain (Pure.pure a : Action α)
  | perform (op : StoreOp) : Plain (JobRegistry.perform op)
  | bind {α β : Type} {x : Action α} {f : α → Action β} (first : Plain x) (rest : ∀ a, Plain (f a)) :
      Plain (x >>= f)

/-- When such a call returns `Ok`, every operation has succeeded. -/
theorem Plain.exec_of_runs {σ α : Type} {R : (op : StoreOp) → σ → Result op.Value → σ → Prop}
    {handle : (op : StoreOp) → σ → Result op.Value × σ}
    (succeeds : ∀ op s v t, R op s (.ok v) t → handle op s = (.ok v, t)) {x : Action α}
    (plain : Plain x) {s t : σ} {a : α} (run : Program.Runs (S := StoreOps) R x.run s (.ok a) t) :
    exec handle x s = (.ok a, t) := by
  induction plain generalizing s t with
  | pure b =>
    obtain ⟨same, rfl⟩ := run
    exact Prod.ext same rfl
  | perform op => exact succeeds op s a t (runs_call.mp run)
  | bind first rest ihFirst ihRest =>
    obtain ⟨result, u, run₁, run₂⟩ := runs_bind.mp run
    cases result with
    | error e => exact absurd run₂.1 (by simp)
    | ok b => exact (exec_bind_ok (ihFirst run₁)).trans (ihRest b run₂)

section Calls
variable (durable : Bool)

lemma cacheRegistration_plain (reg : JobRegistration) : Plain (cacheRegistration reg) :=
  .bind (.perform _) fun _ => .perform _

lemma durableHit_plain (lookup : JobId) : Plain (durableHit lookup) := by
  apply Plain.bind (.perform _)
  intro hit
  cases hit with
  | some reg => exact .pure _
  | none => exact .perform _

lemma readThrough_plain (lookup : JobId) : Plain (readThrough durable lookup) := by
  cases durable with
  | false => exact .pure _
  | true =>
    apply Plain.bind (durableHit_plain lookup)
    intro hit
    cases hit with
    | some reg => exact .bind (cacheRegistration_plain reg) fun _ => .pure _
    | none => exact .pure _

lemma get_plain (lookup : JobId) : Plain (get durable lookup) := by
  apply Plain.bind (.perform _)
  intro hit
  cases hit with
  | some reg => exact .pure _
  | none =>
    apply Plain.bind (.perform _)
    intro hit
    cases hit with
    | some reg => exact .pure _
    | none => exact readThrough_plain durable lookup

lemma removeRegistration_plain (job : JobId) : Plain (EtcdClient.removeRegistration job) :=
  .bind (.bind (.perform _) fun _ => .pure _) fun _ => .perform _

lemma removeServices_plain (job : JobId) (entries : List (String × JobRegistration)) :
    Plain (removeServices job entries) := by
  induction entries with
  | nil => exact .pure _
  | cons e entries ih =>
    rw [removeServices]
    by_cases own : e.2.jobId = job
    · rw [if_pos own]
      exact .bind (.perform _) fun _ => ih
    · rw [if_neg own]
      exact ih

lemma removeCachedRegistration_plain (job : JobId) : Plain (removeCachedRegistration job) :=
  .bind (.perform _) fun entries => .bind (removeServices_plain job entries) fun _ => .perform _

end Calls

section Ok
variable {durable : Bool} {job lookup : JobId} {s t : Store}

lemma responds_ok (op : StoreOp) (s : Store) (v : op.Value) (t : Store)
    (responded : Responds op s (.ok v) t) : Store.handle op s = (.ok v, t) := by
  obtain ⟨applied, responded⟩ := responded
  simp only [respond] at responded
  split at responded
  next answered =>
    obtain rfl := Option.some.inj responded
    rw [answered]
    rfl
  next => cases responded

lemma exec_of_get {found : Option JobRegistration}
    (got : Returns (get durable lookup) s (.ok found) t) :
    exec Store.handle (get durable lookup) s = (.ok found, t) :=
  (get_plain durable lookup).exec_of_runs responds_ok got

/-- A deregistration that returns `Ok` has not come to the compensation. -/
lemma exec_of_deregister (done : Returns (deregister durable job) s (.ok ()) t) :
    exec Store.handle (deregister durable job) s = (.ok (), t) := by
  obtain ⟨result, u, got, rest⟩ := runs_bind.mp done
  cases result with
  | error e => exact absurd rest.1 (by simp)
  | ok existing =>
    refine (exec_bind_ok (exec_of_get got)).trans ?_
    cases durable with
    | false => exact (removeCachedRegistration_plain job).exec_of_runs responds_ok rest
    | true =>
      obtain ⟨result, v, removed, rest⟩ := runs_bind.mp rest
      cases result with
      | error e => exact absurd rest.1 (by simp)
      | ok _ =>
        refine (exec_bind_ok ((removeRegistration_plain job).exec_of_runs responds_ok removed)).trans ?_
        obtain ⟨result, w, evicted, rest⟩ := runs_bind.mp rest
        cases result with
        | error e =>
          -- the error is thrown again after the attempt to restore the durable entry
          obtain ⟨restored, _, -, thrown⟩ := runs_bind.mp rest
          cases restored <;> exact absurd thrown.1 (by simp)
        | ok _ =>
          obtain ⟨-, rfl⟩ := rest
          exact exec_tryCatch_ok
            ((removeCachedRegistration_plain job).exec_of_runs responds_ok evicted)

end Ok

/-! ## What every run keeps -/

lemma code_placed (durable : Bool) (request : Request) :
    (request.code durable).Uses StoreOp.Placed := by
  have placed (op : StoreOp) (adds : op.Adds) : op.Placed := adds.placed
  cases request with
  | register reg => exact .bind ((register_adds reg).mono placed) fun _ => trivial
  | deregister job => exact .bind (deregister_placed job) fun _ => trivial
  | get lookup => exact .bind ((get_adds lookup).mono placed) fun _ => trivial
  | listAll => exact .bind listAll_placed fun _ => trivial
  | syncFromDurable => exact .bind syncFromDurable_placed fun _ => trivial

lemma respond_placed {s t : Store} {op : StoreOp} {result : Result op.Value} {applied : Bool}
    (ok : s.Placed) (placed : op.Placed) (responded : respond s op result applied = some t) :
    t.Placed := by
  cases result with
  | ok v =>
    simp only [respond] at responded
    split at responded
    · obtain rfl := Option.some.inj responded
      exact ok.answer placed
    · cases responded
  | error e =>
    obtain rfl := Option.some.inj responded
    cases applied with
    | false => exact ok
    | true => exact ok.answer placed

/-- The entries are in place, and the calls go on writing them where they belong. -/
structure State.Orderly (s : State) : Prop where
  store : s.store.Placed
  calls : ∀ {i call}, s.calls i = some call → call.Uses StoreOp.Placed

lemma State.Orderly.next {durable : Bool} {s t : State} {e : Event} (ok : s.Orderly)
    (taken : step durable s e = some t) : t.Orderly := by
  cases e with
  | begin request =>
    obtain rfl := Option.some.inj taken
    refine ⟨ok.store, fun {i call} at_ => ?_⟩
    by_cases hi : i = s.nextCall
    · subst hi
      obtain rfl : request.code durable = call := by simpa using at_
      exact code_placed durable request
    · exact ok.calls (by simpa [hi] using at_)
  | op i op result applied =>
    obtain ⟨call, at_, taken⟩ := Option.bind_eq_some_iff.mp taken
    obtain ⟨rest, answered, taken⟩ := Option.bind_eq_some_iff.mp taken
    obtain ⟨store, responded, taken⟩ := Option.bind_eq_some_iff.mp taken
    obtain rfl := Option.some.inj taken
    obtain ⟨next, rfl, rfl⟩ := answered?_eq_some.mp answered
    obtain ⟨placed, later⟩ := ok.calls at_
    refine ⟨respond_placed ok.store placed responded, fun {k call} at_ => ?_⟩
    by_cases hk : k = i
    · subst hk
      obtain rfl : next result = call := by simpa using at_
      exact later result
    · exact ok.calls (by simpa [hk] using at_)
  | lose =>
    obtain rfl := Option.some.inj taken
    exact ⟨ok.store.lost, ok.calls⟩

/-- Whatever fails, entries stand under the keys of their registrations. -/
theorem placed_of_run {durable : Bool} {C : Condition State Event} {h : List Event} {s : State}
    (run : RunWhere (system durable) C h s) : s.store.Placed := by
  refine (run.state_invariant State.Orderly ⟨.empty, fun at_ => ?_⟩ ?_).store
  · simp [system] at at_
  · exact fun h s t e ok taken _ => ok.next taken

end NScale.RegistryFailures
