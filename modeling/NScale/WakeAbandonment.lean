import NScale.Census
import NScale.WakeJoin

/-!
# The wake that is given up

A wake task reads the receiver count of its channel twice and gives the wake up if nobody is
there. It stores DORMANT and sends `Cancelled` some steps later, and until then a caller can
still subscribe.
-/
namespace NScale.WakeCoordinator
open Transition Census

/-- The `WakeState` to whose channel the caller is subscribed. -/
def Call.channel? : Call → Option ℕ
  | .spawn _ w _ | .recv _ w _ => some w
  | _ => none

@[simp] lemma Call.channel?_deliver (w : ℕ) (msg : WakeResult) (c : Call) :
    (c.deliver w msg).channel? = c.channel? := by
  cases c with
  | spawn reg v inbox => cases inbox <;> rfl
  | recv reg v inbox => cases inbox <;> rfl
  | _ => rfl

lemma Reset.channel?_finish (job : JobId) (by_ : Reset) : (by_.finish job).channel? = none := by
  cases by_ <;> rfl

abbrev State.subscribers (s : State) (w : ℕ) : Set ℕ := members s.calls fun c => c.channel? = some w

/-- The receiver count of a channel is the number of its subscribers. -/
def Counted (s : State) : Prop := ∀ w, (s.subscribers w).encard = (s.cells w).receivers

lemma counted_initial (n timeout : ℕ) : Counted (initial n timeout) := by
  intro w
  have nobody : (initial n timeout).subscribers w = ∅ := members_empty fun _ _ h => by cases h
  rw [nobody, Set.encard_empty]
  rfl

namespace Counted
variable {s s' : State} {i w : ℕ} {c c' : Call} {job : JobId}

lemma of_eq (ok : Counted s) (calls : s'.calls = s.calls)
    (receivers : ∀ w, (s'.cells w).receivers = (s.cells w).receivers) : Counted s' := by
  intro w
  rw [State.subscribers, calls, receivers]
  exact ok w

/-- A caller that neither subscribes nor leaves. -/
lemma setCall (ok : Counted s) (at_ : s.calls i = some c) (same : c'.channel? = c.channel?) :
    Counted (s.setCall i c') := by
  intro w
  have census : (s.setCall i c').subscribers w = s.subscribers w := members_same at_ (by rw [same])
  rw [census]
  exact ok w

lemma setStatus (ok : Counted s) {status : Status} : Counted (s.setStatus w status) := by
  refine ok.of_eq rfl fun v => ?_
  by_cases same : v = w
  · subst same
    simp
  · simp [same]

lemma storeStatus (ok : Counted s) {status : Status} : Counted (s.storeStatus job status) := by
  unfold State.storeStatus
  split
  · exact ok.setStatus
  · exact ok

lemma join (ok : Counted s) (at_ : s.calls i = some c) (free : c.channel? = none)
    (joins : c'.channel? = some w) : Counted ((s.joined w).setCall i c') := by
  intro v
  by_cases same : v = w
  · subst same
    have outside : i ∉ s.subscribers v := fun mem => by simp [mem_iff at_, free] at mem
    have census : (((s.joined v).setCall i c').subscribers v).encard =
        (s.subscribers v).encard + 1 := encard_enter outside joins
    rw [census, ok v]
    simp [State.joined]
  · have census : ((s.joined w).setCall i c').subscribers v = s.subscribers v := by
      apply members_same at_
      simp [free, joins, Ne.symm same]
    rw [census, ok v]
    simp [State.joined, same]

lemma leave (ok : Counted s) (at_ : s.calls i = some c) (had : c.channel? = some w)
    (free : c'.channel? = none) : Counted ((s.left w).setCall i c') := by
  intro v
  by_cases same : v = w
  · subst same
    have census : (((s.left v).setCall i c').subscribers v).encard + 1 =
        (s.subscribers v).encard := encard_leave at_ had (by simp [free])
    rw [ok v] at census
    have pos : 0 < (s.cells v).receivers := by
      by_contra none_
      rw [Nat.eq_zero_of_not_pos none_] at census
      simp at census
    obtain ⟨m, hm⟩ := Nat.exists_eq_add_of_le' pos
    rw [hm, Nat.cast_add, Nat.cast_one] at census
    have count : (((s.left v).setCall i c').cells v).receivers = m := by simp [State.left, hm]
    rw [count]
    exact ENat.add_left_injective_of_ne_top ENat.one_ne_top census
  · have census : ((s.left w).setCall i c').subscribers v = s.subscribers v := by
      apply members_same at_
      simp [free, had, Ne.symm same]
    rw [census, ok v]
    simp [State.left, same]

lemma begin (ok : Counted s) (wf : WellFormed s) (op : Operation) :
    Counted (Event.next s (.begin op)) := by
  intro w
  have fresh : s.calls s.nextCall = none :=
    Option.eq_none_iff_forall_not_mem.mpr fun c hc => (wf.calls hc).false
  have census : (Event.next s (.begin op)).subscribers w = s.subscribers w :=
    members_fresh fresh (by cases op <;> simp [Operation.call, Call.channel?])
  rw [census]
  exact ok w

lemma broadcast (ok : Counted s) {msg : WakeResult} : Counted (s.broadcast w msg) := by
  intro v
  have census : (s.broadcast w msg).subscribers v = s.subscribers v := by
    ext i
    cases at_ : s.calls i <;> simp [mem_members, at_]
  rw [census]
  exact ok v

/-- Nobody is subscribed to a `WakeState` that does not exist yet. -/
lemma nobody (wf : WellFormed s) : s.subscribers s.nextCell = ∅ := by
  apply members_empty
  intro i c at_ channel
  have cell : ∃ job, c.cell? = some (job, s.nextCell) := by
    cases c with
    | spawn reg w inbox | recv reg w inbox =>
      obtain rfl : w = s.nextCell := Option.some.inj channel
      exact ⟨reg.jobId, rfl⟩
    | _ => cases channel
  obtain ⟨job, cell⟩ := cell
  exact absurd (wf.callCell at_ cell).1 (lt_irrefl _)

lemma orInsert (ok : Counted s) (wf : WellFormed s) : Counted (s.orInsert job).1 := by
  unfold State.orInsert
  split
  · exact ok
  · intro w
    change (s.subscribers w).encard = _
    by_cases same : w = s.nextCell
    · subst same
      rw [nobody wf]
      simp
    · rw [ok w]
      simp [same]

theorem next {e : Event} (ok : Counted s) (wf : WellFormed s) (en : e.enabled s = true) :
    Counted (e.next s) := by
  cases e with
  | begin op => exact ok.begin wf op
  | subscribe => exact ok.join (of_decide_eq_true en) rfl rfl
  | ownSubscribe => exact ok.join (of_decide_eq_true en) rfl rfl
  | recv | timeout | dropRecv => exact ok.leave (of_decide_eq_true en) rfl rfl
  | entry i reg =>
    have at_ := of_decide_eq_true en
    exact (ok.orInsert wf).setCall (c := .entry reg) (by simpa using at_) rfl
  | fastPath | load | cached | fetched | queried =>
    simp only [Event.next]
    split <;> exact ok.setCall (of_decide_eq_true en) rfl
  | tryStart =>
    simp only [Event.next]
    split
    · exact ok.setStatus.setCall (of_decide_eq_true en) rfl
    · exact ok.setCall (of_decide_eq_true en) rfl
  | spawn i reg w inbox =>
    have moved : Counted (s.setCall i (.recv reg w inbox)) := ok.setCall (of_decide_eq_true en) rfl
    exact moved.of_eq rfl fun _ => rfl
  | store | evict | refreshStore =>
    exact Counted.setCall (ok.of_eq rfl fun _ => rfl) (of_decide_eq_true en) rfl
  | dropFetch | dropQuery => exact ok.setCall (of_decide_eq_true en) rfl
  | reset i job by_ =>
    have at_ : s.calls i = some (.reset job by_) := of_decide_eq_true en
    exact ok.storeStatus.setCall (c := .reset job by_) (by simpa using at_) rfl
  | refreshReady i reg current ep =>
    have at_ : s.calls i = some (.refreshReady reg current ep) := of_decide_eq_true en
    exact ok.storeStatus.setCall (c := .refreshReady reg current ep) (by simpa using at_) rfl
  | remove i job by_ =>
    exact Counted.setCall (ok.of_eq rfl fun _ => rfl) (of_decide_eq_true en)
      (Reset.channel?_finish job by_)
  | storeReady | storeDormant => exact ok.setStatus.of_eq rfl fun _ => rfl
  | sendReady | sendFailure => exact ok.broadcast.of_eq rfl fun _ => rfl
  | scaled | healthy =>
    simp only [Event.next]
    split <;> exact ok.of_eq rfl fun _ => rfl
  | pollReceivers =>
    simp only [Event.next]
    split_ifs <;> exact ok.of_eq rfl fun _ => rfl
  | acquire | publish | removeEntry => exact ok.of_eq rfl fun _ => rfl

/-- A channel without receivers has no subscribers. -/
lemma nobody_of_zero (ok : Counted s) (none_ : (s.cells w).receivers = 0) : s.subscribers w = ∅ := by
  rw [← Set.encard_eq_zero, ok w, none_]
  rfl

end Counted

/-! ## Nobody is told that the wake was given up -/

/-- The `WakeState` of a wake that the task has given up, while it has still to send so. -/
def Task.abandons? : Task → Option ℕ
  | .storeDormant _ w .cancelled | .sendFailure _ w .cancelled => some w
  | _ => none

/-- A task has given up the wake and not yet sent `Cancelled` on the channel of `w`. -/
def State.Abandoning (s : State) (w : ℕ) : Prop :=
  ∃ t < s.nextTask, ∃ k ∈ s.tasks t, k.abandons? = some w

instance (s : State) (w : ℕ) : Decidable (s.Abandoning w) :=
  inferInstanceAs (Decidable (∃ t < s.nextTask, ∃ k ∈ s.tasks t, k.abandons? = some w))

/-- Nomad and Consul do not answer with the error that stands for a wake given up, which only
the coordinator makes. -/
def OwnAbandonment : Condition State Event := fun _ _ e =>
  match e with
  | .scaled _ _ _ (.error err) | .healthy _ _ _ _ (.error err) => failure err ≠ .cancelled
  | _ => True

/-- No caller subscribes after the second reading of the receiver count and before the send. -/
def JoinsUnabandoned : Condition State Event := fun _ s e =>
  match e with
  | .subscribe _ _ w | .ownSubscribe _ _ w => ¬ s.Abandoning w
  | _ => True

/-- No caller receives `Cancelled`. -/
def NoneCancelled (s : State) : Prop := ∀ i c, s.calls i = some c → c.inbox? ≠ some .cancelled

/-- The same without the bound on the tasks, which are numbered. -/
def State.GivesUp (s : State) (w : ℕ) : Prop := ∃ t k, s.tasks t = some k ∧ k.abandons? = some w

lemma abandoning_iff {s : State} {w : ℕ} (wf : WellFormed s) : s.Abandoning w ↔ s.GivesUp w := by
  constructor
  · rintro ⟨t, -, k, at_, gives⟩
    exact ⟨t, k, at_, gives⟩
  · rintro ⟨t, k, at_, gives⟩
    exact ⟨t, wf.tasks at_, k, at_, gives⟩

/-- While a wake is being given up its channel has no subscribers, and nobody has been told. -/
structure Undisturbed (s : State) : Prop where
  deserted : ∀ w, s.GivesUp w → s.subscribers w = ∅
  clear : NoneCancelled s

lemma undisturbed_initial (n timeout : ℕ) : Undisturbed (initial n timeout) where
  deserted := by
    rintro w ⟨t, k, at_, -⟩
    cases at_
  clear := by
    intro i c at_
    cases at_

lemma Call.inbox?_of_free {c : Call} (free : c.channel? = none) : c.inbox? = none := by
  cases c with
  | spawn | recv => cases free
  | _ => rfl

/-- A failure that is not `Cancelled` gives up no wake. -/
lemma abandons?_of_other {reg : JobRegistration} {w : ℕ} {why : WakeResult} (other : why ≠ .cancelled) :
    (Task.storeDormant reg w why).abandons? = none := by
  cases why with
  | cancelled => exact absurd rfl other
  | _ => rfl

namespace Undisturbed
variable {s s' : State} {i t w : ℕ} {c c' : Call} {k k' : Task} {msg : WakeResult}

/-- Nobody subscribes and no wake is given up. -/
lemma of_le (ok : Undisturbed s) (gives : ∀ w, s'.GivesUp w → s.GivesUp w)
    (subscribers : ∀ w, s'.subscribers w ⊆ s.subscribers w) (clear : NoneCancelled s') :
    Undisturbed s' :=
  ⟨fun w gone => Set.subset_eq_empty (subscribers w) (ok.deserted w (gives w gone)), clear⟩

lemma of_eq (ok : Undisturbed s) (calls : s'.calls = s.calls) (tasks : s'.tasks = s.tasks) :
    Undisturbed s' := by
  refine ok.of_le (fun w => ?_) (fun w => ?_) ?_
  · rw [State.GivesUp, tasks]
    exact id
  · rw [State.subscribers, calls]
  · intro i c at_
    exact ok.clear i c (calls ▸ at_)

/-- A caller that is subscribed no more, or has not been. -/
lemma setFree (ok : Undisturbed s) (free : c'.channel? = none) : Undisturbed (s.setCall i c') := by
  refine ok.of_le (fun _ => id) (fun w => ?_) ?_
  · have left_ : (s.setCall i c').subscribers w = s.subscribers w \ {i} := members_erase (by simp [free])
    rw [left_]
    exact Set.sdiff_subset
  · intro j c at_
    by_cases same : j = i
    · subst same
      obtain rfl : c' = c := by simpa using at_
      simp [Call.inbox?_of_free free]
    · exact ok.clear j c (by simpa [same] using at_)

lemma begin (ok : Undisturbed s) (op : Operation) : Undisturbed (Event.next s (.begin op)) :=
  Undisturbed.of_eq (ok.setFree (by cases op <;> rfl)) rfl rfl

/-- A caller that stays subscribed. -/
lemma setCall (ok : Undisturbed s) (at_ : s.calls i = some c) (channel : c'.channel? = c.channel?)
    (inbox : c'.inbox? = c.inbox?) : Undisturbed (s.setCall i c') := by
  refine ok.of_le (fun _ => id) (fun w => ?_) ?_
  · have census : (s.setCall i c').subscribers w = s.subscribers w :=
      members_same at_ (by rw [channel])
    rw [census]
  · intro j d at_'
    by_cases same : j = i
    · subst same
      obtain rfl : c' = d := by simpa using at_'
      rw [inbox]
      exact ok.clear j c at_
    · exact ok.clear j d (by simpa [same] using at_')

/-- A caller subscribes to a channel whose wake is not given up. -/
lemma join (ok : Undisturbed s) (wanted : ¬ s.GivesUp w) (joins : c'.channel? = some w)
    (unread : c'.inbox? = none) : Undisturbed (s.setCall i c') where
  deserted := by
    intro v gone
    have other : v ≠ w := by
      rintro rfl
      exact wanted gone
    have left_ : (s.setCall i c').subscribers v = s.subscribers v \ {i} :=
      members_erase (by simp [joins, Ne.symm other])
    rw [left_, ok.deserted v gone, Set.empty_sdiff]
  clear := by
    intro j d at_
    by_cases same : j = i
    · subst same
      obtain rfl : c' = d := by simpa using at_
      simp [unread]
    · exact ok.clear j d (by simpa [same] using at_)

/-- A task that gives up no wake now. -/
lemma setTask (ok : Undisturbed s) (on : k'.abandons? = none) : Undisturbed (s.setTask t k') := by
  refine ok.of_le (fun w => ?_) (fun _ => subset_rfl) ok.clear
  rintro ⟨u, l, at_, gone⟩
  by_cases same : u = t
  · subst same
    obtain rfl : k' = l := by simpa using at_
    cases on.symm.trans gone
  · exact ⟨u, l, by simpa [same] using at_, gone⟩

/-- The task finds nobody on its channel. -/
lemma giveUp (ok : Undisturbed s) (nobody : s.subscribers w = ∅) (gives : k'.abandons? = some w) :
    Undisturbed (s.setTask t k') := by
  refine ⟨?_, ok.clear⟩
  rintro v ⟨u, l, at_, gone⟩
  by_cases same : u = t
  · subst same
    obtain rfl : k' = l := by simpa using at_
    obtain rfl : w = v := Option.some.inj (gives.symm.trans gone)
    exact nobody
  · exact ok.deserted v ⟨u, l, by simpa [same] using at_, gone⟩

/-- A task that has given up a wake goes on. -/
lemma storeDormant (ok : Undisturbed s) {reg : JobRegistration} {why : WakeResult}
    (at_ : s.tasks t = some (.storeDormant reg w why)) :
    Undisturbed ((s.setStatus w .dormant).setTask t (.sendFailure reg w why)) := by
  have stored : Undisturbed (s.setStatus w .dormant) := ok.of_eq rfl rfl
  cases why with
  | cancelled => exact stored.giveUp (ok.deserted w ⟨t, _, at_, rfl⟩) rfl
  | _ => exact stored.setTask rfl

/-- What is sent to a channel is not `Cancelled`, or nobody is there. -/
lemma broadcast (ok : Undisturbed s) (unheard : msg = .cancelled → s.subscribers w = ∅) :
    Undisturbed (s.broadcast w msg) := by
  refine ok.of_le (fun _ => id) (fun v => ?_) ?_
  · rintro i ⟨c, at_, channel⟩
    obtain ⟨d, at_', rfl⟩ := Option.map_eq_some_iff.mp (show (s.calls i).map _ = _ from at_)
    exact ⟨d, at_', by simpa using channel⟩
  · intro i c at_
    obtain ⟨d, at_', rfl⟩ := Option.map_eq_some_iff.mp (show (s.calls i).map _ = _ from at_)
    rcases Call.deliver_cases w msg d with same | ⟨waits, -, told⟩
    · rw [same]
      exact ok.clear i d at_'
    · rw [told]
      intro cancelled
      have channel : d.channel? = some w := by
        cases d with
        | spawn reg v inbox | recv reg v inbox =>
          cases inbox with
          | none => exact waits
          | some msg => cases waits
        | _ => cases waits
      have mem : i ∈ s.subscribers w := ⟨d, at_', channel⟩
      rw [unheard (Option.some.inj cancelled)] at mem
      exact mem

/-- One step under the conditions keeps the channels of wakes that are given up empty. -/
theorem next {h : List Event} {e : Event} (ok : Undisturbed s) (counted : Counted s)
    (wf : WellFormed s) (en : e.enabled s = true) (own : OwnAbandonment h s e)
    (joins : JoinsUnabandoned h s e) : Undisturbed (e.next s) := by
  cases e with
  | begin op => exact ok.begin op
  | subscribe i reg w =>
    have wanted : ¬ s.GivesUp w := fun gone => joins ((abandoning_iff wf).mpr gone)
    exact Undisturbed.join (s := s.joined w) (ok.of_eq rfl rfl) wanted rfl rfl
  | ownSubscribe i reg w =>
    have wanted : ¬ s.GivesUp w := fun gone => joins ((abandoning_iff wf).mpr gone)
    exact Undisturbed.join (s := s.joined w) (ok.of_eq rfl rfl) wanted rfl rfl
  | spawn i reg w inbox =>
    have moved : Undisturbed (s.setCall i (.recv reg w inbox)) :=
      ok.setCall (of_decide_eq_true en) rfl rfl
    have spawned : Undisturbed ((s.setCall i (.recv reg w inbox)).setTask s.nextTask
      (.acquire reg w)) := moved.setTask rfl
    exact spawned.of_eq rfl rfl
  | recv | timeout | dropRecv => exact Undisturbed.setFree (ok.of_eq rfl rfl) rfl
  | entry => exact Undisturbed.setFree (ok.of_eq (by simp) (by simp)) rfl
  | reset | refreshReady => exact Undisturbed.setFree (ok.of_eq (by simp) (by simp)) rfl
  | remove i job by_ => exact Undisturbed.setFree (ok.of_eq rfl rfl) (Reset.channel?_finish job by_)
  | fastPath | load | cached | fetched | queried =>
    simp only [Event.next]
    split <;> exact ok.setFree rfl
  | tryStart =>
    simp only [Event.next]
    split <;> exact Undisturbed.setFree (ok.of_eq rfl rfl) rfl
  | store | dropFetch | dropQuery | evict | refreshStore =>
    exact Undisturbed.setFree (ok.of_eq rfl rfl) rfl
  | acquire | publish | storeReady | removeEntry =>
    exact Undisturbed.setTask (ok.of_eq rfl rfl) rfl
  | scaled t reg w answer =>
    cases answer with
    | ok _ => exact Undisturbed.setTask (ok.of_eq rfl rfl) rfl
    | error err => exact Undisturbed.setTask (ok.of_eq rfl rfl) (abandons?_of_other own)
  | healthy t reg w saw answer =>
    cases answer with
    | ok ep => exact ok.setTask rfl
    | error err => exact ok.setTask (abandons?_of_other own)
  | pollReceivers t reg w saw =>
    simp only [Event.next]
    split_ifs with none_ twice
    · exact ok.giveUp (counted.nobody_of_zero none_) rfl
    · exact ok.setTask rfl
    · exact ok.setTask rfl
  | storeDormant t reg w why => exact ok.storeDormant (of_decide_eq_true en)
  | sendReady t reg w ep => exact Undisturbed.setTask (ok.broadcast (by simp)) rfl
  | sendFailure t reg w why =>
    refine Undisturbed.setTask (ok.broadcast ?_) rfl
    rintro rfl
    exact ok.deserted w ⟨t, _, of_decide_eq_true en, rfl⟩

end Undisturbed

theorem counted_of_run {n timeout : ℕ} {C : Condition State Event} {h : List Event} {s : State}
    (run : RunWhere (system n timeout) C h s) : Counted s := by
  apply run.invariant fun _ s => Counted s
  · exact counted_initial n timeout
  · intro h s t e prior ok taken _
    obtain ⟨en, rfl⟩ := step_iff.mp taken
    exact ok.next (wellFormed_of_run prior) en

section
variable {n timeout : ℕ} {h : List Event} {s : State}

/-- Answers and subscriptions are as they should be. -/
def Wanted : Condition State Event := fun h s e => OwnAbandonment h s e ∧ JoinsUnabandoned h s e

instance (h : List Event) (s : State) (e : Event) : Decidable (OwnAbandonment h s e) := by
  unfold OwnAbandonment
  split <;> infer_instance

/-- The `WakeState` to whose channel the event subscribes a caller. -/
def Event.joins? : Event → Option ℕ
  | .subscribe _ _ w | .ownSubscribe _ _ w => some w
  | _ => none

instance (h : List Event) (s : State) (e : Event) : Decidable (JoinsUnabandoned h s e) :=
  decidable_of_iff (∀ w ∈ e.joins?, ¬ s.Abandoning w) <| by
    cases e <;> simp [Event.joins?, JoinsUnabandoned]

instance (h : List Event) (s : State) (e : Event) : Decidable (Wanted h s e) :=
  inferInstanceAs (Decidable (OwnAbandonment h s e ∧ JoinsUnabandoned h s e))

lemma undisturbed_of_run (run : RunWhere (system n timeout) Wanted h s) : Undisturbed s := by
  apply run.invariant fun _ s => Undisturbed s
  · exact undisturbed_initial n timeout
  · intro h s t e prior ok taken wanted
    obtain ⟨en, rfl⟩ := step_iff.mp taken
    exact ok.next (counted_of_run prior) (wellFormed_of_run prior) en wanted.1 wanted.2

/-- What is left to do for a task that has given up a wake. -/
def Task.tells (t : ℕ) : Task → List Event
  | .storeDormant reg w why => [.storeDormant t reg w why, .sendFailure t reg w why]
  | .sendFailure reg w why => [.sendFailure t reg w why]
  | _ => []

/-- The task sends `Cancelled` to a caller that waits. -/
lemma leads_sendFailure {i t w : ℕ} {c : Call} {reg : JobRegistration}
    (told : s.tasks t = some (.sendFailure reg w .cancelled)) (at_ : s.calls i = some c)
    (waits : c.waits? = some w) :
    (system n timeout).Leads s [.sendFailure t reg w .cancelled] fun s => ¬ NoneCancelled s := by
  refine leads_cons (decide_eq_true told) (.nil fun clear => ?_)
  have heard : (c.deliver w .cancelled).inbox? = some .cancelled := by
    cases c with
    | spawn reg v inbox | recv reg v inbox =>
      cases inbox with
      | none =>
        obtain rfl : v = w := Option.some.inj waits
        simp [Call.deliver, Call.inbox?]
      | some msg => cases waits
    | _ => cases waits
  exact clear i (c.deliver w .cancelled) (by simp [Event.next, at_]) heard

lemma leads_tells {i t w : ℕ} {c : Call} {k : Task} (at_ : s.tasks t = some k)
    (gives : k.abandons? = some w) (caller : s.calls i = some c) (waits : c.waits? = some w) :
    (system n timeout).Leads s (k.tells t) fun s => ¬ NoneCancelled s := by
  cases k with
  | storeDormant reg v why =>
    cases why with
    | cancelled =>
      obtain rfl : v = w := Option.some.inj gives
      refine leads_cons (decide_eq_true at_) (leads_sendFailure ?_ caller waits)
      simp [Event.next]
    | _ => cases gives
  | sendFailure reg v why =>
    cases why with
    | cancelled =>
      obtain rfl : v = w := Option.some.inj gives
      exact leads_sendFailure at_ caller waits
    | _ => cases gives
  | _ => cases gives

/-- A subscription outside the condition: once the task has gone on, the caller has received
`Cancelled`. -/
theorem cancelled_of_late_join {e : Event} (late : ¬ JoinsUnabandoned h s e) :
    ∃ es, (system n timeout).Leads (e.next s) es fun s => ¬ NoneCancelled s := by
  cases e with
  | subscribe i reg w =>
    obtain ⟨t, -, k, at_, gives⟩ := not_not.mp late
    exact ⟨k.tells t, leads_tells (s := Event.next s (.subscribe i reg w)) (i := i)
      (c := .recv reg w none) at_ gives (by simp [Event.next]) rfl⟩
  | ownSubscribe i reg w =>
    obtain ⟨t, -, k, at_, gives⟩ := not_not.mp late
    exact ⟨k.tells t, leads_tells (s := Event.next s (.ownSubscribe i reg w)) (i := i)
      (c := .spawn reg w none) at_ gives (by simp [Event.next]) rfl⟩
  | _ => exact absurd trivial late

end

/-- While nobody subscribes between the decision to give up a wake and its announcement, no
caller receives `Cancelled`. -/
theorem noneCancelled_of_run (n timeout : ℕ) (h : List Event) (s : State)
    (run : RunWhere (system n timeout) Wanted h s) : NoneCancelled s := (undisturbed_of_run run).clear

/-- The only caller of a wake is dropped, and its task reads the receiver count for the first
time. -/
def deserted : List Event :=
  [.begin (.ensureRunning echoReg), .fastPath 0 echoReg, .entry 0 echoReg, .load 0 echoReg 0,
    .tryStart 0 echoReg 0, .ownSubscribe 0 echoReg 0, .spawn 0 echoReg 0 none, .acquire 0 echoReg 0,
    .scaled 0 echoReg 0 (.ok ()), .dropRecv 0 echoReg 0 none, .pollReceivers 0 echoReg 0 false]

/-- The wake is given up, and the next caller starts a new one. -/
theorem deserted_noneCancelled : ∃ h s, RunWhere (system 50 60) Wanted h s ∧
    s.tasks 0 = some .finished ∧ s.calls 1 = some (.recv echoReg 1 none) ∧ NoneCancelled s := by
  obtain ⟨h, s, run, finished, waits⟩ := exists_run (T := system 50 60) (C := Wanted)
    (fun _ s => s.tasks 0 = some .finished ∧ s.calls 1 = some (.recv echoReg 1 none))
    (deserted ++ [.pollReceivers 0 echoReg 0 true, .storeDormant 0 echoReg 0 .cancelled,
      .sendFailure 0 echoReg 0 .cancelled, .removeEntry 0 echoReg 0,
      .begin (.ensureRunning echoReg), .fastPath 1 echoReg, .entry 1 echoReg, .load 1 echoReg 1,
      .tryStart 1 echoReg 1, .ownSubscribe 1 echoReg 1, .spawn 1 echoReg 1 none]) (by decide +kernel)
  exact ⟨h, s, run, finished, waits, noneCancelled_of_run 50 60 h s run⟩

/-- Another caller finds the job waking and subscribes after the second reading. -/
theorem abandoned_under_waiter : ¬ ∀ h s, RunWhere (system 50 60) OwnAbandonment h s →
    NoneCancelled s := by
  intro all
  obtain ⟨h, s, run, told⟩ := exists_run (T := system 50 60) (C := OwnAbandonment)
    (fun _ s => s.calls 1 = some (.recv echoReg 0 (some .cancelled)))
    (deserted ++ [.begin (.ensureRunning echoReg), .fastPath 1 echoReg, .entry 1 echoReg,
      .load 1 echoReg 0, .pollReceivers 0 echoReg 0 true, .subscribe 1 echoReg 0,
      .storeDormant 0 echoReg 0 .cancelled, .sendFailure 0 echoReg 0 .cancelled]) (by decide +kernel)
  exact all h s run 1 _ told rfl

end NScale.WakeCoordinator
