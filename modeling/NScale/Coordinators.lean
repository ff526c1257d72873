import NScale.Threads
import NScale.WakeInvariant

/-!
# What a step does to the coordinators

The rule by which properties of the coordinators are carried over to the deployment: a step
leaves the coordinator of a replica as it is, or is a step of it. It is a step that the
coordinator takes by itself, a call that a thread makes, or the end of a call whose thread is
dropped.
-/
namespace NScale.Deployment
open Service Transition

variable {cfg : Config} {C : Condition State Event} {h : List Event} {s t : State} {e : Event}
  {r : ℕ}

lemma setReplica_coordinator {replica : Replica} (same : replica.coordinator = s.coordinator r) :
    (s.setReplica r replica).coordinator = s.coordinator := by
  funext q
  by_cases here : q = r
  · subst here
    simp [State.coordinator, same]
  · simp [State.coordinator, here]

lemma guardDropped_coordinator (guard : Option JobId) :
    (s.guardDropped r guard).coordinator = s.coordinator := by
  cases guard with
  | none => rfl
  | some job => exact setReplica_coordinator rfl

lemma startedAll_coordinator (new : Option Thread) :
    (s.startedAll new).coordinator = s.coordinator := by
  cases new <;> rfl

lemma answer_coordinator {own : Own} {op : Op} {a : op.Answer} (other : ∀ o, op ≠ .call o)
    (ht : s.answer r own op a = some t) : t.coordinator = s.coordinator := by
  unfold State.answer at ht
  split at ht
  case h_12 =>
    obtain rfl := Option.some.inj ht
    exact setReplica_coordinator rfl
  case h_13 =>
    obtain rfl := Option.some.inj ht
    exact guardDropped_coordinator own.guard
  case h_15 => exact absurd rfl (other _)
  all_goals
    first
    | (cases ht; first | rfl | exact setReplica_coordinator rfl)
    | (split at ht <;> cases ht <;>
        first | rfl | exact setReplica_coordinator rfl | (split <;> rfl))

/-- The return of a caller whose task is dropped. -/
def dropsCall : WakeCoordinator.Event → Bool
  | .dropFetch .. | .dropRecv .. | .dropQuery .. => true
  | _ => false

/-- The event of the coordinator of replica `r` in a step of the deployment. -/
inductive Drives (s : State) (r : ℕ) : Event → WakeCoordinator.Event → Prop
  | internal {ev : WakeCoordinator.Event} (own : isInternal ev = true) : Drives s r (.coord r ev) ev
  | begins {i : ℕ} {op : WakeCoordinator.Operation} {th : Thread} (at_ : s.threads i = some th)
      (here : th.replica = r) : Drives s r (.op i (.call op) (s.coordinator r).nextCall) (.begin op)
  | drops {i : ℕ} {ev : WakeCoordinator.Event} (drop : dropsCall ev = true) :
      Drives s r (.disconnect i) ev

lemma setCoordinator_cases (c : WakeCoordinator.State) (q : ℕ) :
    ((s.setCoordinator r c).coordinator q = s.coordinator q ∧ q ≠ r) ∨
      (q = r ∧ (s.setCoordinator r c).coordinator q = c) := by
  by_cases here : q = r
  · subst here
    exact .inr ⟨rfl, by simp [State.coordinator, State.setCoordinator]⟩
  · exact .inl ⟨by simp [State.coordinator, State.setCoordinator, here], here⟩

lemma dropCall_cases {c d : WakeCoordinator.State} {n : ℕ}
    (dropped : dropCall c n = some d) :
    d = c ∨ ∃ ev, ev.enabled c = true ∧ d = ev.next c ∧ dropsCall ev = true := by
  unfold dropCall at dropped
  split at dropped
  case h_1 reg at_ =>
    exact .inr ⟨.dropFetch n reg, decide_eq_true at_, (Option.some.inj dropped).symm, rfl⟩
  case h_2 reg w inbox at_ =>
    exact .inr ⟨.dropRecv n reg w inbox, decide_eq_true at_, (Option.some.inj dropped).symm, rfl⟩
  case h_3 reg current at_ =>
    exact .inr ⟨.dropQuery n reg current, decide_eq_true at_, (Option.some.inj dropped).symm, rfl⟩
  case h_4 | h_5 => exact .inl (Option.some.inj dropped).symm
  case h_6 => cases dropped

/-- A step leaves a coordinator as it is, or is a step of it. -/
theorem coordinator_cases (taken : step cfg s e = some t) (r : ℕ) :
    t.coordinator r = s.coordinator r ∨
      ∃ ev, ev.enabled (s.coordinator r) = true ∧ t.coordinator r = ev.next (s.coordinator r) ∧
        Drives s r e ev := by
  cases e with
  | arrive | admin | advance =>
    obtain rfl := Option.some.inj taken
    exact .inl rfl
  | cancel q =>
    obtain rfl := Option.some.inj taken
    left
    rw [setReplica_coordinator (by rfl)]
  | tick q | allocation q =>
    simp only [step] at taken
    split at taken
    · obtain rfl := Option.some.inj taken
      left
      change (s.setReplica q _).coordinator r = _
      rw [setReplica_coordinator (by rfl)]
    · cases taken
  | op i op a =>
    obtain ⟨th, at_, taken⟩ := Option.bind_eq_some_iff.mp taken
    obtain ⟨code, -, taken⟩ := Option.bind_eq_some_iff.mp taken
    obtain ⟨u, hu, taken⟩ := Option.bind_eq_some_iff.mp taken
    obtain rfl := Option.some.inj taken
    rw [startedAll_coordinator]
    change u.coordinator r = s.coordinator r ∨ ∃ ev, _ ∧ u.coordinator r = _ ∧ _
    by_cases calls : ∃ o, op = .call o
    · obtain ⟨o, rfl⟩ := calls
      simp only [State.answer] at hu
      split at hu
      next fresh =>
        obtain rfl := Option.some.inj hu
        rcases setCoordinator_cases (s := s) (r := th.replica) _ r with ⟨same, -⟩ | ⟨rfl, moved⟩
        · exact .inl same
        · exact .inr ⟨.begin o, rfl, moved, fresh ▸ .begins at_ rfl⟩
      next => cases hu
    · have other : ∀ o, op ≠ .call o := fun o ho => calls ⟨o, ho⟩
      exact .inl (congrFun (answer_coordinator other hu) r)
  | coord q ev =>
    simp only [step] at taken
    split at taken
    next ok =>
      obtain rfl := Option.some.inj taken
      rcases setCoordinator_cases (s := s) (r := q) (ev.next (s.coordinator q)) r with
        ⟨same, -⟩ | ⟨rfl, moved⟩
      · exact .inl same
      · exact .inr ⟨ev, ok.2, moved, .internal ok.1⟩
    next => cases taken
  | beat j =>
    obtain ⟨th, -, taken⟩ := Option.bind_eq_some_iff.mp taken
    obtain ⟨job, -, taken⟩ := Option.bind_eq_some_iff.mp taken
    obtain rfl := Option.some.inj taken
    exact .inl rfl
  | relayed j =>
    simp only [step] at taken
    split at taken
    · split at taken
      · obtain rfl := Option.some.inj taken
        exact .inl rfl
      · cases taken
    · cases taken
  | disconnect j =>
    simp only [step] at taken
    split at taken
    next q op rest own at_ =>
      obtain ⟨u, hu, taken⟩ := Option.bind_eq_some_iff.mp taken
      obtain rfl := Option.some.inj taken
      change (u.guardDropped q own.guard).coordinator r = s.coordinator r ∨
        ∃ ev, _ ∧ (u.guardDropped q own.guard).coordinator r = _ ∧ _
      rw [guardDropped_coordinator]
      have call {c : ℕ} (hu : (dropCall (s.coordinator q) c).map (s.setCoordinator q) = some u) :
          u.coordinator r = s.coordinator r ∨ ∃ ev, ev.enabled (s.coordinator r) = true ∧
            u.coordinator r = ev.next (s.coordinator r) ∧ Drives s r (.disconnect j) ev := by
        obtain ⟨d, dropped, rfl⟩ := Option.map_eq_some_iff.mp hu
        rcases setCoordinator_cases (s := s) (r := q) d r with ⟨same, -⟩ | ⟨rfl, moved⟩
        · exact .inl same
        · rcases dropCall_cases dropped with same | ⟨ev, en, next, drop⟩
          · exact .inl (moved.trans same)
          · exact .inr ⟨ev, en, moved.trans next, .drops drop⟩
      unfold State.dropped at hu
      split at hu
      · exact call hu
      · exact call hu
      · split at hu
        · cases hu
          exact .inl rfl
        · cases hu
    next => cases taken

lemma coordinator_wellFormed (run : RunWhere (system cfg) C h s) (r : ℕ) :
    WakeCoordinator.WellFormed (s.coordinator r) := by
  have all : ∀ r, WakeCoordinator.WellFormed (s.coordinator r) := by
    apply run.state_invariant fun s => ∀ r, WakeCoordinator.WellFormed (s.coordinator r)
    · exact fun r => WakeCoordinator.wellFormed_initial _ _
    · intro h s t e ok taken _ r
      rcases coordinator_cases taken r with same | ⟨ev, en, moved, -⟩
      · exact same ▸ ok r
      · exact moved ▸ (ok r).next en
  exact all r

end NScale.Deployment
