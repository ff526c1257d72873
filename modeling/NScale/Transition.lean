import Mathlib

/-!
# Labelled transition systems

A system is a start state and a partial step function on labels. Runs keep the labels
taken so far, newest first, so that a property may speak about the past of a state. A
run may be restricted by a side condition on every step; the invariant rules below are
the only inductions on runs that a development needs. A log beside the state remembers what
the state forgets.
-/
namespace NScale.Transition

structure System (σ ε : Type*) where
  start : σ
  step : σ → ε → Option σ

variable {σ ε : Type*}

/-- A system whose labels are guarded by a decidable test and then act by a total function. -/
def System.guarded (start : σ) (enabled : σ → ε → Bool) (next : σ → ε → σ) : System σ ε :=
  ⟨start, fun s e => if enabled s e then some (next s e) else none⟩

theorem System.guarded_step {start : σ} {enabled : σ → ε → Bool} {next : σ → ε → σ}
    {s t : σ} {e : ε} :
    (System.guarded start enabled next).step s e = some t ↔ enabled s e = true ∧ next s e = t := by
  simp [System.guarded]

/-- A side condition on a step: the labels already taken, the state, and the new label. -/
abbrev Condition (σ ε : Type*) := List ε → σ → ε → Prop

/-- Runs from a state with a history, all of whose steps meet the condition. -/
inductive RunFrom (T : System σ ε) (C : Condition σ ε) (h₀ : List ε) (s₀ : σ) : List ε → σ → Prop
  | nil : RunFrom T C h₀ s₀ h₀ s₀
  | step {h : List ε} {s t : σ} {e : ε} (prior : RunFrom T C h₀ s₀ h s)
      (taken : T.step s e = some t) (cond : C h s e) : RunFrom T C h₀ s₀ (e :: h) t

/-- Runs from the start. -/
abbrev RunWhere (T : System σ ε) (C : Condition σ ε) : List ε → σ → Prop := RunFrom T C [] T.start

/-- Unrestricted runs. -/
abbrev Run (T : System σ ε) : List ε → σ → Prop := RunWhere T fun _ _ _ => True

/-- The states that some run reaches. -/
def Reachable (T : System σ ε) (s : σ) : Prop := ∃ h, Run T h s

variable {T : System σ ε} {C D : Condition σ ε} {h h₀ : List ε} {s s₀ t : σ}

/-- Induction over a run: a property of history and state that holds at first and is
kept by every step that meets the condition holds of the whole run. -/
theorem RunFrom.invariant (P : List ε → σ → Prop) (start : P h₀ s₀)
    (keep : ∀ h s t e, RunFrom T C h₀ s₀ h s → P h s → T.step s e = some t → C h s e →
      P (e :: h) t) (run : RunFrom T C h₀ s₀ h s) : P h s := by
  induction run with
  | nil => exact start
  | step prior taken cond ih => exact keep _ _ _ _ prior ih taken cond

/-- The same for a property of the state alone. -/
theorem RunFrom.state_invariant (P : σ → Prop) (start : P s₀)
    (keep : ∀ h s t e, P s → T.step s e = some t → C h s e → P t)
    (run : RunFrom T C h₀ s₀ h s) : P s :=
  run.invariant (fun _ s => P s) start fun h s t e _ hp ht hc => keep h s t e hp ht hc

/-- A condition may be weakened, also with the help of what holds on the run so far. -/
theorem RunFrom.mono
    (imp : ∀ h s t e, RunFrom T C h₀ s₀ h s → T.step s e = some t → C h s e → D h s e)
    (run : RunFrom T C h₀ s₀ h s) : RunFrom T D h₀ s₀ h s := by
  induction run with
  | nil => exact .nil
  | step prior taken cond ih => exact .step ih taken (imp _ _ _ _ prior taken cond)

/-- A run goes on where another one ended. -/
theorem RunFrom.append (first : RunFrom T C h₀ s₀ h s) {k : List ε} (rest : RunFrom T C h s k t) :
    RunFrom T C h₀ s₀ k t := by
  induction rest with
  | nil => exact first
  | step prior taken cond ih => exact .step ih taken cond

/-- The labels of the script, oldest first, can be taken and lead to a state with the property. -/
def System.Leads (T : System σ ε) (s : σ) (es : List ε) (Q : σ → Prop) : Prop :=
  ∃ t, es.foldlM T.step s = some t ∧ Q t

lemma System.Leads.nil {Q : σ → Prop} (hq : Q s) : T.Leads s [] Q := ⟨s, rfl, hq⟩

lemma System.Leads.cons {e : ε} {es : List ε} {Q : σ → Prop} (taken : T.step s e = some t)
    (rest : T.Leads t es Q) : T.Leads s (e :: es) Q := by
  obtain ⟨u, hu, hq⟩ := rest
  exact ⟨u, by simp [taken, hu], hq⟩

/-- Execute a script of labels, oldest first, checking the condition at every step. -/
def replay (T : System σ ε) (C : Condition σ ε) [∀ h s e, Decidable (C h s e)] :
    List ε → σ → List ε → Option (List ε × σ)
  | h, s, [] => some (h, s)
  | h, s, e :: es =>
    if C h s e then (T.step s e).bind fun t => replay T C (e :: h) t es else none

theorem RunFrom.replay [∀ h s e, Decidable (C h s e)] {es : List ε} {r : List ε × σ}
    (run : RunFrom T C h₀ s₀ h s) (done : replay T C h s es = some r) :
    RunFrom T C h₀ s₀ r.1 r.2 := by
  induction es generalizing h s with
  | nil =>
    cases done
    exact run
  | cons e es ih =>
    simp only [Transition.replay] at done
    split_ifs at done with cond
    obtain ⟨t, taken, rest⟩ := Option.bind_eq_some_iff.mp done
    exact ih (.step run taken cond) rest

/-- A script that executes and ends in a decidable property exhibits a run with it. -/
theorem exists_runFrom [∀ h s e, Decidable (C h s e)] (Q : List ε → σ → Prop)
    [∀ h s, Decidable (Q h s)] (es : List ε)
    (check : ((replay T C h₀ s₀ es).any fun r => decide (Q r.1 r.2)) = true) :
    ∃ h s, RunFrom T C h₀ s₀ h s ∧ Q h s := by
  cases done : replay T C h₀ s₀ es with
  | none => simp [done] at check
  | some r =>
    rw [done, Option.any_some] at check
    exact ⟨r.1, r.2, RunFrom.nil.replay done, of_decide_eq_true check⟩

theorem exists_run [∀ h s e, Decidable (C h s e)] (Q : List ε → σ → Prop)
    [∀ h s, Decidable (Q h s)] (es : List ε)
    (check : ((replay T C [] T.start es).any fun r => decide (Q r.1 r.2)) = true) :
    ∃ h s, RunWhere T C h s ∧ Q h s := exists_runFrom Q es check

section Log
variable {γ : Type*} {note : γ → σ → ε → γ} {g₀ g g' : γ}

/-- The system with a log beside its state: every step is noted, and the log never blocks one. -/
def System.logged (T : System σ ε) (note : γ → σ → ε → γ) (g₀ : γ) : System (σ × γ) ε where
  start := (T.start, g₀)
  step p e := (T.step p.1 e).map fun t => (t, note p.2 p.1 e)

lemma System.logged_step {e : ε} :
    (T.logged note g₀).step (s, g) e = some (t, g') ↔ T.step s e = some t ∧ note g s e = g' := by
  simp [System.logged]

/-- Every run is logged in one way or another. -/
theorem RunFrom.logged (run : RunFrom T C [] T.start h s) :
    ∃ g, RunWhere (T.logged note g₀) (fun h p e => C h p.1 e) h (s, g) := by
  induction run with
  | nil => exact ⟨g₀, .nil⟩
  | step prior taken cond ih =>
    obtain ⟨g, logged⟩ := ih
    exact ⟨_, .step logged (System.logged_step.mpr ⟨taken, rfl⟩) cond⟩

end Log

end NScale.Transition
