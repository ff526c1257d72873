import NScale.Program

/-!
# Simulation of programs

A program over one signature follows a program over another, operation by operation, along a
relation of their states. Programs that run side by side on one state are then followed together,
whatever the order of their operations.
-/
namespace NScale.Program
variable {S T : Signature} {α β σ τ ι : Type}

/-- What an operation may answer, and the state that it may leave. -/
abbrev Behaviour (S : Signature) (σ : Type) := (op : S.Op) → σ → S.Answer op → σ → Prop

section Follows
-- the upper and the lower level, and the states that stand for each other
variable (R : Behaviour S σ) (Q : Behaviour T τ) (Rel : σ → τ → Prop)

/-- Each operation of the lower program is one of the upper program, and whatever the lower one is
answered, the upper one may be answered alike. -/
def Follows : Program T α → Program S α → Prop
  | .pure a, upper => upper = .pure a
  | .perform op next, upper => ∃ op' next', upper = .perform op' next' ∧
      ∀ s t, Rel s t → ∀ b t', Q op t b t' →
        ∃ a s', R op' s a s' ∧ Rel s' t' ∧ Follows (next b) (next' a)

variable {R Q Rel}

lemma Follows.bind {p : Program T α} {q : Program S α} {f : α → Program T β} {g : α → Program S β}
    (first : Follows R Q Rel p q) (rest : ∀ a, Follows R Q Rel (f a) (g a)) :
    Follows R Q Rel (p >>= f) (q >>= g) := by
  induction p generalizing q with
  | pure a =>
    obtain rfl := first
    exact rest a
  | perform op next ih =>
    obtain ⟨op', next', rfl, answers⟩ := first
    refine ⟨op', fun a => next' a >>= g, rfl, fun s t rel b t' answered => ?_⟩
    obtain ⟨a, s', answered', rel', follows⟩ := answers s t rel b t' answered
    exact ⟨a, s', answered', rel', ih b follows⟩

/-- Followed alone, a program may return what the lower one returns. -/
lemma Follows.runs {p : Program T α} {q : Program S α} {s : σ} {t t' : τ} {a : α}
    (follows : Follows R Q Rel p q) (rel : Rel s t) (run : p.Runs Q t a t') :
    ∃ s', q.Runs R s a s' ∧ Rel s' t' := by
  induction p generalizing q s t with
  | pure b =>
    obtain ⟨rfl, rfl⟩ := run
    obtain rfl := follows
    exact ⟨s, ⟨rfl, rfl⟩, rel⟩
  | perform op next ih =>
    obtain ⟨op', next', rfl, answers⟩ := follows
    obtain ⟨b, u, answered, rest⟩ := run
    obtain ⟨a', s', answered', rel', follows'⟩ := answers s t rel b u answered
    obtain ⟨s'', run', rel''⟩ := ih b follows' rel' rest
    exact ⟨s'', ⟨a', s', answered', run'⟩, rel''⟩

end Follows

/-! ## Side by side -/

section Pool
variable [DecidableEq ι] {α : ι → Type}

/-- Programs that share a state perform their operations in any order; each may have been left
anywhere. -/
inductive Pool (R : Behaviour S σ) (ps : ∀ i, Program S (α i)) (s : σ) :
    (∀ i, Program S (α i)) → σ → Prop
  | nil : Pool R ps s ps s
  | step {qs : ∀ i, Program S (α i)} {u v : σ} (i : ι) {op : S.Op}
      {next : S.Answer op → Program S (α i)} {a : S.Answer op} (prior : Pool R ps s qs u)
      (here : qs i = .perform op next) (answered : R op u a v) :
      Pool R ps s (Function.update qs i (next a)) v

variable {R : Behaviour S σ} {Q : Behaviour T τ} {Rel : σ → τ → Prop} {ps qs : ∀ i, Program T (α i)}
  {ps' : ∀ i, Program S (α i)} {s : σ} {t t' : τ}

/-- Programs that follow others one by one follow them side by side. -/
theorem Pool.follows (run : Pool Q ps t qs t') (all : ∀ i, Follows R Q Rel (ps i) (ps' i))
    (rel : Rel s t) : ∃ (qs' : ∀ i, Program S (α i)) (s' : σ),
      Pool R ps' s qs' s' ∧ Rel s' t' ∧ ∀ i, Follows R Q Rel (qs i) (qs' i) := by
  induction run with
  | nil => exact ⟨ps', s, .nil, rel, all⟩
  | @step qs u v i op next b prior here answered ih =>
    obtain ⟨qs', s', run', rel', all'⟩ := ih
    have own := all' i
    rw [here] at own
    obtain ⟨op', next', here', answers⟩ := own
    obtain ⟨a, s'', answered', rel'', follows⟩ := answers s' u rel' b v answered
    refine ⟨_, s'', .step i run' here' answered', rel'', fun j => ?_⟩
    by_cases same : j = i
    · subst same
      rw [Function.update_self, Function.update_self]
      exact follows
    · rw [Function.update_of_ne same, Function.update_of_ne same]
      exact all' j

end Pool

end NScale.Program
