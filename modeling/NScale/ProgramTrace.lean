import NScale.Program

/-!
# What a program has performed

At any moment of a run, the operations that have been answered so far with their answers,
whatever these are. A program that is dropped there has performed no more.
-/
namespace NScale.Program
variable {S : Signature} {α μ : Type}

abbrev Steps (S : Signature) := List ((op : S.Op) × S.Answer op)

inductive Trace : Program S α → Steps S → Prop
  | begun (p : Program S α) : Trace p []
  | answered {op : S.Op} {next : S.Answer op → Program S α} {steps : Steps S} (r : S.Answer op)
      (rest : Trace (next r) steps) : Trace (.perform op next) (⟨op, r⟩ :: steps)

/-- The state of the monitor after the operations. -/
def after (M : Monitor S μ) (steps : Steps S) (m : μ) : μ :=
  steps.foldl (fun m step => M.next m step.1 step.2) m

/-- What each required operation preserves, every trace of the program keeps. -/
lemma Trace.keeps {M : Monitor S μ} {m : μ} {post : α → μ → Prop} {p : Program S α}
    {steps : Steps S} (trace : p.Trace steps) (ok : p.Meets M post m)
    (trusts : ∀ m op r, M.assumes m op r) (I : μ → Prop) (holds : I m)
    (keeps : ∀ m op r, I m → M.requires m op → I (M.next m op r)) : I (after M steps m) := by
  induction trace generalizing m with
  | begun => exact holds
  | answered r rest ih => exact ih (ok.2 r (trusts _ _ r)) (keeps _ _ r holds ok.1)

section
variable [DecidableEq S.Op]

/-- What is left of the program after the operations, if it performs them. -/
def rest? (p : Program S α) : Steps S → Option (Program S α)
  | [] => some p
  | step :: steps => (p.answered? step.1 step.2).bind (·.rest? steps)

lemma Trace.of_rest? {p : Program S α} {steps : Steps S} (performs : (p.rest? steps).isSome = true) :
    p.Trace steps := by
  induction steps generalizing p with
  | nil => exact .begun p
  | cons step steps ih =>
    obtain ⟨q, rest⟩ := Option.isSome_iff_exists.mp performs
    obtain ⟨q', answered, rest⟩ := Option.bind_eq_some_iff.mp rest
    obtain ⟨next, rfl, rfl⟩ := answered?_eq_some.mp answered
    exact .answered step.2 (ih (Option.isSome_iff_exists.mpr ⟨q, rest⟩))

end
end NScale.Program
