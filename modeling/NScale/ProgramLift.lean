import NScale.Program

/-!
# Programs in a larger world

A lifted program sees a part of the state. What it may do there is what the program itself may
do on that part, and it does nothing to the rest.
-/
namespace NScale.Program
variable {S T : Signature} {α σ τ : Type}

/-- A lifted program may do to its part of the state what it may do alone, and nothing else. -/
lemma Runs.within {R : (op : S.Op) → σ → S.Answer op → σ → Prop}
    {Q : (op : T.Op) → τ → T.Answer op → τ → Prop} {f : S.Op → T.Op}
    {g : ∀ op, T.Answer (f op) → S.Answer op} (get : τ → σ) (put : σ → τ → τ)
    (put_get : ∀ t, put (get t) t = t) (put_put : ∀ s s' t, put s (put s' t) = put s t)
    (answers : ∀ op t a u, Q (f op) t a u → R op (get t) (g op a) (get u) ∧ u = put (get u) t)
    {p : Program S α} {t u : τ} {a : α} (run : (p.lift f g).Runs Q t a u) :
    p.Runs R (get t) a (get u) ∧ u = put (get u) t := by
  induction p generalizing t with
  | pure b =>
    obtain ⟨rfl, rfl⟩ := run
    exact ⟨⟨rfl, rfl⟩, (put_get t).symm⟩
  | perform op next ih =>
    obtain ⟨r, v, answered, rest⟩ := run
    obtain ⟨here, kept⟩ := answers op t r v answered
    obtain ⟨later, last⟩ := ih (g op r) rest
    exact ⟨⟨g op r, get v, here, later⟩, last.trans (by rw [kept, put_put])⟩

/-- A lifted program may do what the program itself may do. -/
lemma Runs.lifted {R : (op : S.Op) → σ → S.Answer op → σ → Prop}
    {Q : (op : T.Op) → τ → T.Answer op → τ → Prop} {f : S.Op → T.Op}
    {g : ∀ op, T.Answer (f op) → S.Answer op} (get : τ → σ) (put : σ → τ → τ)
    (get_put : ∀ s t, get (put s t) = s) (put_get : ∀ t, put (get t) t = t)
    (put_put : ∀ s s' t, put s (put s' t) = put s t)
    (answers : ∀ op t a s, R op (get t) a s → ∃ b, g op b = a ∧ Q (f op) t b (put s t))
    {p : Program S α} {t : τ} {s : σ} {a : α} (run : p.Runs R (get t) a s) :
    (p.lift f g).Runs Q t a (put s t) := by
  induction p generalizing t with
  | pure b =>
    obtain ⟨rfl, rfl⟩ := run
    exact ⟨rfl, (put_get t).symm⟩
  | perform op next ih =>
    obtain ⟨r, u, answered, rest⟩ := run
    obtain ⟨b, rfl, here⟩ := answers op t r u answered
    have later := ih (g op b) (t := put u t) (by rwa [get_put])
    rw [put_put] at later
    exact ⟨b, put u t, here, later⟩

/-! ## Rules for monitors -/

section Meets
variable {μ ε β : Type} {M : Monitor S μ} {N : Monitor T μ} {m : μ}

/-- A lifted program keeps to a monitor that sees its operations as the monitor of the program. -/
lemma Meets.lift {f : S.Op → T.Op} {g : ∀ op, T.Answer (f op) → S.Answer op}
    (requires : ∀ m op, M.requires m op → N.requires m (f op))
    (assumes : ∀ m op b, N.assumes m (f op) b → M.assumes m op (g op b))
    (next : ∀ m op b, N.next m (f op) b = M.next m op (g op b))
    {post : α → μ → Prop} {p : Program S α} (ok : p.Meets M post m) :
    (p.lift f g).Meets N post m := by
  induction p generalizing m with
  | pure a => exact ok
  | perform op rest ih =>
    refine ⟨requires m op ok.1, fun b hb => ?_⟩
    rw [next]
    exact ih (g op b) (ok.2 (g op b) (assumes m op b hb))

/-- Sequencing of code that may fail. -/
lemma Meets.bind_run {x : ExceptT ε (Program S) α} {f : α → ExceptT ε (Program S) β}
    {post : Except ε α → μ → Prop} {post' : Except ε β → μ → Prop}
    (first : Program.Meets M post x.run m)
    (rest : ∀ a m, post (.ok a) m → Program.Meets M post' (f a).run m)
    (failed : ∀ e m, post (.error e) m → post' (.error e) m) :
    Program.Meets M post' (x >>= f).run m := by
  refine Meets.bind first fun result m holds => ?_
  cases result with
  | ok a => exact rest a m holds
  | error e => exact failed e m holds

/-- A program that may be answered in any way performs only what its monitor permits somewhere. -/
lemma Meets.uses {α : Type} {post : α → μ → Prop} {p : Program S α} (ok : p.Meets M post m)
    (total : ∀ m op r, M.assumes m op r) : p.Uses fun op => ∃ m, M.requires m op := by
  induction p generalizing m with
  | pure a => trivial
  | perform op next ih => exact ⟨⟨m, ok.1⟩, fun r => ih r (ok.2 r (total m op r))⟩

/-- An error goes to its handler. -/
lemma Meets.tryCatch_run {x : ExceptT ε (Program S) α} {f : ε → ExceptT ε (Program S) α}
    {post post' : Except ε α → μ → Prop} (first : Program.Meets M post x.run m)
    (rest : ∀ e m, post (.error e) m → Program.Meets M post' (f e).run m)
    (returned : ∀ a m, post (.ok a) m → post' (.ok a) m) :
    Program.Meets M post' (tryCatch x f).run m := by
  refine Meets.bind first fun result m holds => ?_
  cases result with
  | ok a => exact returned a m holds
  | error e => exact rest e m holds

end Meets
end NScale.Program
