import Mathlib

/-!
# Programs over a signature of operations

A program is a tree: it returns, or performs an operation and goes on with the answer. What
an operation does is left open, so that the same program can be run alone against a handler
and, one operation at a time, against other programs. Failing code is written in `ExceptT`.
-/
namespace NScale

structure Signature where
  Op : Type
  Answer : Op → Type

inductive Program (S : Signature) (α : Type)
  | pure (a : α)
  | perform (op : S.Op) (next : S.Answer op → Program S α)

namespace Program
variable {S : Signature} {α β ε σ : Type}

def bind (p : Program S α) (f : α → Program S β) : Program S β :=
  match p with
  | .pure a => f a
  | .perform op next => .perform op fun r => (next r).bind f

instance : Monad (Program S) where
  pure := .pure
  bind := .bind

/-- Perform one operation and return its answer. -/
def call (op : S.Op) : Program S (S.Answer op) := .perform op .pure

lemma bind_assoc' {γ : Type} (p : Program S α) (f : α → Program S β) (g : β → Program S γ) :
    p >>= f >>= g = p >>= fun a => f a >>= g := by
  induction p with
  | pure a => rfl
  | perform op next ih => exact congrArg (Program.perform op) (funext fun r => ih r)

lemma id_map' (p : Program S α) : id <$> p = p := by
  induction p with
  | pure a => rfl
  | perform op next ih => exact congrArg (Program.perform op) (funext fun r => ih r)

instance : LawfulMonad (Program S) :=
  LawfulMonad.mk' (Program S) id_map' (fun _ _ => rfl) bind_assoc'

/-- Two programs run side by side, an operation of one or the other at a time, until both have
returned. -/
inductive Interleaves (handle : (op : S.Op) → σ → S.Answer op × σ) :
    Program S α → Program S β → σ → σ → Prop
  | done (a : α) (b : β) (s : σ) : Interleaves handle (.pure a) (.pure b) s s
  | left {op : S.Op} {next : S.Answer op → Program S α} {q : Program S β} {s t : σ}
      (rest : Interleaves handle (next (handle op s).1) q (handle op s).2 t) :
      Interleaves handle (.perform op next) q s t
  | right {p : Program S α} {op : S.Op} {next : S.Answer op → Program S β} {s t : σ}
      (rest : Interleaves handle p (next (handle op s).1) (handle op s).2 t) :
      Interleaves handle p (.perform op next) s t

/-- Run the program alone, every operation answered by the handler. -/
def run (handle : (op : S.Op) → σ → S.Answer op × σ) (p : Program S α) (s : σ) : α × σ :=
  match p with
  | .pure a => (a, s)
  | .perform op next => (next (handle op s).1).run handle (handle op s).2

/-- The same for code that may fail. -/
def exec (handle : (op : S.Op) → σ → S.Answer op × σ) (p : ExceptT ε (Program S) α) (s : σ) :
    Except ε α × σ := Program.run handle p.run s

section Run
variable {handle : (op : S.Op) → σ → S.Answer op × σ} {s t : σ}

/-- Beside a program that has returned, the other runs alone. -/
lemma interleaves_pure_left {a : α} {q : Program S β} :
    Interleaves handle (.pure a : Program S α) q s t ↔ (q.run handle s).2 = t := by
  constructor
  · intro both
    induction q generalizing s with
    | pure b =>
      cases both
      rfl
    | perform op next ih =>
      cases both with
      | right rest => exact ih _ rest
  · rintro rfl
    induction q generalizing s with
    | pure b => exact .done a b s
    | perform op next ih => exact .right (ih _)

lemma interleaves_pure_right {p : Program S α} {b : β} :
    Interleaves handle p (.pure b : Program S β) s t ↔ (p.run handle s).2 = t := by
  constructor
  · intro both
    induction p generalizing s with
    | pure a =>
      cases both
      rfl
    | perform op next ih =>
      cases both with
      | left rest => exact ih _ rest
  · rintro rfl
    induction p generalizing s with
    | pure a => exact .done a b s
    | perform op next ih => exact .left (ih _)

lemma interleaves_perform {op op' : S.Op} {next : S.Answer op → Program S α}
    {next' : S.Answer op' → Program S β} :
    Interleaves handle (.perform op next) (.perform op' next') s t ↔
      Interleaves handle (next (handle op s).1) (.perform op' next') (handle op s).2 t ∨
        Interleaves handle (.perform op next) (next' (handle op' s).1) (handle op' s).2 t := by
  constructor
  · rintro (_ | rest | rest)
    · exact .inl rest
    · exact .inr rest
  · rintro (rest | rest)
    · exact .left rest
    · exact .right rest

lemma run_bind (p : Program S α) (f : α → Program S β) :
    (p >>= f).run handle s = (f (p.run handle s).1).run handle (p.run handle s).2 := by
  induction p generalizing s with
  | pure a => rfl
  | perform op next ih => exact ih (handle op s).1

@[simp] lemma exec_pure (a : α) :
    exec handle (Pure.pure a : ExceptT ε (Program S) α) s = (.ok a, s) := rfl

/-- What comes after code that succeeds runs from the state it leaves. -/
lemma exec_bind_ok {x : ExceptT ε (Program S) α} {f : α → ExceptT ε (Program S) β} {a : α}
    (ok : exec handle x s = (.ok a, t)) : exec handle (x >>= f) s = exec handle (f a) t := by
  have done : x.run.run handle s = (.ok a, t) := ok
  simp only [exec, ExceptT.run_bind, run_bind, done]

/-- A handler of errors is idle where there is none. -/
lemma exec_tryCatch_ok {x : ExceptT ε (Program S) α} {f : ε → ExceptT ε (Program S) α} {a : α}
    (ok : exec handle x s = (.ok a, t)) : exec handle (tryCatch x f) s = (.ok a, t) := by
  have done : x.run.run handle s = (.ok a, t) := ok
  change Program.run handle (x.run >>= _) s = _
  rw [run_bind, done]
  rfl

end Run

/-- The program of one signature as a program of another that has its operations. -/
def lift {T : Signature} (f : S.Op → T.Op) (g : ∀ op, T.Answer (f op) → S.Answer op)
    (p : Program S α) : Program T α :=
  match p with
  | .pure a => .pure a
  | .perform op next => .perform (f op) fun r => (next (g op r)).lift f g

lemma lift_bind {T : Signature} {f : S.Op → T.Op} {g : ∀ op, T.Answer (f op) → S.Answer op}
    (p : Program S α) (k : α → Program S β) :
    (p >>= k).lift f g = p.lift f g >>= fun a => (k a).lift f g := by
  induction p with
  | pure a => rfl
  | perform op next ih => exact congrArg (Program.perform (f op)) (funext fun r => ih (g op r))

/-- A lifted program does on its part of the state what it does alone. -/
lemma run_lift {T : Signature} {τ : Type} {f : S.Op → T.Op} {g : ∀ op, T.Answer (f op) → S.Answer op}
    {handle : (op : S.Op) → σ → S.Answer op × σ} {within : (op : T.Op) → τ → T.Answer op × τ}
    (put : σ → τ → τ) (get : τ → σ) (get_put : ∀ s t, get (put s t) = s)
    (put_get : ∀ t, put (get t) t = t) (put_put : ∀ s s' t, put s (put s' t) = put s t)
    (answers : ∀ op t, g op (within (f op) t).1 = (handle op (get t)).1)
    (leaves : ∀ op t, (within (f op) t).2 = put (handle op (get t)).2 t) (p : Program S α) (t : τ) :
    (p.lift f g).run within t = ((p.run handle (get t)).1, put (p.run handle (get t)).2 t) := by
  induction p generalizing t with
  | pure a => exact Prod.ext rfl (put_get t).symm
  | perform op next ih =>
    simp only [lift, run]
    rw [ih, answers, leaves, get_put, put_put]

/-- The rest of the program after its next operation, if it is this one, has been answered. -/
def answered? [DecidableEq S.Op] (p : Program S α) (op : S.Op) (r : S.Answer op) :
    Option (Program S α) :=
  match p with
  | .pure _ => none
  | .perform o next => if h : op = o then some (next (h ▸ r)) else none

lemma answered?_eq_some [DecidableEq S.Op] {p q : Program S α} {op : S.Op} {r : S.Answer op} :
    p.answered? op r = some q ↔ ∃ next, p = .perform op next ∧ next r = q := by
  cases p with
  | pure a => simp [answered?]
  | perform o next =>
    by_cases h : op = o
    · subst h; simp [answered?]
    · simp [answered?, h, Ne.symm h]

/-- Whatever the answers are, the program performs only operations that are allowed. -/
def Uses (allowed : S.Op → Prop) (p : Program S α) : Prop :=
  match p with
  | .pure _ => True
  | .perform op next => allowed op ∧ ∀ r, (next r).Uses allowed

namespace Uses
variable {allowed : S.Op → Prop}

lemma all (p : Program S α) : p.Uses fun _ => True := by
  induction p with
  | pure a => trivial
  | perform op next ih => exact ⟨trivial, ih⟩

lemma mono {p : Program S α} {wider : S.Op → Prop} (uses : p.Uses allowed)
    (imp : ∀ op, allowed op → wider op) : p.Uses wider := by
  induction p with
  | pure a => trivial
  | perform op next ih => exact ⟨imp op uses.1, fun r => ih r (uses.2 r)⟩

lemma lift {T : Signature} {allowed : T.Op → Prop} {f : S.Op → T.Op}
    {g : ∀ op, T.Answer (f op) → S.Answer op} {p : Program S α}
    (uses : p.Uses fun op => allowed (f op)) : (p.lift f g).Uses allowed := by
  induction p with
  | pure a => trivial
  | perform op next ih => exact ⟨uses.1, fun r => ih (g op r) (uses.2 (g op r))⟩

lemma perform {op : S.Op} {next : S.Answer op → Program S α} (permitted : allowed op)
    (rest : ∀ r, (next r).Uses allowed) : (call op >>= next).Uses allowed := ⟨permitted, rest⟩

lemma bind {p : Program S α} {f : α → Program S β} (first : p.Uses allowed)
    (rest : ∀ a, (f a).Uses allowed) : (p >>= f).Uses allowed := by
  induction p with
  | pure a => exact rest a
  | perform op next ih => exact ⟨first.1, fun r => ih r (first.2 r)⟩

/-- The same for code that may fail. -/
lemma bind_run {x : ExceptT ε (Program S) α} {f : α → ExceptT ε (Program S) β}
    (first : Program.Uses allowed x.run) (rest : ∀ a, Program.Uses allowed (f a).run) :
    Program.Uses allowed (x >>= f).run := by
  refine bind first fun r => ?_
  cases r with
  | ok a => exact rest a
  | error e => trivial

lemma tryCatch_run {x : ExceptT ε (Program S) α} {f : ε → ExceptT ε (Program S) α}
    (first : Program.Uses allowed x.run) (rest : ∀ e, Program.Uses allowed (f e).run) :
    Program.Uses allowed (tryCatch x f).run := by
  refine bind first fun r => ?_
  cases r with
  | ok a => trivial
  | error e => exact rest e

end Uses
end Program

/-! ## Rules for the operations a program performs

A monitor follows the operations of a program in a state of its own. It says what must hold
where an operation is performed, what the program may assume of the answer, and how its
state goes on.
-/

structure Monitor (S : Signature) (μ : Type) where
  requires : μ → S.Op → Prop
  assumes : μ → (op : S.Op) → S.Answer op → Prop
  next : μ → (op : S.Op) → S.Answer op → μ

namespace Program
variable {S : Signature} {α β μ : Type} {M : Monitor S μ} {m : μ}

/-- From the state `m` on, the program keeps to the monitor and ends in the postcondition. -/
def Meets (M : Monitor S μ) (post : α → μ → Prop) (p : Program S α) (m : μ) : Prop :=
  match p with
  | .pure a => post a m
  | .perform op next =>
    M.requires m op ∧ ∀ r, M.assumes m op r → (next r).Meets M post (M.next m op r)

namespace Meets
variable {post : α → μ → Prop} {p : Program S α}

lemma mono {post' : α → μ → Prop} (ok : p.Meets M post m) (imp : ∀ a m, post a m → post' a m) :
    p.Meets M post' m := by
  induction p generalizing m with
  | pure a => exact imp a m ok
  | perform op next ih => exact ⟨ok.1, fun r hr => ih r (ok.2 r hr)⟩

/-- Sequencing: what the first program leaves is what the second starts from. -/
lemma bind {post' : β → μ → Prop} {f : α → Program S β} (first : p.Meets M post m)
    (rest : ∀ a m, post a m → (f a).Meets M post' m) : (p >>= f).Meets M post' m := by
  induction p generalizing m with
  | pure a => exact rest a m first
  | perform op next ih => exact ⟨first.1, fun r hr => ih r (first.2 r hr)⟩

lemma answered [DecidableEq S.Op] {q : Program S α} {op : S.Op} {r : S.Answer op}
    (ok : p.Meets M post m) (taken : p.answered? op r = some q) :
    M.requires m op ∧ (M.assumes m op r → q.Meets M post (M.next m op r)) := by
  obtain ⟨next, rfl, rfl⟩ := answered?_eq_some.mp taken
  exact ⟨ok.1, ok.2 r⟩

/-- Operations that keep a property of the monitor's state may come in any number. -/
lemma of_uses {allowed : S.Op → Prop} (I : μ → Prop) (uses : p.Uses allowed)
    (keeps : ∀ op m, allowed op → I m → M.requires m op ∧ ∀ r, M.assumes m op r → I (M.next m op r))
    (holds : I m) : p.Meets M (fun _ m => I m) m := by
  induction p generalizing m with
  | pure a => exact holds
  | perform op next ih =>
    obtain ⟨required, kept⟩ := keeps op m uses.1 holds
    exact ⟨required, fun r hr => ih r (uses.2 r) (kept r hr)⟩

/-- A performed operation, and what follows it for every answer. -/
lemma perform {op : S.Op} {next : S.Answer op → Program S α} (required : M.requires m op)
    (rest : ∀ r, M.assumes m op r → (next r).Meets M post (M.next m op r)) :
    (call op >>= next).Meets M post m := ⟨required, rest⟩

end Meets
end Program

/-! ## Programs in a world that answers

Here an operation is a relation: in one state it may be answered in several ways, and each
leaves a state of its own.
-/

namespace Program
variable {S : Signature} {α β σ : Type} {R : (op : S.Op) → σ → S.Answer op → σ → Prop}

/-- From `s` the program may return `a` and leave `t`. -/
def Runs (R : (op : S.Op) → σ → S.Answer op → σ → Prop) (p : Program S α) (s : σ) (a : α) (t : σ) :
    Prop :=
  match p with
  | .pure b => b = a ∧ s = t
  | .perform op next => ∃ r u, R op s r u ∧ (next r).Runs R u a t

/-- What the program may return from a state with the precondition has the postcondition. -/
def Triple (R : (op : S.Op) → σ → S.Answer op → σ → Prop) (pre : σ → Prop) (p : Program S α)
    (post : α → σ → Prop) : Prop := ∀ s a t, pre s → p.Runs R s a t → post a t

lemma runs_bind {p : Program S α} {f : α → Program S β} {s t : σ} {b : β} :
    (p >>= f).Runs R s b t ↔ ∃ a u, p.Runs R s a u ∧ (f a).Runs R u b t := by
  induction p generalizing s with
  | pure a =>
    refine ⟨fun rest => ⟨a, s, ⟨rfl, rfl⟩, rest⟩, ?_⟩
    rintro ⟨_, _, ⟨rfl, rfl⟩, rest⟩
    exact rest
  | perform op next ih =>
    constructor
    · rintro ⟨r, u, answered, rest⟩
      obtain ⟨a, v, first, last⟩ := (ih r).mp rest
      exact ⟨a, v, ⟨r, u, answered, first⟩, last⟩
    · rintro ⟨a, v, ⟨r, u, answered, first⟩, last⟩
      exact ⟨r, u, answered, (ih r).mpr ⟨a, v, first, last⟩⟩

lemma runs_call {op : S.Op} {s t : σ} {r : S.Answer op} :
    (call op).Runs R s r t ↔ R op s r t := by
  constructor
  · rintro ⟨_, _, answered, rfl, rfl⟩
    exact answered
  · exact fun answered => ⟨r, t, answered, rfl, rfl⟩

/-- A lifted program may do what the program itself may do. -/
lemma Runs.of_lift {T : Signature} {f : S.Op → T.Op} {g : ∀ op, T.Answer (f op) → S.Answer op}
    {Q : (op : T.Op) → σ → T.Answer op → σ → Prop}
    (answers : ∀ op s r t, Q (f op) s r t → R op s (g op r) t) {p : Program S α} {s t : σ} {a : α}
    (run : (p.lift f g).Runs Q s a t) : p.Runs R s a t := by
  induction p generalizing s with
  | pure b => exact run
  | perform op next ih =>
    obtain ⟨r, u, answered, rest⟩ := run
    exact ⟨g op r, u, answers op s r u answered, ih _ rest⟩

namespace Triple
variable {pre pre' : σ → Prop} {post : α → σ → Prop} {p : Program S α}

lemma pure {a : α} (imp : ∀ s, pre s → post a s) :
    Triple R pre (Pure.pure a : Program S α) post := by
  rintro s _ _ holds ⟨rfl, rfl⟩
  exact imp s holds

/-- Sequencing. -/
lemma bind {f : α → Program S β} {post' : β → σ → Prop} (first : Triple R pre p post)
    (rest : ∀ a, Triple R (post a) (f a) post') : Triple R pre (p >>= f) post' := by
  intro s b t holds run
  obtain ⟨a, u, run₁, run₂⟩ := runs_bind.mp run
  exact rest a u b t (first s a u holds run₁) run₂

/-- One operation. -/
lemma call {op : S.Op} {post : S.Answer op → σ → Prop}
    (one : ∀ s r u, pre s → R op s r u → post r u) : Triple R pre (Program.call op) post := by
  rintro s r t holds ⟨_, _, answered, rfl, rfl⟩
  exact one s _ _ holds answered

lemma mono {post' : α → σ → Prop} (triple : Triple R pre p post) (before : ∀ s, pre' s → pre s)
    (after : ∀ a s, post a s → post' a s) : Triple R pre' p post' :=
  fun s a t holds run => after a t (triple s a t (before s holds) run)

lemma of_exists {ι : Sort*} {pre : ι → σ → Prop} (each : ∀ i, Triple R (pre i) p post) :
    Triple R (fun s => ∃ i, pre i s) p post := fun s a t ⟨i, holds⟩ run => each i s a t holds run

lemma of_and {known : Prop} (given : known → Triple R pre p post) :
    Triple R (fun s => known ∧ pre s) p post :=
  fun s a t ⟨fact, holds⟩ run => given fact s a t holds run

/-- Operations that keep a property of the state may come in any number. -/
lemma of_uses {allowed : S.Op → Prop} (I : σ → Prop) (uses : p.Uses allowed)
    (keeps : ∀ op s r u, allowed op → I s → R op s r u → I u) : Triple R I p fun _ => I := by
  intro s a t holds run
  induction p generalizing s with
  | pure b =>
    obtain ⟨-, rfl⟩ := run
    exact holds
  | perform op next ih =>
    obtain ⟨r, u, answered, rest⟩ := run
    exact ih r (uses.2 r) u (keeps op s r u uses.1 holds answered) rest

end Triple

/-- A run against a handler is one of the runs. -/
lemma Runs.of_run {handle : (op : S.Op) → σ → S.Answer op × σ}
    (allowed : ∀ op s, R op s (handle op s).1 (handle op s).2) (p : Program S α) (s : σ) :
    p.Runs R s (p.run handle s).1 (p.run handle s).2 := by
  induction p generalizing s with
  | pure a => exact ⟨rfl, rfl⟩
  | perform op next ih => exact ⟨_, _, allowed op s, ih _ _⟩

/-- Execute a script, each entry of which names an operation, its answer and the state it leaves. -/
def follow [DecidableEq S.Op] {ι : Type} (act : ι → σ → Option ((op : S.Op) × S.Answer op × σ)) :
    List ι → Program S α → σ → Option (α × σ)
  | [], .pure a, s => some (a, s)
  | [], .perform .., _ => none
  | i :: is, p, s =>
    (act i s).bind fun ⟨op, r, u⟩ => (p.answered? op r).bind fun q => q.follow act is u

/-- What a script executes, the program may do. -/
lemma Runs.of_follow [DecidableEq S.Op] {ι : Type}
    {act : ι → σ → Option ((op : S.Op) × S.Answer op × σ)}
    (allowed : ∀ i s op r u, act i s = some ⟨op, r, u⟩ → R op s r u) {is : List ι}
    {p : Program S α} {s t : σ} {a : α} (done : follow act is p s = some (a, t)) :
    p.Runs R s a t := by
  induction is generalizing p s with
  | nil =>
    cases p with
    | pure b =>
      obtain ⟨rfl, rfl⟩ := Prod.mk.inj (Option.some.inj done)
      exact ⟨rfl, rfl⟩
    | perform => simp [follow] at done
  | cons i is ih =>
    obtain ⟨⟨op, r, u⟩, acted, rest⟩ := Option.bind_eq_some_iff.mp done
    obtain ⟨q, taken, rest⟩ := Option.bind_eq_some_iff.mp rest
    obtain ⟨next, rfl, rfl⟩ := answered?_eq_some.mp taken
    exact ⟨r, u, allowed i s op r u acted, ih rest⟩

lemma exists_runs [DecidableEq S.Op] {ι : Type}
    {act : ι → σ → Option ((op : S.Op) × S.Answer op × σ)}
    (allowed : ∀ i s op r u, act i s = some ⟨op, r, u⟩ → R op s r u) (Q : α → σ → Prop)
    [∀ a t, Decidable (Q a t)] (is : List ι) (p : Program S α) (s : σ)
    (check : ((p.follow act is s).any fun r => decide (Q r.1 r.2)) = true) :
    ∃ a t, p.Runs R s a t ∧ Q a t := by
  cases done : p.follow act is s with
  | none => simp [done] at check
  | some r =>
    rw [done, Option.any_some] at check
    exact ⟨r.1, r.2, .of_follow allowed done, of_decide_eq_true check⟩

end Program
end NScale
