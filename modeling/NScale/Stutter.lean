import Mathlib

/-!
# Lists with immediate repetitions

What a sender that may repeat itself delivers, compared with what it has to say: without the
immediate repetitions the one is an initial part of the other.
-/
namespace NScale.Stutter
variable {α β σ : Type*}

section Destutter
variable [DecidableEq α] {a b : α} {l : List α}

lemma destutter'_concat (a b : α) (l : List α) : (l ++ [b]).destutter' (· ≠ ·) a =
    if (a :: l).getLast? = some b then l.destutter' (· ≠ ·) a else l.destutter' (· ≠ ·) a ++ [b] := by
  induction l generalizing a with
  | nil =>
    rw [List.nil_append, List.destutter'_singleton, List.destutter'_nil, List.getLast?_singleton]
    by_cases same : a = b <;> simp [same]
  | cons c l ih =>
    have last : (a :: c :: l).getLast? = (c :: l).getLast? := List.getLast?_cons_cons
    rw [List.cons_append, List.destutter'_cons, List.destutter'_cons, last]
    by_cases same : a = c
    · subst same
      simpa using ih a
    · rw [if_pos same, if_pos same, ih c]
      split_ifs <;> rfl

/-- A new last element counts if it differs from the one before. -/
theorem destutter_concat (l : List α) (b : α) : (l ++ [b]).destutter (· ≠ ·) =
    if l.getLast? = some b then l.destutter (· ≠ ·) else l.destutter (· ≠ ·) ++ [b] := by
  cases l with
  | nil => rfl
  | cons a l => exact destutter'_concat a b l

theorem mem_destutter : a ∈ l.destutter (· ≠ ·) ↔ a ∈ l := by
  induction l using List.reverseRecOn with
  | nil => rfl
  | append_singleton l b ih =>
    rw [destutter_concat]
    split_ifs with last
    · have mem : b ∈ l := List.mem_of_getLast? last
      rw [ih, List.mem_append, List.mem_singleton]
      exact ⟨.inl, fun h => h.elim id fun same => same ▸ mem⟩
    · rw [List.mem_append, List.mem_append, ih]

lemma getLast?_destutter (l : List α) : (l.destutter (· ≠ ·)).getLast? = l.getLast? := by
  induction l using List.reverseRecOn with
  | nil => rfl
  | append_singleton l b ih =>
    rw [destutter_concat]
    split_ifs with last
    · rw [ih, last, List.getLast?_concat]
    · rw [List.getLast?_concat, List.getLast?_concat]

/-- A step that does nothing the second time does not notice repetitions. -/
theorem foldl_destutter {f : σ → α → σ} (again : ∀ s a, f (f s a) a = f s a) (s : σ) (l : List α) :
    (l.destutter (· ≠ ·)).foldl f s = l.foldl f s := by
  induction l using List.reverseRecOn with
  | nil => rfl
  | append_singleton l b ih =>
    rw [destutter_concat, List.foldl_concat]
    split_ifs with last
    · obtain ⟨init, rfl⟩ := List.getLast?_eq_some_iff.mp last
      rw [ih, List.foldl_concat, again]
    · rw [List.foldl_concat, ih]

end Destutter

section Prefix
variable {r : α → α → Prop} [Std.Irrefl r] {l m : List α} {a b : α}

/-- The first element that is missing from an initial part of an ascending list comes next. -/
theorem prefix_concat (part : l <+: m) (ascending : m.Pairwise r) (mem : a ∈ m) (missing : a ∉ l)
    (first : ∀ b ∈ m, r b a → b ∈ l) : l ++ [a] <+: m := by
  obtain ⟨rest, rfl⟩ := part
  have later : a ∈ rest := (List.mem_append.mp mem).resolve_left missing
  cases rest with
  | nil => simp at later
  | cons b rest =>
    rcases List.mem_cons.mp later with rfl | later
    · exact ⟨rest, by simp⟩
    · obtain ⟨-, ascending', apart⟩ := List.pairwise_append.mp ascending
      have below : r b a := (List.pairwise_cons.mp ascending').1 a later
      have before : b ∈ l := first b (by simp) below
      exact absurd (apart b before b List.mem_cons_self) (irrefl b)

/-- Nothing is missing from an initial part that has all elements. -/
theorem prefix_eq (part : l <+: m) (ascending : m.Pairwise r) (all : ∀ a ∈ m, a ∈ l) : l = m := by
  obtain ⟨rest, rfl⟩ := part
  cases rest with
  | nil => simp
  | cons b rest =>
    obtain ⟨-, -, apart⟩ := List.pairwise_append.mp ascending
    exact absurd (apart b (all b (by simp)) b List.mem_cons_self) (irrefl b)

variable [DecidableEq α]

/-- A list that is delivered goes on with its last element again, or with the next one. -/
theorem destutter_concat_prefix (part : l.destutter (· ≠ ·) <+: m) (ascending : m.Pairwise r)
    (mem : a ∈ m) (notBefore : ∀ b, l.getLast? = some b → ¬ r a b)
    (first : ∀ b ∈ m, r b a → b ∈ l) : (l ++ [a]).destutter (· ≠ ·) <+: m := by
  rw [destutter_concat]
  split_ifs with last
  · exact part
  · refine prefix_concat part ascending mem (fun delivered => ?_)
      fun b known below => mem_destutter.mpr (first b known below)
    have ends := getLast?_destutter l
    cases at_ : l.getLast? with
    | none =>
      rw [List.getLast?_eq_none_iff.mp at_] at delivered
      cases delivered
    | some b =>
      obtain ⟨init, split⟩ := List.getLast?_eq_some_iff.mp (ends.trans at_)
      rw [split] at delivered part
      rcases List.mem_append.mp delivered with earlier | same
      · have apart := (List.pairwise_append.mp (ascending.sublist part.sublist)).2.2
        exact notBefore b at_ (apart a earlier b (List.mem_singleton_self b))
      · exact last (at_.trans (congrArg some (List.mem_singleton.mp same).symm))

omit [Std.Irrefl r] in
/-- What does not come after the last element delivered has been delivered. -/
theorem mem_of_prefix (part : l.destutter (· ≠ ·) <+: m) (ascending : m.Pairwise r) (mem : a ∈ m)
    (last : l.getLast? = some b) (before : ¬ r b a) : a ∈ l := by
  obtain ⟨rest, rfl⟩ := part
  rcases List.mem_append.mp mem with delivered | later
  · exact mem_destutter.mp delivered
  · have apart := (List.pairwise_append.mp ascending).2.2
    exact absurd (apart b (mem_destutter.mpr (List.mem_of_getLast? last)) a later) before

end Prefix

end NScale.Stutter
