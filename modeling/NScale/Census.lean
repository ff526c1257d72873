import Mathlib

/-!
# Counting numbered parties

Parties have numbers, and a table gives the state of each party that exists. The census of
a property is the set of the parties whose state has it; its size follows the table when
one party moves.
-/
namespace NScale.Census

variable {α : Type*}

/-- The parties whose state has the property. -/
def members (table : ℕ → Option α) (P : α → Prop) : Set ℕ := {i | ∃ a, table i = some a ∧ P a}

variable {table : ℕ → Option α} {P Q : α → Prop} {i : ℕ} {a b : α}

lemma mem_members : i ∈ members table P ↔ ∃ a, table i = some a ∧ P a := Iff.rfl

lemma mem_iff (at_ : table i = some a) : i ∈ members table P ↔ P a := by
  simp [mem_members, at_]

lemma not_mem_of_none (fresh : table i = none) : i ∉ members table P := by
  simp [mem_members, fresh]

lemma members_mono (imp : ∀ i a, table i = some a → P a → Q a) :
    members table P ⊆ members table Q := fun i ⟨a, ha, hp⟩ => ⟨a, ha, imp i a ha hp⟩

lemma members_empty (none_ : ∀ i a, table i = some a → ¬ P a) : members table P = ∅ := by
  ext i
  simpa [mem_members] using none_ i

lemma members_insert (has : P b) :
    members (Function.update table i (some b)) P = insert i (members table P) := by
  ext k
  by_cases hk : k = i
  · subst hk; simp [mem_members, has]
  · simp [mem_members, hk]

lemma members_erase (lacks : ¬ P b) :
    members (Function.update table i (some b)) P = members table P \ {i} := by
  ext k
  by_cases hk : k = i
  · subst hk; simp [mem_members, lacks]
  · simp [mem_members, hk]

/-- A party that keeps or keeps lacking the property does not change the census. -/
lemma members_same (at_ : table i = some a) (same : P b ↔ P a) :
    members (Function.update table i (some b)) P = members table P := by
  by_cases has : P b
  · rw [members_insert has, Set.insert_eq_of_mem ((mem_iff at_).mpr (same.mp has))]
  · rw [members_erase has, Set.sdiff_singleton_eq_self]
    exact fun h => has (same.mpr ((mem_iff at_).mp h))

/-- A new party that lacks the property does not change the census. -/
lemma members_fresh (fresh : table i = none) (lacks : ¬ P b) :
    members (Function.update table i (some b)) P = members table P := by
  rw [members_erase lacks, Set.sdiff_singleton_eq_self (not_mem_of_none fresh)]

lemma encard_enter (outside : i ∉ members table P) (has : P b) :
    (members (Function.update table i (some b)) P).encard = (members table P).encard + 1 := by
  rw [members_insert has, Set.encard_insert_of_notMem outside]

lemma encard_leave (at_ : table i = some a) (has : P a) (lacks : ¬ P b) :
    (members (Function.update table i (some b)) P).encard + 1 = (members table P).encard := by
  rw [members_erase lacks]
  exact Set.encard_sdiff_singleton_add_one ((mem_iff at_).mpr has)

/-! ## Holders of a thing

Everybody holds at most one thing, and a step may take things away, give one to somebody new,
or hand one on.
-/

section Holders
variable {ι β : Type*}

def holders (f : ι → Option β) (b : β) : Set ι := {x | f x = some b}

variable {f g : ι → Option β} {b : β} {x y : ι}

lemma holders_le (kept : ∀ z, g z = some b → f z = some b) :
    (holders g b).encard ≤ (holders f b).encard := Set.encard_le_encard kept

lemma holders_le_succ (y : ι) (kept : ∀ z, z ≠ y → g z = some b → f z = some b) :
    (holders g b).encard ≤ (holders f b).encard + 1 := by
  have sub : holders g b ⊆ insert y (holders f b) := by
    intro z has
    by_cases same : z = y
    · exact .inl same
    · exact .inr (kept z same has)
  exact (Set.encard_le_encard sub).trans (Set.encard_insert_le _ _)

/-- One holder gives the thing up. -/
lemma holders_leave (had : f x = some b) (gone : g x ≠ some b)
    (kept : ∀ z, g z = some b → f z = some b) :
    (holders g b).encard + 1 ≤ (holders f b).encard := by
  have sub : holders g b ⊆ holders f b \ {x} := by
    intro z has
    refine ⟨kept z has, ?_⟩
    rintro rfl
    exact gone has
  calc (holders g b).encard + 1 ≤ (holders f b \ {x}).encard + 1 := by gcongr
    _ = (holders f b).encard := Set.encard_sdiff_singleton_add_one had

/-- One holder hands the thing on to at most one other. -/
lemma holders_pass (had : f x = some b) (gone : g x ≠ some b) (y : ι)
    (kept : ∀ z, z ≠ y → g z = some b → f z = some b) :
    (holders g b).encard ≤ (holders f b).encard := by
  have sub : holders g b ⊆ insert y (holders f b \ {x}) := by
    intro z has
    by_cases same : z = y
    · exact .inl same
    · refine .inr ⟨kept z same has, ?_⟩
      rintro rfl
      exact gone has
  calc (holders g b).encard ≤ (insert y (holders f b \ {x})).encard := Set.encard_le_encard sub
    _ ≤ (holders f b \ {x}).encard + 1 := Set.encard_insert_le _ _
    _ = (holders f b).encard := Set.encard_sdiff_singleton_add_one had

end Holders

end NScale.Census
