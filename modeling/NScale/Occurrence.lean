import Mathlib

/-!
# Where a list occurs in another

A separator that occurs once in the first part of a list, and not before it in what is looked
for, fixes where the list can occur. Rows of elements up to the last separator, with `rtakeWhile`.
-/
namespace NScale.Occurrence
variable {α : Type} {q : α} {A B X Y u v : List α}

/-- A list without the separator lies on one side of it. -/
lemma suffix_of_append (free : q ∉ A) (same : u ++ A = X ++ q :: Y) : ∃ w, u = X ++ q :: w ∧ Y = w ++ A := by
  rcases List.append_eq_append_iff.mp same with ⟨w, left, right⟩ | ⟨w, left, right⟩
  · exact absurd (right ▸ List.mem_append_right w (List.mem_cons_self ..)) free
  · cases w with
    | nil =>
      rw [List.nil_append] at right
      exact absurd (right ▸ List.mem_cons_self ..) free
    | cons c w =>
      obtain ⟨rfl, rfl⟩ := List.cons.inj right
      exact ⟨w, left, rfl⟩

lemma suffix_append_cons (free : q ∉ A) : A <:+ X ++ q :: Y ↔ A <:+ Y := by
  constructor
  · rintro ⟨u, same⟩
    obtain ⟨w, -, rfl⟩ := suffix_of_append free same
    exact List.suffix_append ..
  · rintro ⟨w, rfl⟩
    exact ⟨X ++ q :: w, by simp⟩

/-- Where the separator of `A ++ q :: B` can be: at the first one, or behind it. -/
lemma infix_append_cons (freeX : q ∉ X) (freeA : q ∉ A) :
    A ++ q :: B <:+: X ++ q :: Y ↔ (A <:+ X ∧ B <+: Y) ∨ A ++ q :: B <:+: Y := by
  constructor
  · rintro ⟨u, v, same⟩
    have cut : (u ++ A) ++ q :: (B ++ v) = X ++ q :: Y := by simpa using same
    rcases List.append_eq_append_iff.mp cut with ⟨w, left, right⟩ | ⟨w, left, right⟩
    · cases w with
      | nil =>
        obtain rfl := (List.cons.inj right).2
        exact .inl ⟨⟨u, by simpa using left.symm⟩, List.prefix_append ..⟩
      | cons c w =>
        obtain ⟨rfl, -⟩ := List.cons.inj right
        exact absurd (left ▸ by simp) freeX
    · cases w with
      | nil =>
        obtain rfl := (List.cons.inj right).2
        exact .inl ⟨⟨u, by simpa using left⟩, List.prefix_append ..⟩
      | cons c w =>
        obtain ⟨rfl, rfl⟩ := List.cons.inj right
        obtain ⟨w, -, rfl⟩ := suffix_of_append freeA left
        exact .inr ⟨w, v, by simp⟩
  · rintro (⟨⟨u, rfl⟩, v, rfl⟩ | ⟨u, v, rfl⟩)
    · exact ⟨u, v, by simp⟩
    · exact ⟨X ++ q :: u, v, by simp⟩

/-- Both end before their separator. -/
lemma prefix_append_cons (freeA : q ∉ A) (freeX : q ∉ X) : A ++ [q] <+: X ++ q :: Y ↔ A = X := by
  constructor
  · rintro ⟨v, same⟩
    have cut : A ++ q :: v = X ++ q :: Y := by simpa using same
    rcases List.append_eq_append_iff.mp cut with ⟨w, rfl, right⟩ | ⟨w, rfl, right⟩ <;> cases w with
    | nil => simp
    | cons c w =>
      obtain ⟨rfl, -⟩ := List.cons.inj right
      simp at freeA freeX
  · rintro rfl
    exact ⟨Y, by simp⟩

section Last
variable {p : α → Bool}

/-- What comes after the last element without the property. -/
lemma rtakeWhile_append_of_neg {c : α} (neg : p c = false) (all : ∀ x ∈ Y, p x = true) :
    (X ++ c :: Y).rtakeWhile p = Y := by
  rw [List.rtakeWhile, List.reverse_append, List.reverse_cons, List.append_assoc,
    List.takeWhile_append_of_pos fun x mem => all x (List.mem_reverse.mp mem)]
  simp [neg]

lemma mem_rtakeWhile_append {c : α} (pos : p c = true) (all : ∀ x ∈ Y, p x = true) :
    c ∈ (X ++ c :: Y).rtakeWhile p := by
  rw [List.rtakeWhile, List.reverse_append, List.reverse_cons, List.append_assoc,
    List.takeWhile_append_of_pos fun x mem => all x (List.mem_reverse.mp mem)]
  simp [pos]

end Last
end NScale.Occurrence
