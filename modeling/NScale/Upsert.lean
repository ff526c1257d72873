import Mathlib

/-!
# One match in a list

A list is brought to hold exactly one element that meets a test: the first match is
replaced, later matches are removed back to front by their indexes, and without a match the
new element is appended. All of this is one recursion over the list.
-/
namespace NScale.Upsert
variable {α : Type*} {p q : α → Bool} {d a : α} {l : List α}

/-- The indexes of the elements that meet the test, counted from `n`. -/
def indexes (p : α → Bool) (l : List α) (n : ℕ) : List ℕ :=
  (l.zipIdx n).filterMap fun (a, i) => if p a then some i else none

/-- The first match becomes `d`, all others go; without a match, `d` is appended. -/
def upsert (p : α → Bool) (d : α) : List α → List α
  | [] => [d]
  | a :: l => if p a then d :: l.filter (fun b => !p b) else a :: upsert p d l

lemma indexes_cons (p : α → Bool) (a : α) (l : List α) (n : ℕ) :
    indexes p (a :: l) n = (if p a then [n] else []) ++ indexes p l (n + 1) := by
  by_cases h : p a = true <;> simp [indexes, h]

lemma indexes_succ (p : α → Bool) (l : List α) (n : ℕ) :
    indexes p l (n + 1) = (indexes p l n).map (· + 1) := by
  induction l generalizing n with
  | nil => rfl
  | cons a l ih =>
    rw [indexes_cons, indexes_cons, ih]
    by_cases h : p a = true <;> simp [h]

/-- Removing elements behind the head, by their indexes. -/
lemma foldr_eraseIdx_succ (is : List ℕ) (a : α) (l : List α) :
    (is.map (· + 1)).foldr (fun i m => m.eraseIdx i) (a :: l) =
      a :: is.foldr (fun i m => m.eraseIdx i) l := by
  induction is with
  | nil => rfl
  | cons i is ih => simp only [List.map_cons, List.foldr_cons, ih, List.eraseIdx_cons_succ]

/-- Removing all matches back to front is filtering them out. -/
lemma eraseIdx_indexes (p : α → Bool) (l : List α) :
    (indexes p l 0).foldr (fun i m => m.eraseIdx i) l = l.filter fun b => !p b := by
  induction l with
  | nil => rfl
  | cons a l ih =>
    rw [indexes_cons, indexes_succ, List.foldr_append, foldr_eraseIdx_succ, ih]
    by_cases h : p a = true <;> simp [h]

lemma upsert_of_none (none_ : indexes p l 0 = []) (d : α) : upsert p d l = l ++ [d] := by
  induction l with
  | nil => rfl
  | cons a l ih =>
    rw [indexes_cons, indexes_succ] at none_
    by_cases h : p a = true
    · simp [h] at none_
    · simp only [Bool.not_eq_true] at h
      have rest : indexes p l 0 = [] := by simpa [h] using none_
      simp [upsert, h, ih rest]

/-- The first match overwritten, and the later ones removed back to front. -/
lemma upsert_of_first {first : ℕ} {rest : List ℕ} (found : indexes p l 0 = first :: rest) (d : α) :
    rest.reverse.foldl List.eraseIdx (l.set first d) = upsert p d l := by
  rw [List.foldl_reverse]
  induction l generalizing first rest with
  | nil => simp [indexes] at found
  | cons a l ih =>
    rw [indexes_cons, indexes_succ] at found
    by_cases h : p a = true
    · obtain ⟨rfl, rfl⟩ : 0 = first ∧ (indexes p l 0).map (· + 1) = rest := by simpa [h] using found
      simp only [List.set_cons_zero, foldr_eraseIdx_succ, eraseIdx_indexes, upsert, h, if_true]
    · simp only [Bool.not_eq_true] at h
      cases tail : indexes p l 0 with
      | nil => simp [h, tail] at found
      | cons i is =>
        obtain ⟨rfl, rfl⟩ : i + 1 = first ∧ is.map (· + 1) = rest := by simpa [h, tail] using found
        simp only [List.set_cons_succ, foldr_eraseIdx_succ, ih tail, upsert, h,
          Bool.false_eq_true, if_false]

/-- Exactly the new element meets the test. -/
lemma filter_upsert_self (meets : p d = true) (l : List α) : (upsert p d l).filter p = [d] := by
  induction l with
  | nil => simp [upsert, meets]
  | cons a l ih =>
    by_cases h : p a = true
    · simp [upsert, h, meets, List.filter_filter]
    · simp [upsert, h, ih]

/-- What is picked by a test that excludes the matches stays as it is, in its order. -/
lemma filter_upsert_of_apart (apart : ∀ b, p b = true → q b = false) (meets : p d = true)
    (l : List α) : (upsert p d l).filter q = l.filter q := by
  have keeps : ∀ m : List α, (m.filter fun b => !p b).filter q = m.filter q := by
    intro m
    rw [List.filter_filter]
    refine List.filter_congr fun b _ => ?_
    cases hb : p b
    · simp
    · simp [apart b hb]
  induction l with
  | nil => simp [upsert, apart d meets]
  | cons a l ih =>
    by_cases h : p a = true
    · simp [upsert, h, apart a h, apart d meets, keeps]
    · simp [upsert, h, List.filter_cons, ih]

/-- Another element in the place of the one that was put there. -/
lemma upsert_map_replace {e : α} (meets : p d = true) (l : List α) :
    (upsert p d l).map (fun b => if p b then e else b) = upsert p e l := by
  have same : ∀ m : List α, (m.filter fun b => !p b).map (fun b => if p b then e else b) =
      m.filter fun b => !p b := by
    intro m
    refine (List.map_congr_left fun b hb => ?_).trans (List.map_id _)
    have unmet : p b = false := by simpa using (List.mem_filter.mp hb).2
    simp [unmet]
  induction l with
  | nil => simp [upsert, meets]
  | cons a l ih =>
    by_cases h : p a = true
    · simp [upsert, h, meets, same]
    · simp [upsert, h, ih]

/-- With a single match, it is only replaced. -/
lemma upsert_of_single {e : α} (single : l.filter p = [a]) :
    upsert p e l = l.map fun b => if p b then e else b := by
  induction l with
  | nil => simp at single
  | cons b l ih =>
    by_cases h : p b = true
    · obtain ⟨-, none_⟩ : b = a ∧ l.filter p = [] := by simpa [h] using single
      have unmet : ∀ c ∈ l, p c = false := by simpa [List.filter_eq_nil_iff] using none_
      have kept : l.filter (fun c => !p c) = l :=
        List.filter_eq_self.mpr fun c hc => by simp [unmet c hc]
      have same : l.map (fun c => if p c then e else c) = l :=
        (List.map_congr_left fun c hc => by simp [unmet c hc]).trans (List.map_id _)
      simp [upsert, h, kept, same]
    · simp [upsert, h, ih (by simpa [h] using single)]

/-- A map that respects the test and keeps the new element commutes with the update. -/
lemma upsert_map {f : α → α} (respects : ∀ b, p (f b) = p b) (keeps : f d = d) (l : List α) :
    upsert p d (l.map f) = (upsert p d l).map f := by
  induction l with
  | nil => simp [upsert, keeps]
  | cons a l ih =>
    by_cases h : p a = true
    · have filtered : (l.map f).filter (fun b => !p b) = (l.filter fun b => !p b).map f := by
        rw [List.filter_map]
        congr 1
        exact List.filter_congr fun b _ => by simp [respects]
      simp [upsert, h, respects, keeps, filtered]
    · simp [upsert, h, respects, ih]

end NScale.Upsert
