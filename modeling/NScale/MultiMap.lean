import Mathlib

/-!
# Maps with several values for a key

A map lists its entries, those of one key next to each other in the order in which they came.
An entry is appended behind the others of its key. Copying a map entry by entry gives it back,
and so does copying a part of it that is chosen by keys.
-/
namespace NScale.MultiMap

variable {κ β : Type*}

/-- The values of every key stand together. -/
def Grouped : List (κ × β) → Prop
  | [] => True
  | entry :: rest => (entry.1 ∈ rest.map Prod.fst → rest.head?.map Prod.fst = some entry.1) ∧ Grouped rest

lemma Grouped.filter {L : List (κ × β)} (grouped : Grouped L) (p : κ → Bool) :
    Grouped (L.filter fun entry => p entry.1) := by
  induction L with
  | nil => trivial
  | cons entry rest ih =>
    by_cases kept : p entry.1
    · rw [List.filter_cons_of_pos (by simpa using kept)]
      refine ⟨fun mem => ?_, ih grouped.2⟩
      have mem' : entry.1 ∈ rest.map Prod.fst := List.map_subset _ (List.filter_subset_self rest) mem
      cases rest with
      | nil => cases mem'
      | cons next rest =>
        have same : next.1 = entry.1 := Option.some.inj (grouped.1 mem')
        rw [List.filter_cons_of_pos (by simpa [same] using kept)]
        exact congrArg some same
    · rw [List.filter_cons_of_neg (by simpa using kept)]
      exact ih grouped.2

/-- The next entry has a new key, or that of the entry before it. -/
lemma Grouped.next {P Q : List (κ × β)} {entry : κ × β} (grouped : Grouped (P ++ entry :: Q)) :
    entry.1 ∉ P.map Prod.fst ∨ P.getLast?.map Prod.fst = some entry.1 := by
  induction P with
  | nil => exact .inl List.not_mem_nil
  | cons first P ih =>
    cases P with
    | nil =>
      by_cases same : first.1 = entry.1
      · exact .inr (congrArg some same)
      · exact .inl (by simpa using Ne.symm same)
    | cons second P =>
      rcases ih grouped.2 with fresh | last
      · left
        have other : first.1 ≠ entry.1 := by
          intro same
          have later : second.1 = first.1 := Option.some.inj (grouped.1 (by simp [same]))
          exact fresh (by simp [later, same])
        simpa [Ne.symm other] using fresh
      · exact .inr last

section
variable [DecidableEq κ]

/-- An entry is put behind the last one of its key, or at the end. -/
def append (key : κ) (value : β) : List (κ × β) → List (κ × β)
  | [] => [(key, value)]
  | entry :: rest =>
    if entry.1 = key ∧ key ∉ rest.map Prod.fst then entry :: (key, value) :: rest
    else entry :: append key value rest

/-- The map of entries that come one after the other. -/
def ofEntries (entries : List (κ × β)) : List (κ × β) :=
  entries.foldl (fun map entry => append entry.1 entry.2 map) []

variable {key : κ} {value : β} {L : List (κ × β)}

lemma mem_append {entry : κ × β} : entry ∈ append key value L ↔ entry = (key, value) ∨ entry ∈ L := by
  induction L with
  | nil => simp [append]
  | cons first rest ih =>
    unfold append
    split
    · simp only [List.mem_cons]
      exact or_left_comm
    · simp only [List.mem_cons, ih]
      exact or_left_comm

lemma head?_append (entry : κ × β) : (append key value (entry :: L)).head? = some entry := by
  unfold append
  split <;> rfl

theorem Grouped.append (grouped : Grouped L) : Grouped (append key value L) := by
  induction L with
  | nil => exact ⟨fun mem => (List.not_mem_nil mem).elim, trivial⟩
  | cons entry rest ih =>
    unfold MultiMap.append
    split
    next last => exact ⟨fun _ => congrArg some last.1.symm, fun mem => absurd mem last.2, grouped.2⟩
    next later =>
      refine ⟨fun mem => ?_, ih grouped.2⟩
      have mem' : entry.1 ∈ rest.map Prod.fst := by
        obtain ⟨e, inside, same⟩ := List.mem_map.mp mem
        rcases mem_append.mp inside with rfl | inside
        · by_contra fresh
          have same : key = entry.1 := same
          exact later ⟨same.symm, same ▸ fresh⟩
        · exact same ▸ List.mem_map_of_mem inside
      cases rest with
      | nil => cases mem'
      | cons next rest =>
        rw [head?_append]
        exact grouped.1 mem'

theorem grouped_ofEntries (entries : List (κ × β)) : Grouped (ofEntries entries) := by
  unfold ofEntries
  induction entries using List.reverseRecOn with
  | nil => trivial
  | append_singleton entries entry ih =>
    rw [List.foldl_concat]
    exact ih.append

/-- Where the key is new, or that of the last entry, the entry comes to the end. -/
lemma append_eq (place : key ∉ L.map Prod.fst ∨ L.getLast?.map Prod.fst = some key) :
    append key value L = L ++ [(key, value)] := by
  induction L with
  | nil => rfl
  | cons entry rest ih =>
    unfold append
    cases rest with
    | nil => split <;> rfl
    | cons next rest =>
      have place' : key ∉ (next :: rest).map Prod.fst ∨
          (next :: rest).getLast?.map Prod.fst = some key :=
        place.imp_left fun fresh mem => fresh (List.mem_cons_of_mem _ mem)
      split
      next last =>
        have same : (next :: rest).getLast?.map Prod.fst = some key := place.resolve_left fun fresh =>
          fresh (by simp [last.1])
        obtain ⟨e, found, rfl⟩ := Option.map_eq_some_iff.mp same
        exact absurd (List.mem_map_of_mem (List.mem_of_getLast? found)) last.2
      next =>
        rw [ih place']
        rfl

/-- A map is what its entries make one after the other. -/
theorem ofEntries_eq (grouped : Grouped L) : ofEntries L = L := by
  have copied : ∀ P Q, L = P ++ Q → ofEntries P = P := by
    intro P
    induction P using List.reverseRecOn with
    | nil => exact fun _ _ => rfl
    | append_singleton P entry ih =>
      intro Q split
      rw [List.append_assoc] at split
      have earlier : ofEntries P = P := ih _ split
      rw [ofEntries, List.foldl_concat]
      rw [ofEntries] at earlier
      rw [earlier]
      exact append_eq (split ▸ grouped).next
  exact copied L [] (List.append_nil L).symm

/-- The entries with a key that is chosen, copied one after the other. -/
theorem ofEntries_filter (grouped : Grouped L) (p : κ → Bool) :
    ofEntries (L.filter fun entry => p entry.1) = L.filter fun entry => p entry.1 :=
  ofEntries_eq (grouped.filter p)

end

end NScale.MultiMap
