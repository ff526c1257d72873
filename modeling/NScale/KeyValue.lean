import Mathlib

/-!
# Ordered key-value stores

A store answers a range request with the entries of a part of its keys, in key order. A table
that is laid out in a part of the keys is found again in the answers.
-/
namespace NScale

abbrev KeyValue (K V : Type*) := AList fun _ : K => V

namespace KeyValue
variable {K V : Type*} {t : KeyValue K V} {key : K} {value : V}

def toList (t : KeyValue K V) : List (K × V) := t.entries.map fun e => (e.1, e.2)

lemma mem_toList [DecidableEq K] : (key, value) ∈ t.toList ↔ t.lookup key = some value := by
  rw [← Option.mem_def, AList.mem_lookup_iff, toList, List.mem_map]
  constructor
  · rintro ⟨e, mem, same⟩
    obtain ⟨rfl, rfl⟩ := Prod.mk.inj same
    exact mem
  · exact fun mem => ⟨_, mem, rfl⟩

lemma nodup_keys_toList (t : KeyValue K V) : (t.toList.map Prod.fst).Nodup := by
  have keys : t.toList.map Prod.fst = t.keys := by
    rw [toList, List.map_map]
    rfl
  rw [keys]
  exact t.keys_nodup

section Range
variable [LinearOrder K] {inside : K → Bool}

/-- The entries of a part of the keys, in key order. -/
def range (t : KeyValue K V) (inside : K → Bool) : List (K × V) :=
  (t.toList.filter fun e => inside e.1).insertionSort fun a b => a.1 ≤ b.1

lemma mem_range : (key, value) ∈ t.range inside ↔ t.lookup key = some value ∧ inside key = true := by
  rw [range, List.mem_insertionSort, List.mem_filter, mem_toList]

lemma range_ascending (t : KeyValue K V) (inside : K → Bool) :
    (t.range inside).Pairwise fun a b => a.1 < b.1 := by
  have sorted : (t.range inside).Pairwise fun a b => a.1 ≤ b.1 :=
    List.pairwise_insertionSort (fun a b : K × V => a.1 ≤ b.1) _
  have once : ((t.range inside).map Prod.fst).Nodup := by
    have perm := (List.perm_insertionSort (fun a b : K × V => a.1 ≤ b.1)
      (t.toList.filter fun e => inside e.1)).map Prod.fst
    exact perm.nodup_iff.mpr (List.Nodup.sublist (List.filter_sublist.map Prod.fst) t.nodup_keys_toList)
  have apart : (t.range inside).Pairwise fun a b => a.1 ≠ b.1 := List.pairwise_map.mp once
  exact (sorted.and apart).imp fun both => lt_of_le_of_ne both.1 both.2

/-- Entries in key order are determined by what they are. -/
lemma eq_of_ascending {l m : List (K × V)} (hl : l.Pairwise fun a b => a.1 < b.1)
    (hm : m.Pairwise fun a b => a.1 < b.1) (same : ∀ e, e ∈ l ↔ e ∈ m) : l = m := by
  have once {l : List (K × V)} (hl : l.Pairwise fun a b => a.1 < b.1) : l.Nodup :=
    hl.imp fun lt same => lt.ne (congrArg Prod.fst same)
  exact ((List.perm_ext_iff_of_nodup (once hl) (once hm)).mpr same).eq_of_pairwise
    (fun a b _ _ lt lt' => absurd lt lt'.asymm) hl hm

/-- A table that is laid out in a part of the keys, each value in a form of its own. -/
theorem range_map {L W X : Type*} [LinearOrder L] {small : KeyValue L W} {f : L → K} {read : V → X}
    {own : W → X} (mono : StrictMono f) (covers : ∀ k, inside k = true ↔ ∃ l, f l = k)
    (laid : ∀ l, (t.lookup (f l)).map read = (small.lookup l).map own) :
    (t.range inside).map (fun e => (e.1, read e.2)) =
      (small.range fun _ => true).map fun e => (f e.1, own e.2) := by
  refine eq_of_ascending ?_ ?_ ?_
  · exact List.pairwise_map.mpr (t.range_ascending inside)
  · exact List.pairwise_map.mpr ((small.range_ascending _).imp fun lt => mono lt)
  · rintro ⟨k, x⟩
    simp only [List.mem_map, Prod.exists, Prod.mk.injEq]
    constructor
    · rintro ⟨_, v, mem, rfl, rfl⟩
      obtain ⟨found, within⟩ := mem_range.mp mem
      obtain ⟨l, rfl⟩ := (covers _).mp within
      have own_ := (laid l).symm
      rw [found, Option.map_some] at own_
      obtain ⟨w, here, same⟩ := Option.map_eq_some_iff.mp own_
      exact ⟨l, w, mem_range.mpr ⟨here, rfl⟩, rfl, same⟩
    · rintro ⟨l, w, mem, rfl, rfl⟩
      have read_ := laid l
      rw [(mem_range.mp mem).1, Option.map_some] at read_
      obtain ⟨v, here, same⟩ := Option.map_eq_some_iff.mp read_
      exact ⟨f l, v, mem_range.mpr ⟨here, (covers _).mpr ⟨l, rfl⟩⟩, rfl, same⟩

end Range
end KeyValue
end NScale
