import Mathlib

/-!
# Bounded channels

A channel keeps what was sent and not yet received, in order. A sender waits while the channel
is full, and a receiver while it is empty.
-/
namespace NScale

structure Channel (α : Type*) (capacity : ℕ) where
  queue : List α
  bounded : queue.length ≤ capacity

namespace Channel
variable {α : Type*} {capacity : ℕ} {c d : Channel α capacity} {a : α}

def empty : Channel α capacity := ⟨[], Nat.zero_le capacity⟩

def send (c : Channel α capacity) (a : α) : Option (Channel α capacity) :=
  if room : c.queue.length < capacity then some ⟨c.queue ++ [a], by simpa using room⟩ else none

def receive : Channel α capacity → Option (α × Channel α capacity)
  | ⟨[], _⟩ => none
  | ⟨a :: queue, bounded⟩ => some (a, ⟨queue, by simp at bounded; omega⟩)

lemma send_queue (sent : c.send a = some d) : d.queue = c.queue ++ [a] := by
  unfold send at sent
  split at sent
  · obtain rfl := Option.some.inj sent
    rfl
  · cases sent

lemma exists_send (room : c.queue.length < capacity) : ∃ d, c.send a = some d :=
  ⟨_, dif_pos room⟩

lemma receive_queue (received : c.receive = some (a, d)) : c.queue = a :: d.queue := by
  obtain ⟨queue, bounded⟩ := c
  cases queue with
  | nil => cases received
  | cons b queue =>
    obtain ⟨rfl, rfl⟩ := Prod.mk.inj (Option.some.inj received)
    rfl

lemma exists_receive {queue : List α} (holds : c.queue = a :: queue) :
    ∃ d, c.receive = some (a, d) ∧ d.queue = queue := by
  obtain ⟨_, bounded⟩ := c
  subst holds
  exact ⟨_, rfl, rfl⟩

end Channel
end NScale
