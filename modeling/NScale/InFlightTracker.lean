import NScale.Census
import NScale.Transition

/-!
# The in-flight tracker

Every call of `track`, `has_in_flight` and `count`, with the guard that it returns, is a party,
whichever thread makes it. A step is one section under the lock of the map or one atomic
operation. A counter is an object with an address and a number of references to it.
-/
namespace NScale.InFlightTracker

/-- The number of values of `usize`. -/
def usizeSize : ℕ := 2 ^ 64

/-- `Arc::clone` aborts the process when it finds more references than these. -/
def maxRefcount : ℕ := 2 ^ 63 - 1

/-- `Arc<AtomicUsize>`. -/
structure Counter where
  strong : ℕ
  value : ℕ
  deriving DecidableEq, Repr

/-- `has_in_flight` and `count`. -/
inductive Query
  | hasInFlight
  | count
  deriving DecidableEq, Repr

inductive Answer
  | inFlight (some_ : Bool)
  | counted (n : ℕ)
  deriving DecidableEq, Repr

def Query.answer : Query → ℕ → Answer
  | hasInFlight, n => .inFlight (0 < n)
  | count, n => .counted n

inductive Party
  | tracking (job : String)
  /-- The read lock is dropped, the write lock not yet taken. -/
  | missed (job : String)
  | cloned (job : String) (addr : ℕ)
  | guard (job : String) (addr : ℕ)
  /-- The guard has decremented and still holds its reference. -/
  | dropping (job : String) (addr : ℕ)
  | dropped
  | asking (q : Query) (job : String)
  | loading (q : Query) (job : String) (addr : ℕ)
  | answered (a : Answer)
  deriving DecidableEq, Repr

structure State where
  counts : String → Option ℕ
  heap : ℕ → Option Counter
  parties : ℕ → Option Party

def initial : State := ⟨fun _ => none, fun _ => none, fun _ => none⟩

inductive Event
  | track (i : ℕ) (job : String)
  | ask (i : ℕ) (q : Query) (job : String)
  | readSection (i : ℕ)
  /-- `addr` is where a new counter would be allocated. -/
  | writeSection (i addr : ℕ)
  | fetchAdd (i : ℕ)
  | fetchSub (i : ℕ)
  | dropArc (i : ℕ)
  | load (i : ℕ)
  deriving DecidableEq, Repr

namespace State

def move (s : State) (i : ℕ) (p : Party) : State :=
  { s with parties := Function.update s.parties i (some p) }

def setCounter (s : State) (addr : ℕ) (c : Option Counter) : State :=
  { s with heap := Function.update s.heap addr c }

/-- `Arc::clone`; there is no state after an abort. -/
def cloneArc (s : State) (addr : ℕ) : Option State := do
  let c ← s.heap addr
  if c.strong ≤ maxRefcount then some (s.setCounter addr (some { c with strong := c.strong + 1 }))
  else none

/-- `or_insert_with` on a vacant entry. -/
def insert (s : State) (job : String) (addr : ℕ) : Option State :=
  if s.heap addr = none then
    some { s.setCounter addr (some ⟨1, 0⟩) with
      counts := Function.update s.counts job (some addr) }
  else none

def start (s : State) (i : ℕ) (p : Party) : Option State :=
  if s.parties i = none then some (s.move i p) else none

end State

def step (s : State) : Event → Option State
  | .track i job => s.start i (.tracking job)
  | .ask i q job => s.start i (.asking q job)
  | .readSection i =>
    match s.parties i with
    | some (.tracking job) =>
      match s.counts job with
      | some addr => (s.cloneArc addr).map fun t => t.move i (.cloned job addr)
      | none => some (s.move i (.missed job))
    | some (.asking q job) =>
      match s.counts job with
      | some addr => some (s.move i (.loading q job addr))
      | none => some (s.move i (.answered (q.answer 0)))
    | _ => none
  | .writeSection i addr =>
    match s.parties i with
    | some (.missed job) =>
      match s.counts job with
      | some found => (s.cloneArc found).map fun t => t.move i (.cloned job found)
      | none => do
        let t ← s.insert job addr
        let u ← t.cloneArc addr
        return u.move i (.cloned job addr)
    | _ => none
  | .fetchAdd i =>
    match s.parties i with
    | some (.cloned job addr) => do
      let c ← s.heap addr
      return (s.setCounter addr (some { c with value := (c.value + 1) % usizeSize })).move i
        (.guard job addr)
    | _ => none
  | .fetchSub i =>
    match s.parties i with
    | some (.guard job addr) => do
      let c ← s.heap addr
      return (s.setCounter addr (some
        { c with value := (c.value + (usizeSize - 1)) % usizeSize })).move i (.dropping job addr)
    | _ => none
  | .dropArc i =>
    match s.parties i with
    | some (.dropping _ addr) => do
      let c ← s.heap addr
      -- the last reference takes the object with it
      return (s.setCounter addr (if c.strong = 1 then none else
        some { c with strong := c.strong - 1 })).move i .dropped
    | _ => none
  | .load i =>
    -- the read lock is still held; what a writer does in between does not matter
    match s.parties i with
    | some (.loading q _ addr) => do
      let c ← s.heap addr
      return s.move i (.answered (q.answer c.value))
    | _ => none

def system : Transition.System State Event := ⟨initial, step⟩

/-! ## Guards and references -/

/-- The job of a guard whose increment has happened and whose decrement has not. -/
def Party.guards : Party → Option String
  | guard job _ => some job
  | _ => none

/-- The job whose counter the party has cloned and not yet dropped. -/
def Party.owns : Party → Option String
  | cloned job _ => some job
  | guard job _ => some job
  | dropping job _ => some job
  | _ => none

/-- The job and the counter that the party refers to. -/
def Party.refers : Party → Option (String × ℕ)
  | cloned job addr => some (job, addr)
  | guard job addr => some (job, addr)
  | dropping job addr => some (job, addr)
  | loading _ job addr => some (job, addr)
  | _ => none

variable {s t u : State} {i : ℕ} {job : String} {addr : ℕ} {p : Party}

def State.guards (s : State) (job : String) : Set ℕ :=
  Census.members s.parties fun p => p.guards = some job

def State.owners (s : State) (job : String) : Set ℕ :=
  Census.members s.parties fun p => p.owns = some job

lemma Party.owns_of_guards (h : p.guards = some job) : p.owns = some job := by
  cases p <;> first | exact h | cases h

lemma Party.refers_of_owns (h : p.owns = some job) : ∃ addr, p.refers = some (job, addr) := by
  cases p <;> first | (cases h; exact ⟨_, rfl⟩) | cases h

lemma guards_subset_owners (s : State) (job : String) : s.guards job ⊆ s.owners job :=
  Census.members_mono fun _ _ _ => Party.owns_of_guards

/-- The counter counts the guards, and its references are those of the map and the owners. -/
def Tallied (s : State) (job : String) (c : Counter) : Prop :=
  (s.guards job).encard = c.value ∧ (s.owners job).encard + 1 = c.strong ∧
    c.strong ≤ maxRefcount + 1

structure Counted (s : State) : Prop where
  refers : ∀ i p job addr, s.parties i = some p → p.refers = some (job, addr) →
    s.counts job = some addr
  apart : ∀ j k addr, s.counts j = some addr → s.counts k = some addr → j = k
  tallied : ∀ job addr, s.counts job = some addr → ∃ c, s.heap addr = some c ∧ Tallied s job c

/-- A party that has nothing to do with the job before and after a move. -/
lemma members_move {f : Party → Option String} (old : ∀ a, s.parties i = some a → f a ≠ some job)
    (new : f p ≠ some job) :
    Census.members (s.move i p).parties (fun p => f p = some job) =
      Census.members s.parties (fun p => f p = some job) := by
  cases at_ : s.parties i with
  | none => exact Census.members_fresh at_ new
  | some a => exact Census.members_same at_ (iff_of_false new (old a at_))

lemma guards_kept {a : Party} (at_ : s.parties i = some a) (same : p.guards = a.guards) :
    (s.move i p).guards job = s.guards job := Census.members_same at_ (by rw [same])

lemma owners_kept {a : Party} (at_ : s.parties i = some a) (same : p.owns = a.owns) :
    (s.move i p).owners job = s.owners job := Census.members_same at_ (by rw [same])

lemma Tallied.move {c : Counter} (tallied : Tallied s job c)
    (old : ∀ a, s.parties i = some a → a.owns ≠ some job) (new : p.owns ≠ some job) :
    Tallied (s.move i p) job c := by
  have owners : (s.move i p).owners job = s.owners job := members_move old new
  have guards : (s.move i p).guards job = s.guards job :=
    members_move (fun a at_ guards => old a at_ (Party.owns_of_guards guards))
      (fun guards => new (Party.owns_of_guards guards))
  rwa [Tallied, guards, owners]

/-- A party that owns nothing moves to another such place. -/
lemma Counted.moved (inv : Counted s) (old : ∀ a, s.parties i = some a → a.owns = none)
    (new : p.owns = none)
    (refers : ∀ job addr, p.refers = some (job, addr) → s.counts job = some addr) :
    Counted (s.move i p) where
  refers k q job addr at_ ref := by
    by_cases same : k = i
    · subst same
      obtain rfl : p = q := by simpa [State.move] using at_
      exact refers job addr ref
    · exact inv.refers k q job addr (by simpa [State.move, same] using at_) ref
  apart := inv.apart
  tallied job addr has := by
    obtain ⟨c, found, tallied⟩ := inv.tallied job addr has
    exact ⟨c, found, tallied.move (fun a at_ => by simp [old a at_]) (by simp [new])⟩

/-- A party moves with the counter of its job. -/
lemma Counted.updated {c : Counter} (inv : Counted s) (has : s.counts job = some addr)
    (old : ∀ a, s.parties i = some a → a.owns = none ∨ a.owns = some job)
    (new : p.owns = none ∨ p.owns = some job)
    (refers : p.refers = none ∨ p.refers = some (job, addr))
    (tallied : Tallied (s.move i p) job c) : Counted ((s.setCounter addr (some c)).move i p) where
  refers k q other b at_ ref := by
    by_cases same : k = i
    · subst same
      obtain rfl : p = q := by simpa [State.move] using at_
      rcases refers with none_ | some_
      · cases none_.symm.trans ref
      · obtain ⟨rfl, rfl⟩ := Prod.mk.inj (Option.some.inj (some_.symm.trans ref))
        exact has
    · exact inv.refers k q other b (by simpa [State.move, State.setCounter, same] using at_) ref
  apart := inv.apart
  tallied other b has' := by
    by_cases same : other = job
    · subst same
      obtain rfl := Option.some.inj (has'.symm.trans has)
      exact ⟨c, by simp [State.move, State.setCounter], tallied⟩
    · have elsewhere : b ≠ addr := fun h => same (inv.apart _ _ _ (h ▸ has') has)
      obtain ⟨d, found, kept⟩ := inv.tallied other b has'
      refine ⟨d, by simp [State.move, State.setCounter, elsewhere, found], ?_⟩
      apply Tallied.move (s := s) kept
      · intro a at_ owns
        rcases old a at_ with none_ | some_
        · cases none_.symm.trans owns
        · exact same (Option.some.inj (owns.symm.trans some_))
      · intro owns
        rcases new with none_ | some_
        · cases none_.symm.trans owns
        · exact same (Option.some.inj (owns.symm.trans some_))

/-- A party that owned nothing clones the counter of its job. -/
lemma Counted.cloned (inv : Counted s) (has : s.counts job = some addr)
    (old : ∀ a, s.parties i = some a → a.owns = none) (hu : s.cloneArc addr = some u) :
    Counted (u.move i (.cloned job addr)) := by
  obtain ⟨c, found, guards, owners, bound⟩ := inv.tallied job addr has
  simp only [State.cloneArc, found, Option.bind_eq_bind, Option.bind_some] at hu
  split_ifs at hu with room
  obtain rfl := Option.some.inj hu
  refine inv.updated has (fun a at_ => .inl (old a at_)) (.inr rfl) (.inr rfl) ⟨?_, ?_, ?_⟩
  · have same : (s.move i (.cloned job addr)).guards job = s.guards job := by
      apply members_move
      · intro a at_ guards
        cases (old a at_).symm.trans (Party.owns_of_guards guards)
      · simp [Party.guards]
    rw [same, guards]
  · have outside : i ∉ s.owners job := by
      rintro ⟨a, at_, owns⟩
      cases (old a at_).symm.trans owns
    rw [State.owners, State.move, Census.encard_enter outside rfl]
    simp only [Nat.cast_add, Nat.cast_one]
    rw [← owners]
    rfl
  · exact Nat.succ_le_succ room

lemma Counted.inserted (inv : Counted s) (vacant : s.counts job = none)
    (hu : s.insert job addr = some u) : Counted u := by
  unfold State.insert at hu
  split_ifs at hu with free
  obtain rfl := Option.some.inj hu
  have unused : ∀ k, s.counts k ≠ some addr := by
    intro k has
    obtain ⟨c, found, -⟩ := inv.tallied k addr has
    cases free.symm.trans found
  have unowned : s.owners job = ∅ := by
    refine Census.members_empty fun i p at_ owns => ?_
    obtain ⟨b, ref⟩ := Party.refers_of_owns owns
    cases vacant.symm.trans (inv.refers i p job b at_ ref)
  have unguarded : s.guards job = ∅ := Set.subset_empty_iff.mp (unowned ▸ guards_subset_owners s job)
  refine ⟨?_, ?_, ?_⟩
  · intro i p k b at_ ref
    have has := inv.refers i p k b at_ ref
    have other : k ≠ job := by
      rintro rfl
      cases vacant.symm.trans has
    simpa [State.setCounter, other] using has
  · intro j k b hj hk
    by_cases atJ : j = job <;> by_cases atK : k = job
    · exact atJ.trans atK.symm
    · subst atJ
      obtain rfl : addr = b := by simpa [State.setCounter] using hj
      exact absurd (by simpa [State.setCounter, atK] using hk) (unused k)
    · subst atK
      obtain rfl : addr = b := by simpa [State.setCounter] using hk
      exact absurd (by simpa [State.setCounter, atJ] using hj) (unused j)
    · exact inv.apart j k b (by simpa [State.setCounter, atJ] using hj)
        (by simpa [State.setCounter, atK] using hk)
  · intro k b has
    by_cases same : k = job
    · subst same
      obtain rfl : addr = b := by simpa [State.setCounter] using has
      refine ⟨⟨1, 0⟩, by simp [State.setCounter], ?_, ?_, ?_⟩
      · exact (congrArg Set.encard unguarded).trans (by simp)
      · exact (congrArg (Set.encard · + 1) unowned).trans (by simp)
      · simp [maxRefcount]
    · have has' : s.counts k = some b := by simpa [State.setCounter, same] using has
      obtain ⟨c, found, tallied⟩ := inv.tallied k b has'
      have elsewhere : b ≠ addr := fun h => unused k (h ▸ has')
      exact ⟨c, by simp [State.setCounter, elsewhere, found], tallied⟩

lemma Counted.counter (inv : Counted s) (at_ : s.parties i = some p)
    (ref : p.refers = some (job, addr)) {c : Counter} (found : s.heap addr = some c) :
    s.counts job = some addr ∧ Tallied s job c := by
  have has := inv.refers i p job addr at_ ref
  obtain ⟨d, found', tallied⟩ := inv.tallied job addr has
  obtain rfl := Option.some.inj (found'.symm.trans found)
  exact ⟨has, tallied⟩

/-- A counter stays below the number of references, so that it cannot wrap around. -/
lemma Tallied.value_lt {c : Counter} (tallied : Tallied s job c) : c.value < c.strong := by
  obtain ⟨guards, owners, -⟩ := tallied
  have sub : (c.value : ℕ∞) + 1 ≤ c.strong := by
    rw [← guards, ← owners]
    gcongr
    exact guards_subset_owners s job
  exact_mod_cast sub

/-- A guard of the job keeps its counter above zero. -/
lemma Tallied.value_pos {c : Counter} (tallied : Tallied s job c) (at_ : s.parties i = some p)
    (guards : p.guards = some job) : 0 < c.value := by
  have some_ : (s.guards job).encard ≠ 0 := by
    rw [Set.encard_ne_zero]
    exact ⟨i, p, at_, guards⟩
  rw [tallied.1] at some_
  exact Nat.pos_of_ne_zero (by exact_mod_cast some_)

lemma Counted.added (inv : Counted s) (at_ : s.parties i = some (.cloned job addr)) {c : Counter}
    (found : s.heap addr = some c) :
    Counted ((s.setCounter addr (some { c with value := (c.value + 1) % usizeSize })).move i
      (.guard job addr)) := by
  obtain ⟨has, tallied⟩ := inv.counter at_ rfl found
  have room : c.value + 1 < usizeSize := by
    have := tallied.value_lt
    have := tallied.2.2
    simp only [usizeSize, maxRefcount] at *
    omega
  have outside : i ∉ s.guards job := by
    rintro ⟨a, at', guards⟩
    obtain rfl := Option.some.inj (at_.symm.trans at')
    cases guards
  refine inv.updated has ?_ (.inr rfl) (.inr rfl) ⟨?_, ?_, tallied.2.2⟩
  · intro a at'
    obtain rfl := Option.some.inj (at_.symm.trans at')
    exact .inr rfl
  · rw [State.guards, State.move, Census.encard_enter outside rfl, Nat.mod_eq_of_lt room]
    simp only [Nat.cast_add, Nat.cast_one]
    rw [← tallied.1]
    rfl
  · rw [owners_kept (p := .guard job addr) at_ rfl]
    exact tallied.2.1

lemma Counted.subtracted (inv : Counted s) (at_ : s.parties i = some (.guard job addr))
    {c : Counter} (found : s.heap addr = some c) :
    Counted ((s.setCounter addr (some
      { c with value := (c.value + (usizeSize - 1)) % usizeSize })).move i
      (.dropping job addr)) := by
  obtain ⟨has, tallied⟩ := inv.counter at_ rfl found
  have positive := tallied.value_pos at_ rfl
  have less : (c.value + (usizeSize - 1)) % usizeSize = c.value - 1 := by
    have := tallied.value_lt
    have := tallied.2.2
    simp only [usizeSize, maxRefcount] at *
    omega
  refine inv.updated has ?_ (.inr rfl) (.inr rfl) ⟨?_, ?_, tallied.2.2⟩
  · intro a at'
    obtain rfl := Option.some.inj (at_.symm.trans at')
    exact .inr rfl
  · have leave := Census.encard_leave (P := fun p => p.guards = some job)
      (b := .dropping job addr) at_ rfl (by simp [Party.guards])
    have count : (s.guards job).encard = ((c.value - 1 : ℕ) : ℕ∞) + 1 := by
      rw [tallied.1]
      exact_mod_cast (Nat.sub_add_cancel positive).symm
    rw [less]
    exact ENat.add_left_injective_of_ne_top ENat.one_ne_top (leave.trans count)
  · rw [owners_kept (p := .dropping job addr) at_ rfl]
    exact tallied.2.1

lemma Counted.released (inv : Counted s) (at_ : s.parties i = some (.dropping job addr))
    {c : Counter} (found : s.heap addr = some c) :
    Counted ((s.setCounter addr (if c.strong = 1 then none else
      some { c with strong := c.strong - 1 })).move i .dropped) := by
  obtain ⟨has, tallied⟩ := inv.counter at_ rfl found
  have leave := Census.encard_leave (P := fun p => p.owns = some job)
    (b := .dropped) at_ rfl (by simp [Party.owns])
  -- the map's own reference and that of the guard
  have shared : 1 < c.strong := by
    have count : (s.owners job).encard + 1 = c.strong := tallied.2.1
    rw [State.owners, ← leave] at count
    have two : (1 : ℕ∞) + 1 ≤ c.strong := by
      rw [← count]
      gcongr
      exact le_add_self
    exact_mod_cast two
  rw [if_neg shared.ne']
  refine inv.updated has ?_ (.inl rfl) (.inl rfl) ⟨?_, ?_, ?_⟩
  · intro a at'
    obtain rfl := Option.some.inj (at_.symm.trans at')
    exact .inr rfl
  · rw [guards_kept (p := .dropped) at_ rfl]
    exact tallied.1
  · have count : ((s.move i .dropped).owners job).encard + 1 + 1 = ((c.strong - 1 : ℕ) : ℕ∞) + 1 := by
      rw [State.owners, State.move, leave]
      refine tallied.2.1.trans ?_
      exact_mod_cast (Nat.sub_add_cancel shared.le).symm
    exact ENat.add_left_injective_of_ne_top ENat.one_ne_top count
  · have := tallied.2.2
    dsimp only
    omega

lemma Counted.started (inv : Counted s) (owns : p.owns = none) (refers : p.refers = none)
    (taken : s.start i p = some t) : Counted t := by
  unfold State.start at taken
  split_ifs at taken with fresh
  obtain rfl := Option.some.inj taken
  refine inv.moved (fun a at_ => ?_) owns (fun job addr ref => ?_)
  · cases fresh.symm.trans at_
  · cases refers.symm.trans ref

lemma unowned {p : Party} (at_ : s.parties i = some p) (free : p.owns = none) (a : Party)
    (at_' : s.parties i = some a) : a.owns = none := by
  obtain rfl := Option.some.inj (at_.symm.trans at_')
  exact free

/-- No step replaces a counter of the map or miscounts. -/
lemma counted_step {e : Event} (inv : Counted s) (taken : step s e = some t) : Counted t := by
  cases e with
  | track i job => exact inv.started rfl rfl taken
  | ask i q job => exact inv.started rfl rfl taken
  | readSection i =>
    simp only [step] at taken
    split at taken
    · rename_i job at_
      have old := unowned at_ rfl
      split at taken
      · rename_i addr has
        obtain ⟨u, hu, rfl⟩ := Option.map_eq_some_iff.mp taken
        exact inv.cloned has old hu
      · obtain rfl := Option.some.inj taken
        exact inv.moved old rfl (fun _ _ ref => by cases ref)
    · rename_i q job at_
      have old := unowned at_ rfl
      split at taken
      · rename_i addr has
        obtain rfl := Option.some.inj taken
        refine inv.moved old rfl (fun job' addr' ref => ?_)
        obtain ⟨rfl, rfl⟩ := Prod.mk.inj (Option.some.inj ref)
        exact has
      · obtain rfl := Option.some.inj taken
        exact inv.moved old rfl (fun _ _ ref => by cases ref)
    · cases taken
  | writeSection i addr =>
    simp only [step] at taken
    split at taken
    · rename_i job at_
      have old := unowned at_ rfl
      split at taken
      · rename_i found has
        obtain ⟨u, hu, rfl⟩ := Option.map_eq_some_iff.mp taken
        exact inv.cloned has old hu
      · rename_i vacant
        obtain ⟨v, hv, taken⟩ := Option.bind_eq_some_iff.mp taken
        obtain ⟨u, hu, taken⟩ := Option.bind_eq_some_iff.mp taken
        obtain rfl := Option.some.inj taken
        obtain ⟨parties, has⟩ : v.parties = s.parties ∧ v.counts job = some addr := by
          unfold State.insert at hv
          split_ifs at hv
          obtain rfl := Option.some.inj hv
          exact ⟨rfl, by simp⟩
        exact (inv.inserted vacant hv).cloned has (fun a at' => old a (parties ▸ at')) hu
    · cases taken
  | fetchAdd i =>
    simp only [step] at taken
    split at taken
    · rename_i job addr at_
      obtain ⟨c, found, taken⟩ := Option.bind_eq_some_iff.mp taken
      obtain rfl := Option.some.inj taken
      exact inv.added at_ found
    · cases taken
  | fetchSub i =>
    simp only [step] at taken
    split at taken
    · rename_i job addr at_
      obtain ⟨c, found, taken⟩ := Option.bind_eq_some_iff.mp taken
      obtain rfl := Option.some.inj taken
      exact inv.subtracted at_ found
    · cases taken
  | dropArc i =>
    simp only [step] at taken
    split at taken
    · rename_i job addr at_
      obtain ⟨c, found, taken⟩ := Option.bind_eq_some_iff.mp taken
      obtain rfl := Option.some.inj taken
      exact inv.released at_ found
    · cases taken
  | load i =>
    simp only [step] at taken
    split at taken
    · rename_i q job addr at_
      obtain ⟨c, -, taken⟩ := Option.bind_eq_some_iff.mp taken
      obtain rfl := Option.some.inj taken
      exact inv.moved (unowned at_ rfl) rfl (fun _ _ ref => by cases ref)
    · cases taken

lemma counted_of_reachable (reachable : Transition.Reachable system s) : Counted s := by
  obtain ⟨h, run⟩ := reachable
  apply run.state_invariant Counted _ fun _ _ _ _ inv taken _ => counted_step inv taken
  refine ⟨?_, ?_, ?_⟩
  · intro i p job addr at_
    cases at_
  · intro j k addr has
    cases has
  · intro job addr has
    cases has

/-! ## Exactness -/

/-- The counter object of the job holds the value; a job without an entry counts as zero. -/
def State.counter (s : State) (job : String) : ℕ :=
  ((s.counts job).bind s.heap).elim 0 Counter.value

structure Exact (s : State) : Prop where
  /-- The counter is the number of the guards. -/
  counts : ∀ job, (s.guards job).encard = s.counter job
  /-- All guards of a job share one counter object, that of the map. -/
  shared : ∀ i k job a b, s.parties i = some (.guard job a) → s.parties k = some (.guard job b) →
    a = b ∧ s.counts job = some a
  /-- A decrement finds a counter above zero. -/
  decrements : ∀ i t, step s (.fetchSub i) = some t →
    ∃ job addr c, s.parties i = some (.guard job addr) ∧ s.heap addr = some c ∧ 0 < c.value

theorem exact_of_reachable (reachable : Transition.Reachable system s) : Exact s := by
  have inv := counted_of_reachable reachable
  refine ⟨?_, ?_, ?_⟩
  · intro job
    cases has : s.counts job with
    | none =>
      have empty : s.guards job = ∅ := Census.members_empty fun i p at_ guards => by
        obtain ⟨addr, ref⟩ := Party.refers_of_owns (Party.owns_of_guards guards)
        cases has.symm.trans (inv.refers i p job addr at_ ref)
      simp [empty, State.counter, has]
    | some addr =>
      obtain ⟨c, found, tallied⟩ := inv.tallied job addr has
      rw [tallied.1, State.counter, has, Option.bind_some, found, Option.elim_some]
  · intro i k job a b atI atK
    have hasA := inv.refers i _ job a atI rfl
    have hasB := inv.refers k _ job b atK rfl
    exact ⟨Option.some.inj (hasA.symm.trans hasB), hasA⟩
  · intro i t taken
    simp only [step] at taken
    split at taken
    · rename_i job addr at_
      obtain ⟨c, found, -⟩ := Option.bind_eq_some_iff.mp taken
      exact ⟨job, addr, c, at_, found, (inv.counter at_ rfl found).2.value_pos at_ rfl⟩
    · cases taken

/-- Two first requests of a job both miss the entry; one guard is dropped before the other. -/
def firstRequests : List Event :=
  [.track 0 "shop", .track 1 "shop", .readSection 0, .readSection 1, .writeSection 1 7,
    .fetchAdd 1, .writeSection 0 8, .fetchAdd 0, .ask 2 .count "shop", .readSection 2, .load 2,
    .fetchSub 1]

theorem firstRequests_exact : ∃ s, Transition.Reachable system s ∧
    s.parties 2 = some (.answered (.counted 2)) ∧ s.counter "shop" = 1 ∧ Exact s := by
  obtain ⟨h, s, run, asked, left_⟩ := Transition.exists_run (T := system)
    (C := fun _ _ _ => True)
    (fun _ s => s.parties 2 = some (.answered (.counted 2)) ∧ s.counter "shop" = 1)
    firstRequests (by decide +kernel)
  exact ⟨s, ⟨h, run⟩, asked, left_, exact_of_reachable ⟨h, run⟩⟩

end NScale.InFlightTracker
