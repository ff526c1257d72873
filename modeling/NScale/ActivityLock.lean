import NScale.Transition

/-!
# The lock of the activity store

`try_acquire_lock` and `release_lock` of any number of `RedisActivityStore`s on one Redis. Every
key that a `SET` has written is an acquisition with a number of its own, and the guard of an
acquisition spawns its release when it is dropped. Redis knows instance ids only.
-/
namespace NScale.ActivityLock
open Transition

def lockKey (key : String) : String := "nscale:lock:" ++ key

/-- `ttl.as_millis() as i64`. -/
def pxMillis (ttl : ℕ) : ℤ := (BitVec.ofNat 64 ttl).toInt

/-- A key in Redis; the acquisition that set it is not part of the value. -/
structure Entry where
  value : String
  expires : ℕ
  acquisition : ℕ
  deriving DecidableEq, Repr

inductive Guard
  /-- The reply to the `SET` was lost, so that the caller got an error and no guard. -/
  | none_
  | held
  /-- Dropped, with its release not yet carried out. -/
  | spawned
  | released
  deriving DecidableEq, Repr

structure Acquisition where
  instance_ : ℕ
  key : String
  expires : ℕ
  guard : Guard
  deriving DecidableEq, Repr

structure State where
  time : ℕ
  redis : String → Option Entry
  acquisitions : ℕ → Option Acquisition
  count : ℕ

def initial : State := ⟨0, fun _ => none, fun _ => none, 0⟩

inductive Event
  | advance (millis : ℕ)
  | tryAcquireLock (i : ℕ) (key : String) (ttl : ℕ) (received : Bool)
  | dropGuard (n : ℕ)
  | releaseLock (n : ℕ)
  deriving DecidableEq, Repr

/-- `GET`: an expired key is gone. -/
def State.get (s : State) (k : String) : Option Entry :=
  (s.redis k).filter fun e => s.time < e.expires

def State.setGuard (s : State) (n : ℕ) (a : Acquisition) (g : Guard) : State :=
  { s with acquisitions := Function.update s.acquisitions n (some { a with guard := g }) }

/-- A successful `SET` with `NX` and `PX`. -/
def State.set (s : State) (instanceId : ℕ → String) (i : ℕ) (key : String) (px : ℕ) (g : Guard) :
    State :=
  { s with
    redis := Function.update s.redis (lockKey key) (some ⟨instanceId i, s.time + px, s.count⟩)
    acquisitions := Function.update s.acquisitions s.count (some ⟨i, key, s.time + px, g⟩)
    count := s.count + 1 }

/-- The script of `release_lock`. -/
def State.compareAndDelete (s : State) (k value : String) : State :=
  if (s.get k).map Entry.value = some value then
    { s with redis := Function.update s.redis k none }
  else s

def step (instanceId : ℕ → String) (s : State) : Event → Option State
  | .advance millis => some { s with time := s.time + millis }
  | .tryAcquireLock i key ttl received =>
    -- Redis refuses a time to live that is not positive
    if pxMillis ttl ≤ 0 then some s
    else if (s.get (lockKey key)).isSome then some s
    else some (s.set instanceId i key (pxMillis ttl).toNat (if received then .held else .none_))
  | .dropGuard n =>
    match s.acquisitions n with
    | some a => if a.guard = .held then some (s.setGuard n a .spawned) else none
    | none => none
  | .releaseLock n =>
    match s.acquisitions n with
    | some a =>
      if a.guard = .spawned then
        some ((s.compareAndDelete (lockKey a.key) (instanceId a.instance_)).setGuard n a .released)
      else none
    | none => none

def system (instanceId : ℕ → String) : System State Event := ⟨initial, step instanceId⟩

/-- A release by the guard of an acquisition deletes no key of another acquisition. -/
def FreesOwn (instanceId : ℕ → String) : Condition State Event := fun _ s e =>
  match e with
  | .releaseLock n => ∀ t, step instanceId s (.releaseLock n) = some t →
      ∀ k entry, s.get k = some entry → t.get k = none → entry.acquisition = n
  | _ => True

/-- Every later acquisition of the key under the instance id of a releasing guard has expired or
has been released. -/
def LaterGone (instanceId : ℕ → String) : Condition State Event := fun _ s e =>
  match e with
  | .releaseLock n => ∀ m a b, s.acquisitions n = some a → s.acquisitions m = some b → n < m →
      b.key = a.key → instanceId b.instance_ = instanceId a.instance_ →
      b.expires ≤ s.time ∨ b.guard = .released
  | _ => True

variable {instanceId : ℕ → String} {s t : State} {e : Event} {h : List Event} {k value : String}
  {n : ℕ} {a : Acquisition} {entry : Entry} {C : Condition State Event}

lemma lockKey_injective : Function.Injective lockKey := fun a b same => by
  simpa [lockKey] using same

lemma get_eq_some : s.get k = some entry ↔ s.redis k = some entry ∧ s.time < entry.expires := by
  simp [State.get, Option.filter_eq_some_iff]

lemma get_isNone (free : ¬ (s.get k).isSome) (at_ : s.redis k = some entry) :
    entry.expires ≤ s.time := by
  by_contra alive
  rw [get_eq_some.mpr ⟨at_, not_le.mp alive⟩] at free
  exact free rfl

lemma release_step (taken : step instanceId s (.releaseLock n) = some t) :
    ∃ a, s.acquisitions n = some a ∧ a.guard = .spawned ∧
      t = (s.compareAndDelete (lockKey a.key) (instanceId a.instance_)).setGuard n a .released := by
  simp only [step] at taken
  split at taken
  · rename_i a at_
    split_ifs at taken with spawned
    exact ⟨a, at_, spawned, (Option.some.inj taken).symm⟩
  · cases taken

/-- What a step does: the clock moves, a free key is set, a guard is dropped, or a release runs. -/
lemma step_cases (taken : step instanceId s e = some t) :
    t = s ∨ (∃ millis, e = .advance millis ∧ t = { s with time := s.time + millis }) ∨
    (∃ i key px g, ¬ (s.get (lockKey key)).isSome ∧ g ≠ .released ∧
      t = s.set instanceId i key px g) ∨
    (∃ n a, e = .dropGuard n ∧ s.acquisitions n = some a ∧ a.guard = .held ∧
      t = s.setGuard n a .spawned) ∨
    ∃ n a, e = .releaseLock n ∧ s.acquisitions n = some a ∧ a.guard = .spawned ∧
      t = (s.compareAndDelete (lockKey a.key) (instanceId a.instance_)).setGuard n a .released := by
  cases e with
  | advance millis => exact .inr (.inl ⟨millis, rfl, (Option.some.inj taken).symm⟩)
  | tryAcquireLock i key ttl received =>
    simp only [step] at taken
    split_ifs at taken with refused found reply
    · exact .inl (Option.some.inj taken).symm
    · exact .inl (Option.some.inj taken).symm
    · exact .inr (.inr (.inl ⟨i, key, _, .held, found, by simp, (Option.some.inj taken).symm⟩))
    · exact .inr (.inr (.inl ⟨i, key, _, .none_, found, by simp, (Option.some.inj taken).symm⟩))
  | dropGuard n =>
    simp only [step] at taken
    split at taken
    · rename_i a at_
      split_ifs at taken with held
      exact .inr (.inr (.inr (.inl ⟨n, a, rfl, at_, held, (Option.some.inj taken).symm⟩)))
    · cases taken
  | releaseLock n =>
    obtain ⟨a, at_, spawned, moved⟩ := release_step taken
    exact .inr (.inr (.inr (.inr ⟨n, a, rfl, at_, spawned, moved⟩)))

/-! ## Keys and acquisitions -/

structure Recorded (instanceId : ℕ → String) (s : State) : Prop where
  fresh : ∀ n, s.count ≤ n → s.acquisitions n = none
  owner : ∀ k entry, s.redis k = some entry → ∃ a, s.acquisitions entry.acquisition = some a ∧
    lockKey a.key = k ∧ entry.value = instanceId a.instance_ ∧ entry.expires = a.expires ∧
    (a.guard = .released → a.expires ≤ s.time)
  latest : ∀ k entry n a, s.redis k = some entry → s.acquisitions n = some a →
    lockKey a.key = k → n ≤ entry.acquisition

lemma Recorded.lt (inv : Recorded instanceId s) (at_ : s.acquisitions n = some a) : n < s.count := by
  by_contra beyond
  rw [inv.fresh n (not_lt.mp beyond)] at at_
  cases at_

lemma Recorded.expires (inv : Recorded instanceId s) (at_ : s.acquisitions n = some a)
    (key : s.redis k = some entry) (of_ : entry.acquisition = n) : entry.expires = a.expires := by
  obtain ⟨b, found, -, -, expires, -⟩ := inv.owner k entry key
  rw [of_, at_] at found
  rw [expires, Option.some.inj found]

lemma compareAndDelete_redis {k' : String}
    (left_ : (s.compareAndDelete k value).redis k' = some entry) :
    s.redis k' = some entry ∧ (k' = k → entry.value = value → entry.expires ≤ s.time) := by
  unfold State.compareAndDelete at left_
  split_ifs at left_ with owned
  · by_cases same : k' = k
    · subst same
      simp at left_
    · exact ⟨by simpa [same] using left_, fun h => absurd h same⟩
  · refine ⟨left_, ?_⟩
    rintro rfl rfl
    by_contra alive
    rw [get_eq_some.mpr ⟨left_, not_le.mp alive⟩] at owned
    exact owned rfl

lemma compareAndDelete_get {k' : String} (before : s.get k' = some entry)
    (gone : (s.compareAndDelete k value).get k' = none) : k' = k ∧ entry.value = value := by
  unfold State.compareAndDelete at gone
  split_ifs at gone with owned
  · by_cases same : k' = k
    · subst same
      rw [before] at owned
      exact ⟨rfl, Option.some.inj owned⟩
    · have kept : (s.redis k').filter (fun e => s.time < e.expires) = none := by
        simpa [State.get, same] using gone
      cases kept.symm.trans before
  · cases gone.symm.trans before

lemma compareAndDelete_rest (s : State) (k value : String) :
    (s.compareAndDelete k value).acquisitions = s.acquisitions ∧
      (s.compareAndDelete k value).time = s.time ∧
      (s.compareAndDelete k value).count = s.count := by
  unfold State.compareAndDelete
  split <;> exact ⟨rfl, rfl, rfl⟩

lemma Recorded.set {i px : ℕ} {key : String} {g : Guard} (inv : Recorded instanceId s)
    (guarded : g ≠ .released) : Recorded instanceId (s.set instanceId i key px g) where
  fresh n beyond := by
    have : n ≠ s.count := by
      rintro rfl
      exact absurd beyond (Nat.not_succ_le_self _)
    simpa [State.set, this] using inv.fresh n (Nat.le_of_succ_le beyond)
  owner k entry at_ := by
    by_cases same : k = lockKey key
    · subst same
      obtain rfl : _ = entry := by simpa [State.set] using at_
      exact ⟨⟨i, key, s.time + px, g⟩, by simp [State.set], rfl, rfl, rfl, fun h => absurd h guarded⟩
    · obtain ⟨a, found, fits⟩ := inv.owner k entry (by simpa [State.set, same] using at_)
      exact ⟨a, by simpa [State.set, (inv.lt found).ne] using found, fits⟩
  latest k entry n a at_ found of_ := by
    by_cases same : k = lockKey key
    · subst same
      obtain rfl : _ = entry := by simpa [State.set] using at_
      by_cases new : n = s.count
      · exact new.le
      · exact (inv.lt (by simpa [State.set, new] using found)).le
    · have new : n ≠ s.count := by
        rintro rfl
        obtain rfl : _ = a := by simpa [State.set] using found
        exact same of_.symm
      exact inv.latest k entry n a (by simpa [State.set, same] using at_)
        (by simpa [State.set, new] using found) of_

/-- A guard moves, and keys may go; a released acquisition keeps an expired key at most. -/
lemma Recorded.setGuard {g : Guard} (inv : Recorded instanceId s) (at_ : s.acquisitions n = some a)
    (time : t.time = s.time) (count : t.count = s.count)
    (acquisitions : t.acquisitions = s.acquisitions)
    (keys : ∀ k entry, t.redis k = some entry → s.redis k = some entry ∧
      (g = .released → entry.acquisition = n → entry.expires ≤ s.time)) :
    Recorded instanceId (t.setGuard n a g) where
  fresh m beyond := by
    have other : m ≠ n := by
      rintro rfl
      exact absurd (inv.lt at_) (not_lt.mpr (count ▸ beyond))
    simpa [State.setGuard, other, acquisitions] using inv.fresh m (count ▸ beyond)
  owner k entry left_ := by
    obtain ⟨before, expired⟩ := keys k entry left_
    obtain ⟨b, found, of_, value, expires, released⟩ := inv.owner k entry before
    by_cases same : entry.acquisition = n
    · obtain rfl : a = b := by
        rw [same, at_] at found
        exact Option.some.inj found
      refine ⟨{ a with guard := g }, by simp [State.setGuard, same], of_, value, expires, ?_⟩
      intro gone
      exact (expires ▸ expired gone same).trans time.ge
    · refine ⟨b, by simpa [State.setGuard, same, acquisitions] using found, of_, value, expires, ?_⟩
      exact fun gone => (released gone).trans time.ge
  latest k entry m b left_ found of_ := by
    obtain ⟨before, -⟩ := keys k entry left_
    by_cases same : m = n
    · subst same
      obtain rfl : _ = b := by simpa [State.setGuard] using found
      exact inv.latest k entry m a before at_ of_
    · exact inv.latest k entry m b before
        (by simpa [State.setGuard, same, acquisitions] using found) of_

lemma recorded_step (inv : Recorded instanceId s) (taken : step instanceId s e = some t) :
    Recorded instanceId t := by
  obtain rfl | ⟨millis, -, rfl⟩ | ⟨i, key, px, g, -, guarded, rfl⟩ | ⟨n, a, -, at_, -, rfl⟩ |
    ⟨n, a, -, at_, -, rfl⟩ := step_cases taken
  · exact inv
  · refine ⟨inv.fresh, fun k entry at_ => ?_, inv.latest⟩
    obtain ⟨a, found, of_, value, expires, released⟩ := inv.owner k entry at_
    exact ⟨a, found, of_, value, expires, fun gone => (released gone).trans (Nat.le_add_right _ _)⟩
  · exact inv.set guarded
  · exact inv.setGuard at_ rfl rfl rfl fun k entry left_ => ⟨left_, by simp⟩
  · obtain ⟨acquisitions, time, count⟩ :=
      compareAndDelete_rest s (lockKey a.key) (instanceId a.instance_)
    refine inv.setGuard at_ time count acquisitions fun k entry left_ => ?_
    obtain ⟨before, expired⟩ := compareAndDelete_redis left_
    refine ⟨before, fun _ own => ?_⟩
    obtain ⟨b, found, of_, value, -⟩ := inv.owner k entry before
    obtain rfl : a = b := by
      rw [own, at_] at found
      exact Option.some.inj found
    exact expired of_.symm value

lemma recorded_of_run (run : RunWhere (system instanceId) C h s) : Recorded instanceId s := by
  apply run.state_invariant (Recorded instanceId) _ fun _ _ _ _ inv taken _ =>
    recorded_step inv taken
  refine ⟨fun _ _ => rfl, ?_, ?_⟩
  · intro k entry at_
    cases at_
  · intro k entry n a at_
    cases at_

/-- Every acquisition that has not expired and was not released still has its key. -/
def Standing (s : State) : Prop :=
  ∀ n a, s.acquisitions n = some a → a.guard ≠ .released → s.time < a.expires →
    ∃ entry, s.redis (lockKey a.key) = some entry ∧ entry.acquisition = n

lemma standing_step (rec : Recorded instanceId s) (inv : Standing s)
    (taken : step instanceId s e = some t) (own : FreesOwn instanceId h s e) : Standing t := by
  have step := taken
  obtain rfl | ⟨millis, -, rfl⟩ | ⟨i, key, px, g, free, guarded, rfl⟩ | ⟨n, a, -, at_, held, rfl⟩ |
    ⟨n, a, rfl, at_, spawned, rfl⟩ := step_cases taken
  · exact inv
  · intro n a at_ left_ alive
    exact inv n a at_ left_ ((Nat.le_add_right _ _).trans_lt alive)
  · intro n a at_ left_ alive
    by_cases new : n = s.count
    · subst new
      obtain rfl : _ = a := by simpa [State.set] using at_
      exact ⟨⟨instanceId i, s.time + px, s.count⟩, by simp [State.set], rfl⟩
    · have before : s.acquisitions n = some a := by simpa [State.set, new] using at_
      obtain ⟨entry, found, of_⟩ := inv n a before left_ alive
      have other : lockKey a.key ≠ lockKey key := by
        intro same
        have past := get_isNone free (same ▸ found)
        exact absurd alive (not_lt.mpr (rec.expires before found of_ ▸ past))
      exact ⟨entry, by simpa [State.set, other] using found, of_⟩
  · intro m b found left_ alive
    by_cases same : m = n
    · subst same
      obtain rfl : _ = b := by simpa [State.setGuard] using found
      exact inv m a at_ (by simp [held]) alive
    · exact inv m b (by simpa [State.setGuard, same] using found) left_ alive
  · obtain ⟨acquisitions, time, -⟩ :=
      compareAndDelete_rest s (lockKey a.key) (instanceId a.instance_)
    intro m b found left_ alive
    have other : m ≠ n := by
      rintro rfl
      obtain rfl : _ = b := by simpa [State.setGuard] using found
      exact left_ rfl
    have alive' : s.time < b.expires := time ▸ alive
    have before : s.acquisitions m = some b := by
      simpa [State.setGuard, other, acquisitions] using found
    obtain ⟨entry, key, of_⟩ := inv m b before left_ alive'
    have here := get_eq_some.mpr ⟨key, rec.expires before key of_ ▸ alive'⟩
    cases after : ((s.compareAndDelete (lockKey a.key) (instanceId a.instance_)).get
      (lockKey b.key)) with
    | none =>
      have mine := own _ step _ entry here after
      exact absurd (of_.symm.trans mine) other
    | some entry' =>
      obtain ⟨kept, -⟩ := get_eq_some.mp after
      obtain rfl := Option.some.inj ((compareAndDelete_redis kept).1.symm.trans key)
      exact ⟨entry', kept, of_⟩

/-! ## Releases -/

lemma freesOwn_of_laterGone (rec : Recorded instanceId s) (gone : LaterGone instanceId h s e) :
    FreesOwn instanceId h s e := by
  cases e with
  | releaseLock n =>
    intro t taken k entry before after
    obtain ⟨a, at_, -, rfl⟩ := release_step taken
    obtain ⟨rfl, value⟩ := compareAndDelete_get before after
    obtain ⟨key, alive⟩ := get_eq_some.mp before
    obtain ⟨b, found, of_, value', expires, released⟩ := rec.owner _ entry key
    have le := rec.latest _ entry n a key at_ rfl
    by_contra other
    rcases gone _ a b at_ found (lt_of_le_of_ne le (Ne.symm other)) (lockKey_injective of_)
      (value'.symm.trans value) with expired | dropped
    · exact absurd alive (not_lt.mpr (expires ▸ expired))
    · exact absurd alive (not_lt.mpr (expires ▸ released dropped))
  | _ => trivial

lemma laterGone_of_freesOwn (rec : Recorded instanceId s) (inv : Standing s)
    (taken : step instanceId s e = some t) (own : FreesOwn instanceId h s e) :
    LaterGone instanceId h s e := by
  cases e with
  | releaseLock n =>
    intro m a b at_ found later key value
    by_contra alive
    obtain ⟨unexpired, unreleased⟩ := not_or.mp alive
    obtain ⟨entry, at_key, of_⟩ := inv m b found unreleased (not_le.mp unexpired)
    have here := get_eq_some.mpr ⟨at_key, rec.expires found at_key of_ ▸ not_le.mp unexpired⟩
    obtain ⟨c, recorded, -, owner, -⟩ := rec.owner _ entry at_key
    rw [of_, found] at recorded
    obtain rfl := Option.some.inj recorded
    obtain ⟨a', at', -, rfl⟩ := release_step taken
    obtain rfl := Option.some.inj (at'.symm.trans at_)
    -- the script finds the instance id of the releasing guard
    have deleted : ((s.compareAndDelete (lockKey a'.key) (instanceId a'.instance_)).setGuard n a'
        .released).get (lockKey b.key) = none := by
      have owned : (s.get (lockKey a'.key)).map Entry.value = some (instanceId a'.instance_) := by
        rw [← key, here, Option.map_some, owner, value]
      rw [key, State.compareAndDelete, if_pos owned]
      simp [State.get, State.setGuard]
    have mine := own _ taken _ entry here deleted
    exact later.ne (mine.symm.trans of_)
  | _ => trivial

/-- Every release of a run frees its own acquisition only, exactly when every release finds the
later acquisitions of its key under its instance id expired or released. -/
theorem freesOwn_iff (instanceId : ℕ → String) (h : List Event) (s : State) :
    RunWhere (system instanceId) (FreesOwn instanceId) h s ↔
      RunWhere (system instanceId) (LaterGone instanceId) h s := by
  constructor
  · intro run
    refine run.mono fun h s t e prior taken own => ?_
    have standing : Standing s := by
      apply prior.invariant (fun _ s => Standing s) _ fun _ _ _ _ before inv taken own =>
        standing_step (recorded_of_run before) inv taken own
      intro n a at_
      cases at_
    exact laterGone_of_freesOwn (recorded_of_run prior) standing taken own
  · intro run
    exact run.mono fun h s t e prior taken gone => freesOwn_of_laterGone (recorded_of_run prior) gone

/-- The lock of the first tick expires, the same instance takes it again, and the release of the
first tick comes late. -/
def lateRelease : List Event :=
  [.tryAcquireLock 0 "scale-down" 35000 true, .dropGuard 0, .advance 35000,
    .tryAcquireLock 0 "scale-down" 35000 true]

theorem later_acquisition_freed : ∃ h s t,
    Run (system fun i => "nscale-" ++ toString i) h s ∧
    step (fun i => "nscale-" ++ toString i) s (.releaseLock 0) = some t ∧
    (s.get (lockKey "scale-down")).map Entry.acquisition = some 1 ∧
    t.get (lockKey "scale-down") = none := by
  obtain ⟨h, s, run, found, deleted⟩ := exists_run
    (T := system fun i => "nscale-" ++ toString i) (C := fun _ _ _ => True)
    (fun _ s => (s.get (lockKey "scale-down")).map Entry.acquisition = some 1 ∧
      (step (fun i => "nscale-" ++ toString i) s (.releaseLock 0)).map
        (fun t => t.get (lockKey "scale-down")) = some none)
    lateRelease (by decide +kernel)
  obtain ⟨t, taken, none_⟩ := Option.map_eq_some_iff.mp deleted
  exact ⟨h, s, t, run, taken, found, none_⟩

end NScale.ActivityLock
