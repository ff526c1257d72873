import Mathlib

/-!
# Checked arithmetic on times

A time is a number of seconds below a limit and a number of nanoseconds below one second. The
operations work on the two parts and stop where the seconds leave their range; what they compute
is the arithmetic of the number of nanoseconds.
-/
namespace NScale.Clock

/-- A time with less than `limit` seconds. -/
structure Time (limit : ℕ) where
  secs : ℕ
  nanos : ℕ
  fits : secs < limit
  proper : nanos < 10 ^ 9
  deriving DecidableEq

/-- `std::time::Duration`, whose seconds are a `u64`. -/
abbrev Duration := Time (2 ^ 64)

/-- `std::time::Instant` of a clock that counts in an `i64` from its start. -/
abbrev Instant := Time (2 ^ 63)

namespace Time
variable {l m : ℕ}

def toNanos (t : Time l) : ℕ := t.secs * 10 ^ 9 + t.nanos

/-- The time with that many nanoseconds. -/
def ofNanos? (l n : ℕ) : Option (Time l) :=
  if fits : n / 10 ^ 9 < l then some ⟨n / 10 ^ 9, n % 10 ^ 9, fits, Nat.mod_lt n (by decide)⟩ else none

/-- `Duration::from_secs`. -/
def fromSecs (n : UInt64) : Duration := ⟨n.toNat, 0, n.toNat_lt, by decide⟩

/-- `checked_add`: the seconds first, then a carry of the nanoseconds. -/
def checkedAdd (t : Time l) (d : Time m) : Option (Time l) :=
  if sum : t.secs + d.secs < l then
    if carry : 10 ^ 9 ≤ t.nanos + d.nanos then
      if more : t.secs + d.secs + 1 < l then
        some ⟨t.secs + d.secs + 1, t.nanos + d.nanos - 10 ^ 9, more, by have := t.proper; have := d.proper; omega⟩
      else none
    else some ⟨t.secs + d.secs, t.nanos + d.nanos, sum, by omega⟩
  else none

/-- `checked_mul`: the nanoseconds first, whose seconds are added to the product. -/
def checkedMul (t : Time l) (k : UInt32) : Option (Time l) :=
  if product : t.secs * k.toNat < l then
    if sum : t.secs * k.toNat + t.nanos * k.toNat / 10 ^ 9 < l then
      some ⟨_, t.nanos * k.toNat % 10 ^ 9, sum, Nat.mod_lt _ (by decide)⟩
    else none
  else none

/-- What is left of the seconds is divided with the nanoseconds. -/
lemma div_nanos (s n k : ℕ) : n / k + (s % k * 10 ^ 9 + n % k) / k = (s % k * 10 ^ 9 + n) / k := by
  obtain rfl | pos := Nat.eq_zero_or_pos k
  · simp
  · have split : s % k * 10 ^ 9 + n = s % k * 10 ^ 9 + n % k + k * (n / k) := by
      have := Nat.div_add_mod n k
      omega
    rw [split, Nat.add_mul_div_left _ _ pos, add_comm]

lemma div_nanos_lt {s n k : ℕ} (pos : 0 < k) (proper : n < 10 ^ 9) :
    n / k + (s % k * 10 ^ 9 + n % k) / k < 10 ^ 9 := by
  rw [div_nanos, Nat.div_lt_iff_lt_mul pos]
  have left_ : s % k < k := Nat.mod_lt s pos
  calc s % k * 10 ^ 9 + n < s % k * 10 ^ 9 + 10 ^ 9 := by omega
    _ = (s % k + 1) * 10 ^ 9 := by ring
    _ ≤ k * 10 ^ 9 := Nat.mul_le_mul_right _ left_
    _ = 10 ^ 9 * k := Nat.mul_comm _ _

/-- `checked_div`. -/
def checkedDiv (t : Time l) (k : UInt32) : Option (Time l) :=
  if pos : 0 < k.toNat then
    some ⟨t.secs / k.toNat,
      t.nanos / k.toNat + (t.secs % k.toNat * 10 ^ 9 + t.nanos % k.toNat) / k.toNat,
      (Nat.div_le_self _ _).trans_lt t.fits, div_nanos_lt pos t.proper⟩
  else none

/-- `as_millis`. -/
def asMillis (t : Time l) : ℕ := t.secs * 1000 + t.nanos / 10 ^ 6

/-! ## The operations compute on nanoseconds -/

lemma ofNanos?_of_parts {s n : ℕ} (proper : n < 10 ^ 9) :
    ofNanos? l (s * 10 ^ 9 + n) = if fits : s < l then some ⟨s, n, fits, proper⟩ else none := by
  have quotient : (s * 10 ^ 9 + n) / 10 ^ 9 = s := by omega
  have remainder : (s * 10 ^ 9 + n) % 10 ^ 9 = n := by omega
  simp only [ofNanos?, quotient, remainder]

lemma toNanos_of_ofNanos? {n : ℕ} {t : Time l} (found : ofNanos? l n = some t) : t.toNanos = n := by
  unfold ofNanos? at found
  split at found
  · cases found
    exact Nat.div_add_mod' n (10 ^ 9)
  · cases found

lemma isSome_ofNanos? {n : ℕ} : (ofNanos? l n).isSome ↔ n < l * 10 ^ 9 := by
  rw [← Nat.div_lt_iff_lt_mul (by decide), ofNanos?]
  by_cases fits : n / 10 ^ 9 < l
  · rw [dif_pos fits]
    exact iff_of_true rfl fits
  · rw [dif_neg fits]
    exact iff_of_false Bool.false_ne_true fits

lemma exists_ofNanos? {n : ℕ} (fits : n < l * 10 ^ 9) : ∃ t : Time l, ofNanos? l n = some t :=
  Option.isSome_iff_exists.mp (isSome_ofNanos?.mpr fits)

theorem checkedAdd_eq (t : Time l) (d : Time m) :
    t.checkedAdd d = ofNanos? l (t.toNanos + d.toNanos) := by
  have first := t.proper
  have second := d.proper
  unfold checkedAdd
  by_cases carry : 10 ^ 9 ≤ t.nanos + d.nanos
  · have total : t.toNanos + d.toNanos =
        (t.secs + d.secs + 1) * 10 ^ 9 + (t.nanos + d.nanos - 10 ^ 9) := by
      unfold toNanos
      omega
    rw [total, ofNanos?_of_parts (by omega)]
    split_ifs <;> first | rfl | omega
  · have total : t.toNanos + d.toNanos = (t.secs + d.secs) * 10 ^ 9 + (t.nanos + d.nanos) := by
      unfold toNanos
      omega
    rw [total, ofNanos?_of_parts (by omega)]
    split_ifs <;> rfl

theorem checkedMul_eq (t : Time l) (k : UInt32) :
    t.checkedMul k = ofNanos? l (t.toNanos * k.toNat) := by
  have total : t.toNanos * k.toNat = (t.secs * k.toNat + t.nanos * k.toNat / 10 ^ 9) * 10 ^ 9 +
      t.nanos * k.toNat % 10 ^ 9 := by
    have parts := Nat.div_add_mod' (t.nanos * k.toNat) (10 ^ 9)
    calc t.toNanos * k.toNat = t.secs * k.toNat * 10 ^ 9 + t.nanos * k.toNat := by
          unfold toNanos
          ring
      _ = _ := by rw [add_mul, add_assoc, parts]
  rw [total, ofNanos?_of_parts (Nat.mod_lt _ (by decide))]
  unfold checkedMul
  split_ifs <;> first | rfl | omega

theorem checkedDiv_eq (t : Time l) {k : UInt32} (pos : 0 < k.toNat) :
    t.checkedDiv k = ofNanos? l (t.toNanos / k.toNat) := by
  have total : t.toNanos / k.toNat = t.secs / k.toNat * 10 ^ 9 +
      (t.nanos / k.toNat + (t.secs % k.toNat * 10 ^ 9 + t.nanos % k.toNat) / k.toNat) := by
    have parts : t.toNanos = t.secs % k.toNat * 10 ^ 9 + t.nanos +
        k.toNat * (t.secs / k.toNat * 10 ^ 9) := by
      have whole := Nat.div_add_mod t.secs k.toNat
      calc t.toNanos = (k.toNat * (t.secs / k.toNat) + t.secs % k.toNat) * 10 ^ 9 + t.nanos := by
            rw [whole, toNanos]
        _ = _ := by ring
    rw [div_nanos, parts, Nat.add_mul_div_left _ _ pos, add_comm]
  rw [total, ofNanos?_of_parts (div_nanos_lt pos t.proper),
    dif_pos ((Nat.div_le_self _ _).trans_lt t.fits), checkedDiv, dif_pos pos]

lemma toNanos_fromSecs (n : UInt64) : (fromSecs n).toNanos = n.toNat * 10 ^ 9 := by
  rw [toNanos, fromSecs, add_zero]

lemma asMillis_eq (t : Time l) : t.asMillis = t.toNanos / 10 ^ 6 := by
  unfold asMillis toNanos
  omega

end Time

/-- `tokio::time::Interval`, whose period is never zero. -/
structure Interval where
  period : Duration
  pos : 0 < period.toNanos

/-- `tokio::time::interval`. -/
def Interval.new (period : Duration) : Option Interval :=
  if pos : 0 < period.toNanos then some ⟨period, pos⟩ else none

lemma Interval.isSome_new {period : Duration} : (Interval.new period).isSome ↔ 0 < period.toNanos := by
  unfold Interval.new
  split
  next pos => exact iff_of_true rfl pos
  next zero => exact iff_of_false Bool.false_ne_true zero

end NScale.Clock
