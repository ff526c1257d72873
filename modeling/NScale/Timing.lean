import NScale.ActivityLock
import NScale.Clock

/-!
# The timing configuration

`Config::load` reads three times of the scaling section as `u64` seconds and checks no range. The
program computes the lock time to live, the heartbeat interval and the two deadlines from them; a
computation that leaves its range panics, as does a ticker without a period. No value stands for
a panic.
-/
namespace NScale.Timing
open Clock

inductive Field
  | idleTimeoutSecs
  | wakeTimeoutSecs
  | scaleDownIntervalSecs
  deriving DecidableEq, Repr

/-- What a source of the configuration says of a field: an integer, or anything else. -/
inductive Value
  | integer (n : ℤ)
  | other
  deriving DecidableEq, Repr

/-- `u64::deserialize`. -/
def Value.toU64 : Value → Option UInt64
  | .integer n => if 0 ≤ n ∧ n < 2 ^ 64 then some (UInt64.ofNat n.toNat) else none
  | .other => none

/-- One source of the configuration, which may leave fields out. -/
abbrev Source := Field → Option Value

/-- `ScalingConfig`, as far as its times are used. -/
structure ScalingConfig where
  idleTimeoutSecs : UInt64
  wakeTimeoutSecs : UInt64
  scaleDownIntervalSecs : UInt64
  deriving DecidableEq, Repr

namespace ScalingConfig
variable (cfg : ScalingConfig)

def idleTimeout : Duration := .fromSecs cfg.idleTimeoutSecs

def wakeTimeout : Duration := .fromSecs cfg.wakeTimeoutSecs

def scaleDownInterval : Duration := .fromSecs cfg.scaleDownIntervalSecs

end ScalingConfig

/-- `Config::default`. -/
def defaults : Field → Value
  | .idleTimeoutSecs => .integer 300
  | .wakeTimeoutSecs => .integer 60
  | .scaleDownIntervalSecs => .integer 30

/-- The scaling section of `Config::load`: the environment goes before the file, and the file
before the defaults. -/
def load (file env : Source) : Option ScalingConfig := do
  let read (field : Field) : Option UInt64 :=
    ((env field).or (file field) |>.getD (defaults field)).toU64
  let idleTimeoutSecs ← read .idleTimeoutSecs
  let wakeTimeoutSecs ← read .wakeTimeoutSecs
  let scaleDownIntervalSecs ← read .scaleDownIntervalSecs
  return ⟨idleTimeoutSecs, wakeTimeoutSecs, scaleDownIntervalSecs⟩

lemma toU64_integer (n : UInt64) : (Value.integer n.toNat).toU64 = some n := by
  have fits : (0 : ℤ) ≤ n.toNat ∧ (n.toNat : ℤ) < 2 ^ 64 := by
    have := n.toNat_lt
    omega
  rw [Value.toU64, if_pos fits, Int.toNat_natCast, UInt64.ofNat_toNat]

/-- Every triple of times is loaded from some environment. -/
theorem exists_load (file : Source) (cfg : ScalingConfig) : ∃ env, load file env = some cfg := by
  refine ⟨fun
    | .idleTimeoutSecs => some (.integer cfg.idleTimeoutSecs.toNat)
    | .wakeTimeoutSecs => some (.integer cfg.wakeTimeoutSecs.toNat)
    | .scaleDownIntervalSecs => some (.integer cfg.scaleDownIntervalSecs.toNat), ?_⟩
  simp only [load, Option.some_or, Option.getD_some, toU64_integer]
  rfl

/-- The defaults are loaded where neither source says anything. -/
example : load (fun _ => none) (fun _ => none) = some ⟨300, 60, 30⟩ := by decide

structure ScaleDownController where
  idleThreshold : Duration
  interval : Duration
  lockTtl : Duration
  deriving DecidableEq

/-- `ScaleDownController::new`. -/
def ScaleDownController.new (idleThreshold interval : Duration) : Option ScaleDownController := do
  let lockTtl ← interval.checkedAdd (.fromSecs 5)
  return ⟨idleThreshold, interval, lockTtl⟩

/-- The ticker of `ScaleDownController::run`. -/
def ScaleDownController.ticker (c : ScaleDownController) : Option Interval := Interval.new c.interval

/-- The milliseconds that `try_acquire_lock` sends for a time to live. -/
def ttlMs (ttl : Duration) : ℤ := ActivityLock.pxMillis ttl.asMillis

/-- What `main` computes from the times before it serves. -/
structure Started where
  wakeTimeout : Duration
  heartbeatInterval : Duration
  scaler : ScaleDownController
  deriving DecidableEq

def start (cfg : ScalingConfig) : Option Started := do
  let heartbeatInterval ← cfg.idleTimeout.checkedDiv 3
  let scaler ← ScaleDownController.new cfg.idleTimeout cfg.scaleDownInterval
  return ⟨cfg.wakeTimeout, heartbeatInterval, scaler⟩

/-- The deadline that `proxy_handler` sets for the heartbeat of an ordinary request. -/
def heartbeatDeadline (now : Instant) (heartbeatInterval : Duration) (isWebsocket : Bool) :
    Option (Option Instant) :=
  if isWebsocket then some none
  else do
    let span ← heartbeatInterval.checkedMul 6
    let later ← now.checkedAdd span
    let deadline ← later.checkedAdd (.fromSecs 60)
    return some deadline

/-- The ticker of the heartbeat that `proxy_handler` spawns. -/
def heartbeatTicker (heartbeatInterval : Duration) : Option Interval := Interval.new heartbeatInterval

/-- The deadline of `wait_for_healthy_service`. -/
def discoveryDeadline (now : Instant) (timeout : Duration) : Option Instant := now.checkedAdd timeout

/-! ## What stays in range -/

/-- Whatever is computed while the program serves is in range, a request and a wake reading the
clock as given. -/
structure Serves (started : Started) (request wake : Instant) : Prop where
  ticker : started.scaler.ticker.isSome
  lockTtl : ttlMs started.scaler.lockTtl = started.scaler.lockTtl.asMillis
  deadline : ∀ isWebsocket, (heartbeatDeadline request started.heartbeatInterval isWebsocket).isSome
  heartbeat : (heartbeatTicker started.heartbeatInterval).isSome
  discovery : (discoveryDeadline wake started.wakeTimeout).isSome

/-- The program starts and serves. -/
def InRange (cfg : ScalingConfig) (request wake : Instant) : Prop :=
  ∃ started, start cfg = some started ∧ Serves started request wake

/-- The bounds that the times have to keep. -/
structure Bounded (cfg : ScalingConfig) (request wake : Instant) : Prop where
  interval : 0 < cfg.scaleDownIntervalSecs.toNat
  lockTtl : (cfg.scaleDownIntervalSecs.toNat + 5) * 1000 < 2 ^ 63
  idle : 0 < cfg.idleTimeoutSecs.toNat
  deadline : request.toNanos + cfg.idleTimeoutSecs.toNat * 10 ^ 9 / 3 * 6 + 60 * 10 ^ 9 < 2 ^ 63 * 10 ^ 9
  discovery : wake.toNanos + cfg.wakeTimeoutSecs.toNat * 10 ^ 9 < 2 ^ 63 * 10 ^ 9

section
variable {cfg : ScalingConfig} {started : Started} {hb : Duration} {c : ScaleDownController}

lemma pxMillis_eq_iff {ttl : ℕ} : ActivityLock.pxMillis ttl = ttl ↔ ttl < 2 ^ 63 := by
  rw [ActivityLock.pxMillis, BitVec.toInt_ofNat', Int.bmod_def]
  split <;> omega

lemma toNanos_interval {idle : UInt64} (found : (Time.fromSecs idle).checkedDiv 3 = some hb) :
    hb.toNanos = idle.toNat * 10 ^ 9 / 3 := by
  have three : (3 : UInt32).toNat = 3 := rfl
  rw [Time.checkedDiv_eq _ (by decide), three, Time.toNanos_fromSecs] at found
  exact Time.toNanos_of_ofNanos? found

lemma exists_interval (idle : UInt64) : ∃ hb, (Time.fromSecs idle).checkedDiv 3 = some hb :=
  ⟨_, dif_pos (by decide)⟩

lemma new_eq {idle interval : Duration} (made : ScaleDownController.new idle interval = some c) :
    c.interval = interval ∧ c.lockTtl.toNanos = interval.toNanos + 5 * 10 ^ 9 := by
  obtain ⟨ttl, sum, same⟩ := Option.bind_eq_some_iff.mp made
  obtain rfl := Option.some.inj same
  rw [Time.checkedAdd_eq] at sum
  exact ⟨rfl, Time.toNanos_of_ofNanos? sum⟩

lemma isSome_new (idle : Duration) (interval : UInt64) :
    (ScaleDownController.new idle (.fromSecs interval)).isSome ↔ interval.toNat + 5 < 2 ^ 64 := by
  have five : (Time.fromSecs 5).toNanos = 5 * 10 ^ 9 := Time.toNanos_fromSecs 5
  have sum : ((Time.fromSecs interval).checkedAdd (.fromSecs 5)).isSome ↔ interval.toNat + 5 < 2 ^ 64 := by
    rw [Time.checkedAdd_eq, Time.isSome_ofNanos?, Time.toNanos_fromSecs, five, ← add_mul]
    exact Nat.mul_lt_mul_right (by decide)
  rw [← sum, ScaleDownController.new]
  cases (Time.fromSecs interval).checkedAdd (.fromSecs 5) <;> rfl

/-- What `main` computes. -/
lemma start_eq (made : start cfg = some started) :
    started.wakeTimeout = cfg.wakeTimeout ∧
      started.heartbeatInterval.toNanos = cfg.idleTimeoutSecs.toNat * 10 ^ 9 / 3 ∧
      started.scaler.interval = cfg.scaleDownInterval ∧
      started.scaler.lockTtl.toNanos = (cfg.scaleDownIntervalSecs.toNat + 5) * 10 ^ 9 := by
  unfold start at made
  obtain ⟨hb, divided, made⟩ := Option.bind_eq_some_iff.mp made
  obtain ⟨c, sum, same⟩ := Option.bind_eq_some_iff.mp made
  obtain rfl := Option.some.inj same
  obtain ⟨interval, ttl⟩ := new_eq sum
  refine ⟨rfl, toNanos_interval divided, interval, ?_⟩
  rw [ttl, ScalingConfig.scaleDownInterval, Time.toNanos_fromSecs, add_mul]

lemma exists_start : (∃ started, start cfg = some started) ↔
    cfg.scaleDownIntervalSecs.toNat + 5 < 2 ^ 64 := by
  obtain ⟨hb, divided⟩ := exists_interval cfg.idleTimeoutSecs
  rw [← isSome_new cfg.idleTimeout, ← Option.isSome_iff_exists, start,
    ScalingConfig.idleTimeout, divided, ScalingConfig.scaleDownInterval]
  cases ScaleDownController.new _ (.fromSecs cfg.scaleDownIntervalSecs) <;> rfl

/-- The multiplication stays in range if the deadline does. -/
lemma isSome_heartbeatDeadline {now : Instant} :
    (∀ isWebsocket, (heartbeatDeadline now hb isWebsocket).isSome) ↔
      now.toNanos + hb.toNanos * 6 + 60 * 10 ^ 9 < 2 ^ 63 * 10 ^ 9 := by
  have six : (6 : UInt32).toNat = 6 := rfl
  have sixty : (Time.fromSecs 60).toNanos = 60 * 10 ^ 9 := Time.toNanos_fromSecs 60
  constructor
  · intro all
    obtain ⟨deadline, found⟩ := Option.isSome_iff_exists.mp (all false)
    obtain ⟨span, product, found⟩ := Option.bind_eq_some_iff.mp found
    obtain ⟨later, sum, found⟩ := Option.bind_eq_some_iff.mp found
    obtain ⟨t, sum', -⟩ := Option.bind_eq_some_iff.mp found
    rw [Time.checkedMul_eq, six] at product
    rw [Time.checkedAdd_eq, Time.toNanos_of_ofNanos? product] at sum
    rw [Time.checkedAdd_eq, Time.toNanos_of_ofNanos? sum, sixty] at sum'
    exact Time.isSome_ofNanos?.mp (Option.isSome_of_mem sum')
  · rintro fits (_ | _)
    · have product : hb.checkedMul 6 = Time.ofNanos? _ (hb.toNanos * 6) := Time.checkedMul_eq hb 6
      obtain ⟨span, spanFits⟩ := Time.exists_ofNanos? (l := 2 ^ 64) (n := hb.toNanos * 6) (by omega)
      obtain ⟨later, laterFits⟩ :=
        Time.exists_ofNanos? (l := 2 ^ 63) (n := now.toNanos + hb.toNanos * 6) (by omega)
      obtain ⟨t, tFits⟩ := Time.exists_ofNanos? fits
      have sum : now.checkedAdd span = some later := by
        rw [Time.checkedAdd_eq, Time.toNanos_of_ofNanos? spanFits, laterFits]
      have sum' : later.checkedAdd (.fromSecs 60) = some t := by
        rw [Time.checkedAdd_eq, Time.toNanos_of_ofNanos? laterFits, sixty, tFits]
      have found : heartbeatDeadline now hb false = some (some t) := by
        rw [heartbeatDeadline, product, spanFits]
        simp only [Bool.false_eq_true, if_false, Option.bind_eq_bind, Option.bind_some, sum, sum', Option.pure_def]
      rw [found, Option.isSome_some]
    · rfl

/-! Every computation has its bound. -/

section
variable (made : start cfg = some started) {now : Instant}
include made

lemma ticker_iff : started.scaler.ticker.isSome ↔ 0 < cfg.scaleDownIntervalSecs.toNat := by
  obtain ⟨-, -, interval, -⟩ := start_eq made
  rw [ScaleDownController.ticker, Interval.isSome_new, interval, ScalingConfig.scaleDownInterval,
    Time.toNanos_fromSecs]
  omega

lemma lockTtl_iff : ttlMs started.scaler.lockTtl = started.scaler.lockTtl.asMillis ↔
    (cfg.scaleDownIntervalSecs.toNat + 5) * 1000 < 2 ^ 63 := by
  obtain ⟨-, -, -, ttl⟩ := start_eq made
  rw [ttlMs, pxMillis_eq_iff, Time.asMillis_eq, ttl]
  omega

lemma heartbeat_iff : (heartbeatTicker started.heartbeatInterval).isSome ↔
    0 < cfg.idleTimeoutSecs.toNat := by
  obtain ⟨-, heartbeat, -, -⟩ := start_eq made
  rw [heartbeatTicker, Interval.isSome_new, heartbeat]
  omega

lemma deadline_iff :
    (∀ isWebsocket, (heartbeatDeadline now started.heartbeatInterval isWebsocket).isSome) ↔
      now.toNanos + cfg.idleTimeoutSecs.toNat * 10 ^ 9 / 3 * 6 + 60 * 10 ^ 9 < 2 ^ 63 * 10 ^ 9 := by
  obtain ⟨-, heartbeat, -, -⟩ := start_eq made
  rw [isSome_heartbeatDeadline, heartbeat]

lemma discovery_iff : (discoveryDeadline now started.wakeTimeout).isSome ↔
    now.toNanos + cfg.wakeTimeoutSecs.toNat * 10 ^ 9 < 2 ^ 63 * 10 ^ 9 := by
  obtain ⟨timeout, -, -, -⟩ := start_eq made
  rw [discoveryDeadline, Time.checkedAdd_eq, Time.isSome_ofNanos?, timeout,
    ScalingConfig.wakeTimeout, Time.toNanos_fromSecs]

lemma serves_iff {request wake : Instant} :
    Serves started request wake ↔ Bounded cfg request wake := by
  constructor
  · intro serves
    exact ⟨(ticker_iff made).mp serves.ticker, (lockTtl_iff made).mp serves.lockTtl,
      (heartbeat_iff made).mp serves.heartbeat, (deadline_iff made).mp serves.deadline,
      (discovery_iff made).mp serves.discovery⟩
  · intro bounded
    exact ⟨(ticker_iff made).mpr bounded.interval, (lockTtl_iff made).mpr bounded.lockTtl,
      (deadline_iff made).mpr bounded.deadline, (heartbeat_iff made).mpr bounded.idle,
      (discovery_iff made).mpr bounded.discovery⟩

end

end

/-- A configuration stays in range, at the given readings of the clock, if and only if its times
keep the bounds. -/
theorem inRange_iff (cfg : ScalingConfig) (request wake : Instant) :
    InRange cfg request wake ↔ Bounded cfg request wake := by
  constructor
  · rintro ⟨started, made, serves⟩
    exact (serves_iff made).mp serves
  · intro bounded
    have small : cfg.scaleDownIntervalSecs.toNat + 5 < 2 ^ 64 := by
      have fits := bounded.lockTtl
      omega
    obtain ⟨started, made⟩ := exists_start.mpr small
    exact ⟨started, made, (serves_iff made).mpr bounded⟩

/-- The environment sets `scale_down_interval_secs` to zero. -/
def noInterval : Source
  | .scaleDownIntervalSecs => some (.integer 0)
  | _ => none

theorem ticker_panics : ¬ ∀ (file env : Source) (cfg : ScalingConfig) (request wake : Instant),
    load file env = some cfg → InRange cfg request wake := by
  intro all
  have now : Instant := ⟨0, 0, by decide, by decide⟩
  obtain ⟨started, made, serves⟩ := all (fun _ => none) noInterval ⟨300, 60, 0⟩ now now (by decide)
  exact absurd ((ticker_iff made).mp serves.ticker) (by decide)

end NScale.Timing
