import NScale.ScaleDownController
import NScale.Transition

/-!
# The traffic probe against a proxy that may restart

`TrafficProbe` of one replica, with the proxy whose metrics it scrapes. The proxy counts the
requests that it routes to a service since it has started; the probe keeps the count that it saw
last. A label of the metrics belongs to one job, so that both are kept by job.
-/
namespace NScale.TrafficProbe
open Service Program Transition

structure World where
  counter : JobId → ℕ
  lastCounts : JobId → Option ℕ

inductive Event
  | route (job : JobId)
  | restart
  | check (job : JobId) (scraped : Bool)
  | clear (job : JobId)

/-- The operations of the probe; a scrape may fail. -/
def handle (scraped : Bool) (op : Op) (w : World) : op.Answer × World :=
  match op with
  | .scrape key =>
    (if scraped then .ok (w.counter key) else .error (.consul "traefik metrics fetch failed"), w)
  | .replaceCount key total =>
    (w.lastCounts key, { w with lastCounts := Function.update w.lastCounts key (some total) })
  | .clearBaseline key => ((), { w with lastCounts := Function.update w.lastCounts key none })
  | _ => (default, w)

/-- A call of `has_active_traffic`. -/
def check (scraped : Bool) (job : JobId) (w : World) : Result Bool × World :=
  (hasActiveTraffic job).run (handle scraped) w

def World.after (w : World) : Event → World
  | .route job => { w with counter := Function.update w.counter job (w.counter job + 1) }
  | .restart => { w with counter := fun _ => 0 }
  | .check job scraped => (check scraped job w).2
  | .clear job => ((perform (.clearBaseline job)).run (handle true) w).2

/-- The probe is new, the proxy has already counted. -/
def system (counted : JobId → ℕ) : System World Event :=
  ⟨⟨counted, fun _ => none⟩, fun w e => some (w.after e)⟩

section History
variable (job : JobId)

/-- The requests to the service since the last successful call, without those that the proxy has
forgotten. -/
def reflected : List Event → ℕ
  | [] => 0
  | .route j :: h => if j = job then reflected h + 1 else reflected h
  | .restart :: _ => 0
  | .check j scraped :: h => if j = job ∧ scraped then 0 else reflected h
  | .clear _ :: h => reflected h

/-- The proxy has restarted since the last successful call. -/
def restarted : List Event → Bool
  | [] => false
  | .restart :: _ => true
  | .check j scraped :: h => if j = job ∧ scraped then false else restarted h
  | _ :: h => restarted h

end History

variable {counted : JobId → ℕ} {job : JobId} {h : List Event} {w : World}

/-- Without a baseline any count is traffic, with one a greater count. -/
lemma check_scraped (job : JobId) (w : World) : check true job w =
    (.ok ((w.lastCounts job).elim (decide (0 < w.counter job)) fun prev => decide (prev < w.counter job)),
      { w with lastCounts := Function.update w.lastCounts job (some (w.counter job)) }) := by
  cases prev : w.lastCounts job <;>
    simp only [check, hasActiveTraffic, Service.perform, run_bind, call, Program.run, handle, prev,
      if_true] <;> rfl

/-- How the counter, the baseline and the requests of the past are related. -/
structure Counted (job : JobId) (h : List Event) (w : World) : Prop where
  fresh : restarted job h = true → w.counter job = reflected job h
  known : restarted job h = false → reflected job h ≤ w.counter job ∧
    ∀ b, w.lastCounts job = some b → w.counter job = b + reflected job h

lemma Counted.of_eq {h' : List Event} {v : World} (counts : Counted job h w)
    (counter : v.counter job = w.counter job) (seen : v.lastCounts job = w.lastCounts job)
    (requests : reflected job h' = reflected job h) (again : restarted job h' = restarted job h) :
    Counted job h' v := by
  constructor
  · rw [again, counter, requests]
    exact counts.fresh
  · rw [again, counter, seen, requests]
    exact counts.known

lemma Counted.next (counts : Counted job h w) (e : Event) : Counted job (e :: h) (w.after e) := by
  cases e with
  | route j =>
    by_cases own : j = job
    · subst own
      refine ⟨fun fresh => ?_, fun known => ?_⟩
      · simp [World.after, reflected, counts.fresh fresh]
      · obtain ⟨bound, baseline⟩ := counts.known known
        simp only [World.after, reflected, Function.update_self, if_true]
        exact ⟨by omega, fun b seen => by rw [baseline b seen, Nat.add_assoc]⟩
    · exact counts.of_eq (Function.update_of_ne (Ne.symm own) ..) rfl (if_neg own) rfl
  | restart => exact ⟨fun _ => rfl, nofun⟩
  | check j scraped =>
    cases scraped with
    | false =>
      exact counts.of_eq rfl rfl (if_neg (by simp)) (if_neg (by simp))
    | true =>
      by_cases own : j = job
      · subst own
        constructor <;> simp [World.after, check_scraped, reflected, restarted]
      · have seen : (w.after (.check j true)).lastCounts job = w.lastCounts job := by
          rw [World.after, check_scraped]
          exact Function.update_of_ne (Ne.symm own) ..
        have counter : (w.after (.check j true)).counter job = w.counter job := by
          rw [World.after, check_scraped]
        exact counts.of_eq counter seen (if_neg fun both => own both.1) (if_neg fun both => own both.1)
  | clear j =>
    by_cases own : j = job
    · subst own
      have cleared : (w.after (.clear j)).lastCounts j = none := Function.update_self ..
      refine ⟨counts.fresh, fun known => ⟨(counts.known known).1, fun b seen => ?_⟩⟩
      rw [cleared] at seen
      cases seen
    · exact counts.of_eq rfl (Function.update_of_ne (Ne.symm own) ..) rfl rfl

lemma counted_of_run (run : Run (system counted) h w) (job : JobId) : Counted job h w := by
  refine run.invariant (Counted job) ?_ ?_
  · exact ⟨nofun, fun _ => ⟨Nat.zero_le _, nofun⟩⟩
  · rintro h s t e - counts taken -
    obtain rfl := Option.some.inj taken
    exact counts.next e

/-- Traffic is seen exactly if the baseline is of the same life of the proxy, or is outnumbered by
the requests since its restart. -/
theorem hasActiveTraffic_iff (counted : JobId → ℕ) (h : List Event) (w : World) (job : JobId)
    (run : Run (system counted) h w) (routed : 0 < reflected job h) :
    (check true job w).1 = .ok true ↔
      ∀ b, w.lastCounts job = some b → restarted job h = true → b < reflected job h := by
  have counts := counted_of_run run job
  rw [check_scraped]
  cases again : restarted job h with
  | true =>
    have counter := counts.fresh again
    cases seen : w.lastCounts job with
    | none => simp [counter, routed]
    | some b => simp [counter]
  | false =>
    obtain ⟨bound, baseline⟩ := counts.known again
    cases seen : w.lastCounts job with
    | none => simp; omega
    | some b => simp [baseline b seen, routed]

/-! ## A restart of the proxy -/

def echo : JobId := ⟨"echo-s2z"⟩

/-- Two requests are seen, then the proxy restarts and routes some more. -/
def restartedAfterTwo (requests : ℕ) : List Event :=
  [.route echo, .route echo, .check echo true, .restart] ++ List.replicate requests (.route echo)

theorem outnumbered_seen : ∃ w, (check true echo w).1 = .ok true := by
  obtain ⟨h, w, run, routed, seen, requests⟩ := exists_run (T := system fun _ => 0)
    (C := fun _ _ _ => True)
    (fun h w => 0 < reflected echo h ∧ w.lastCounts echo = some 2 ∧ reflected echo h = 3)
    (restartedAfterTwo 3) (by decide)
  refine ⟨w, (hasActiveTraffic_iff (fun _ => 0) h w echo run routed).mpr fun b same _ => ?_⟩
  obtain rfl := Option.some.inj (seen.symm.trans same)
  rw [requests]
  decide

theorem traffic_missed : ∃ h w, Run (system fun _ => 0) h w ∧ 0 < reflected echo h ∧
    (check true echo w).1 = .ok false :=
  exists_run (T := system fun _ => 0) (C := fun _ _ _ => True)
    (fun h w => 0 < reflected echo h ∧ (check true echo w).1 = .ok false)
    (restartedAfterTwo 1) (by decide)

end NScale.TrafficProbe
