import Mathlib.Algebra.Order.BigOperators.Group.List
import Mathlib.Algebra.Field.Rat
import Mathlib.Algebra.Order.Field.Basic
import Mathlib.Algebra.Order.Ring.Rat
import CloudGateway.Backpressure.Clients

/-!
# No request is leaked

`on_request_complete` saturates at zero, so a request that was completed twice, or never
started, would let a later one through unseen.  Clients that complete what they have started,
and no more, do not meet the saturation: in every interleaving of their calls the counter is
the number of requests that are running (`tracked_of_reaches`), as long as they make fewer
than `2 ^ 64`.  So the controller recovers from any load: once the running requests are down to
the low watermark, the next evaluation allows, even if requests were slowed down or rejected
before (`recovers_of_reaches`).
-/

universe u

namespace CloudGateway

namespace BackpressureController

variable {F : Type u}

/-! ## Requests -/

/-- The requests of the clients that have started and not completed. -/
def running (clients : List Client) : ℕ := (clients.map Client.running).sum

/-- The requests of a client that are running, or that it may start yet. -/
def Client.requests (t : Client) : ℕ := t.running + t.script.count .start

/-- The requests of some clients that are running, or that they may start yet. -/
def requests (clients : List Client) : ℕ := (clients.map Client.requests).sum

theorem running_le_requests (clients : List Client) : running clients ≤ requests clients :=
  List.sum_le_sum fun _ _ ↦ Nat.le_add_right _ _

theorem running_insert (l₁ l₂ : List Client) (t : Client) :
    running (l₁ ++ t :: l₂) = running (l₁ ++ l₂) + t.running := by
  simp only [running, List.map_append, List.map_cons, List.sum_append, List.sum_cons]
  omega

theorem requests_insert (l₁ l₂ : List Client) (t : Client) :
    requests (l₁ ++ t :: l₂) = requests (l₁ ++ l₂) + t.requests := by
  simp only [requests, List.map_append, List.map_cons, List.sum_append, List.sum_cons]
  omega

theorem toNat_onRequestComplete {s : BackpressureController F} {n : ℕ}
    (h : s.inflight.toNat = n + 1) : s.onRequestComplete.inflight.toNat = n := by
  have hpos : s.inflight ≠ 0 := by
    intro hzero
    rw [hzero] at h
    cases h
  have hone : (1 : UInt64) ≤ s.inflight := by
    rw [UInt64.le_iff_toNat_le, h]
    exact Nat.le_add_left 1 n
  rw [onRequestComplete]
  simp only [if_neg hpos]
  rw [UInt64.toNat_sub_of_le _ _ hone, h]
  rfl

/-! ## One call -/

variable [NatCast F] [Div F] [Zero F] [LE F] [DecidableLE F]

namespace Moves

variable {s s' : BackpressureController F} {t t' : Client}

/-- No call of a client touches the configuration or the queue. -/
theorem frame (h : Moves s t t' s') : s'.config = s.config ∧ s'.queue_len = s.queue_len := by
  cases h with
  | rejected | admitted => exact ⟨(evaluate_snd s).1, (evaluate_snd s).2.2⟩
  | _ => exact ⟨rfl, rfl⟩

/-- A client does not make requests that are not in its script. -/
theorem requests_le (h : Moves s t t' s') : t'.requests ≤ t.requests := by
  cases h with
  | rejected | admitted => exact Nat.le_of_eq (by simp [Client.requests])
  | starts =>
      simp only [Client.requests, List.count_cons_self]
      omega
  | completes =>
      simp only [Client.requests, List.count_cons]
      omega
  | idles =>
      simp only [Client.requests, List.count_cons]
      omega

/-- A call moves the counter as it moves the running requests of the client, beside the `n`
running requests of the others. -/
theorem inflight {n : ℕ} (h : Moves s t t' s') (hinflight : s.inflight.toNat = n + t.running)
    (hsmall : n + t.requests < 2 ^ 64) : s'.inflight.toNat = n + t'.running := by
  cases h with
  | rejected | admitted => rw [(evaluate_snd s).2.1]; exact hinflight
  | starts =>
      simp only [Client.requests, List.count_cons_self] at hsmall
      dsimp only at hinflight
      rw [toNat_onRequestStart (by omega), hinflight]
      rfl
  | completes => exact toNat_onRequestComplete hinflight
  | idles => exact hinflight

end Moves

/-! ## Runs -/

/-- The counter is the number of running requests, of no more than `n` in all. -/
structure Tracked (config : BackpressureConfig F) (n : ℕ)
    (w : Pool (BackpressureController F) Client) : Prop where
  config_eq : w.shared.config = config
  queue_len : w.shared.queue_len = 0
  inflight : w.shared.inflight.toNat = running w.threads
  le : requests w.threads ≤ n

theorem Tracked.next {config : BackpressureConfig F} {n : ℕ} (hn : n < 2 ^ 64)
    {w w' : Pool (BackpressureController F) Client} (h : Pool.Step Client.step w w')
    (hw : Tracked config n w) : Tracked config n w' := by
  cases h with
  | @mk s s' t t' l₁ l₂ h =>
      obtain ⟨hconfig, hqueue, hinflight, hle⟩ := hw
      have hmoves := moves h
      obtain ⟨hsame, hsameQueue⟩ := hmoves.frame
      have hothers := running_le_requests (l₁ ++ l₂)
      have hfewer := hmoves.requests_le
      rw [running_insert] at hinflight
      rw [requests_insert] at hle
      refine ⟨hsame.trans hconfig, hsameQueue.trans hqueue, ?_, ?_⟩
      · rw [running_insert]
        exact hmoves.inflight hinflight (by omega)
      · rw [requests_insert]
        omega

theorem tracked_of_reaches {config : BackpressureConfig F} {scripts : List (List Move)}
    (hsmall : requests (scripts.map Client.new) < 2 ^ 64)
    {w : Pool (BackpressureController F) Client}
    (h : Pool.Reaches Client.step (clients config scripts) w) :
    Tracked config (requests (scripts.map Client.new)) w := by
  induction h with
  | refl =>
      refine ⟨rfl, rfl, ?_, le_rfl⟩
      have hnone : running (scripts.map Client.new) = 0 := by
        rw [running, List.map_map]
        exact List.sum_eq_zero fun n hn ↦ by
          obtain ⟨script, -, rfl⟩ := List.mem_map.mp hn
          rfl
      exact hnone.symm
  | tail _ hs ih => exact ih.next hsmall hs

section Recovery

variable {K : Type u} [Field K] [LinearOrder K] [IsStrictOrderedRing K]

/-- At the low watermark or below, throttling ends. -/
theorem throttles_eq_false {s : BackpressureController K}
    (horder : s.config.low_watermark < s.config.high_watermark)
    (hfull : s.inflight < s.config.max_inflight)
    (hlow : (s.inflight.toNat : K) ≤ s.config.low_watermark * s.config.max_inflight.toNat) :
    s.throttles = false := by
  have hpos : 0 < s.config.max_inflight := lt_of_le_of_lt (Nat.zero_le _) hfull
  have hmax : (0 : K) < (s.config.max_inflight.toNat : K) := Nat.cast_pos.mpr hpos
  have hratio : s.ratio ≤ s.config.low_watermark := by
    rw [ratio, if_pos hpos, div_le_iff₀ hmax]
    exact hlow
  have hhigh : ¬ s.ratio ≥ s.config.high_watermark :=
    not_le.mpr (lt_of_le_of_lt hratio horder)
  rw [throttles, if_neg hhigh, if_pos hratio]

/-- **The counter leaks nothing, and the controller recovers.**  In every interleaving of the
clients' calls, the in-flight requests are those that the clients have started and not
completed.  Once they are down to the low watermark, the next evaluation allows, whatever was
answered before. -/
theorem recovers_of_reaches {config : BackpressureConfig K} {scripts : List (List Move)}
    (hsmall : requests (scripts.map Client.new) < 2 ^ 64)
    {w : Pool (BackpressureController K) Client}
    (h : Pool.Reaches Client.step (clients config scripts) w) :
    w.shared.inflight.toNat = running w.threads ∧
      (config.low_watermark < config.high_watermark → 0 < config.max_queue_len →
        running w.threads < config.max_inflight.toNat →
        (running w.threads : K) ≤ config.low_watermark * config.max_inflight.toNat →
        w.shared.evaluate.1 = .allow ∧ w.shared.evaluate.2.throttling = false) := by
  obtain ⟨rfl, hqueue, hinflight, -⟩ := tracked_of_reaches hsmall h
  refine ⟨hinflight, fun horder hlength hfull hlow ↦ ?_⟩
  rw [← hinflight] at hfull hlow
  have hrejects : ¬ w.shared.Rejects := by
    rw [Rejects, hqueue, not_or]
    exact ⟨UInt64.not_le.mpr hlength, UInt64.not_le.mpr (UInt64.lt_iff_toNat_lt.mpr hfull)⟩
  have hthrottles := throttles_eq_false horder (UInt64.lt_iff_toNat_lt.mpr hfull) hlow
  rw [evaluate_of_not_rejects hrejects, hthrottles]
  exact ⟨rfl, rfl⟩

/-- A controller with room for 2 requests. -/
def roomForTwo : BackpressureConfig ℚ := ⟨2, 4 / 5, 1 / 2, 50⟩

/-- Two clients on a controller with room for 2: the second one is rejected, and allowed once
the first one is done. -/
theorem recovers_of_reaches_rat :
    ∃ w : Pool (BackpressureController ℚ) Client,
      Pool.Reaches Client.step (clients roomForTwo
        [[.evaluate, .start, .evaluate, .start, .complete, .complete], [.evaluate]]) w ∧
      w.shared.rejected_count = 1 ∧ w.shared.inflight.toNat = running w.threads ∧
      w.shared.evaluate.1 = .allow := by
  have hw : (Pool.schedule Client.step (fun _ ↦ True) (clients roomForTwo
      [[.evaluate, .start, .evaluate, .start, .complete, .complete], [.evaluate]])
      [0, 0, 0, 0, 1, 0, 0]).map (fun w ↦ (w.shared.rejected_count, running w.threads))
        = some (1, 0) := by decide +kernel
  obtain ⟨w, hrun, hcheck⟩ := Option.map_eq_some_iff.mp hw
  obtain ⟨hcount, hidle⟩ := Prod.mk.inj hcheck
  have hreaches := (Pool.reachesWithin_of_schedule hrun).reaches
  obtain ⟨hinflight, hallows⟩ := recovers_of_reaches (by decide) hreaches
  rw [hidle] at hallows
  refine ⟨w, hreaches, hcount, hinflight, (hallows ?_ ?_ ?_ ?_).1⟩
  · decide +kernel
  · decide +kernel
  · decide +kernel
  · decide +kernel

end Recovery

end BackpressureController

end CloudGateway
