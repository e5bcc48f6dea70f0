import Mathlib.Data.Rat.Cast.Order
import CloudGateway.Library.Spans
import CloudGateway.RateLimiter

/-!
# A rate limiter whose clock goes backwards

`refill` counts no time when the clock has gone backwards, but it takes the earlier time
over as the last update, so the next call counts the time in between once more.  A limiter
therefore grants what the forward moves of its clock add up to (`grants_serve_le`).  Each
moment is counted once, and the grants stay within the window of the whole run, when no
forward move of the clock overlaps an earlier one (`grants_le_iff_apart`).
-/

universe u

namespace CloudGateway

open Spans

namespace RateLimiter

variable {K : Type u} [LinearOrder K]

/-! ## The moves of the clock -/

/-- The forward moves of a clock that begins at `created`. -/
def moves (created : K) : List K → List (K × K)
  | [] => []
  | t :: times => if created < t then (created, t) :: moves t times else moves t times

/-- A move goes forward, between two times of the clock. -/
theorem mem_moves {created : K} {times : List K} {m : K × K} (h : m ∈ moves created times) :
    m.1 < m.2 ∧ m.1 ∈ created :: times ∧ m.2 ∈ created :: times := by
  induction times generalizing created with
  | nil => exact (List.not_mem_nil h).elim
  | cons t times ih =>
      have hrest : m ∈ moves t times →
          m.1 < m.2 ∧ m.1 ∈ created :: t :: times ∧ m.2 ∈ created :: t :: times := by
        intro h
        obtain ⟨hlt, hfrom, hto⟩ := ih h
        exact ⟨hlt, List.mem_cons_of_mem _ hfrom, List.mem_cons_of_mem _ hto⟩
      rw [moves] at h
      split at h
      · rename_i hlt
        rcases List.mem_cons.mp h with rfl | h
        · exact ⟨hlt, List.mem_cons_self, List.mem_cons_of_mem _ List.mem_cons_self⟩
        · exact hrest h
      · exact hrest h

variable [Field K]

/-- The refills that calls at the given times make: the last update that each call finds,
and its time. -/
def refills (l : RateLimiter K) : List K → List (K × K)
  | [] => []
  | now :: times => (l.last_update, now) :: refills (l.tryAcquire now).2 times

/-- The number of refills that count the moment `x` as elapsed. -/
def credits (l : RateLimiter K) (times : List K) (x : K) : ℕ :=
  (refills l times).countP fun m ↦ Covers x m

/-- A moment is counted as often as the clock moves forward over it. -/
theorem credits_eq (l : RateLimiter K) (times : List K) (x : K) :
    credits l times x
      = (moves l.last_update times).countP fun m ↦ decide (Covers x m) := by
  rw [credits]
  induction times generalizing l with
  | nil => rfl
  | cons now times ih =>
      have htail := ih (l.tryAcquire now).2
      rw [last_update_tryAcquire] at htail
      rw [refills, moves, List.countP_cons, htail]
      by_cases hforward : l.last_update < now
      · rw [if_pos hforward, List.countP_cons]
      · have hcovers : ¬ Covers x (l.last_update, now) := by
          rintro ⟨hfrom, hto⟩
          exact hforward (lt_trans hfrom hto)
        rw [if_neg hforward, if_neg (mt of_decide_eq_true hcovers), Nat.add_zero]

/-! ## What is granted -/

/-- The tokens after a refill are no more than those before and the ones added. -/
theorem tokens_refill_le (l : RateLimiter K) (now : K) :
    (l.refill now).tokens
      ≤ l.tokens + l.config.requests_per_second * max (now - l.last_update) 0 := by
  rw [mul_comm]
  exact min_le_left _ _

variable [IsStrictOrderedRing K]

/-- The time a refill counts is the length of the move, or none. -/
theorem length_moves_cons (created t : K) (times : List K) :
    length (moves created (t :: times))
      = max (t - created) 0 + length (moves t times) := by
  rw [moves]
  split
  · rename_i h
    rw [max_eq_left (sub_nonneg.mpr h.le), length, List.map_cons, List.sum_cons]
    rfl
  · rename_i h
    rw [max_eq_right (sub_nonpos.mpr (not_lt.mp h)), zero_add]

theorem tokens_refill_nonneg {l : RateLimiter K} (hr : 0 ≤ l.config.requests_per_second)
    (htokens : 0 ≤ l.tokens) (now : K) : 0 ≤ (l.refill now).tokens :=
  le_min (add_nonneg htokens (mul_nonneg (le_max_right _ _) hr)) (Nat.cast_nonneg _)

/-- The tokens do not become negative. -/
theorem tokens_tryAcquire_nonneg {l : RateLimiter K}
    (hr : 0 ≤ l.config.requests_per_second) (htokens : 0 ≤ l.tokens) (now : K) :
    0 ≤ (l.tryAcquire now).2.tokens := by
  cases hgranted : (l.tryAcquire now).1 with
  | true =>
      rw [tokens_of_granted l now hgranted]
      exact sub_nonneg.mpr ((tryAcquire_fst_iff l now).mp hgranted)
  | false =>
      rw [tokens_of_rejected l now hgranted]
      exact tokens_refill_nonneg hr htokens now

/-- **What a limiter grants**: the tokens it has, and what the forward moves of the clock
add up to. -/
theorem grants_serve_le {l : RateLimiter K} (hr : 0 ≤ l.config.requests_per_second)
    (htokens : 0 ≤ l.tokens) (times : List K) :
    (grants (serve l times).1 : K)
      ≤ l.tokens + l.config.requests_per_second * length (moves l.last_update times) := by
  induction times generalizing l with
  | nil => simpa [serve, grants, moves, length] using htokens
  | cons now times ih =>
      have hrest := ih (l := (l.tryAcquire now).2) (by simpa using hr)
        (tokens_tryAcquire_nonneg hr htokens now)
      have hrefill := tokens_refill_le l now
      rw [config_tryAcquire, last_update_tryAcquire] at hrest
      rw [serve_cons, grants, List.countP_append, length_moves_cons, mul_add]
      rw [grants] at hrest
      cases hgranted : (l.tryAcquire now).1 with
      | true =>
          rw [tokens_of_granted l now hgranted] at hrest
          simp only [List.countP_singleton, if_true, Nat.cast_add, Nat.cast_one]
          linarith
      | false =>
          rw [tokens_of_rejected l now hgranted] at hrest
          simp only [List.countP_singleton, Bool.false_eq_true, if_false, Nat.add_zero]
          linarith

/-- **The limit under an unordered clock.**  Over a run inside `[a, b]`, the grants stay
within `B + r (b - a)` and no moment is counted as elapsed twice, if and only if no forward
move of the clock overlaps another. -/
theorem grants_le_iff_apart {config : RateLimiterConfig K} {created a b : K}
    (hr : 0 ≤ config.requests_per_second) {times : List K}
    (hin : ∀ t ∈ created :: times, a ≤ t ∧ t ≤ b) :
    ((grants (serve (new config created) times).1 : K)
        ≤ config.burst + config.requests_per_second * (b - a) ∧
      ∀ x, credits (new config created) times x ≤ 1) ↔
    (moves created times).Pairwise Apart := by
  have hforward : ∀ m ∈ moves created times, m.1 < m.2 := fun m hm ↦ (mem_moves hm).1
  have honce : (∀ x, credits (new config created) times x ≤ 1) ↔
      (moves created times).Pairwise Apart := by
    simp only [credits_eq]
    exact count_covers_le_one_iff hforward
  rw [honce]
  refine ⟨And.right, fun hapart ↦ ⟨?_, hapart⟩⟩
  obtain ⟨hac, hcb⟩ := hin created List.mem_cons_self
  have hlength : length (moves created times) ≤ b - a := by
    refine length_le (le_trans hac hcb) hforward ?_ hapart
    intro m hm
    obtain ⟨-, hfrom, hto⟩ := mem_moves hm
    exact ⟨(hin m.1 hfrom).1, (hin m.2 hto).2⟩
  calc (grants (serve (new config created) times).1 : K)
      ≤ config.burst + config.requests_per_second * length (moves created times) :=
        grants_serve_le (l := new config created) hr (Nat.cast_nonneg _) times
    _ ≤ config.burst + config.requests_per_second * (b - a) := by gcongr

/-- A clock that goes backwards, once, to before the creation of the limiter. -/
theorem grants_le_of_apart_rat :
    let config : RateLimiterConfig ℚ := ⟨1, 1⟩
    (grants (serve (new config 1) [2, 0, 1 / 2]).1 : ℚ)
        ≤ config.burst + config.requests_per_second * (2 - 0) ∧
      ∀ x, credits (new config 1) [2, 0, 1 / 2] x ≤ 1 := by
  intro config
  have hin : ∀ t ∈ ([1, 2, 0, 1 / 2] : List ℚ), 0 ≤ t ∧ t ≤ 2 := by decide +kernel
  have hapart : (moves (1 : ℚ) [2, 0, 1 / 2]).Pairwise Apart := by decide +kernel
  exact (grants_le_iff_apart (by decide +kernel) hin).mpr hapart

/-- A clock that swings between 0 and 1: the second and the third move are credited again,
and 3 calls are granted where 2 fit. -/
theorem credited_again :
    let config : RateLimiterConfig ℚ := ⟨1, 1⟩
    let times : List ℚ := [1, 0, 1, 0, 1]
    (∀ t ∈ 0 :: times, 0 ≤ t ∧ t ≤ 1) ∧
      ¬ (grants (serve (new config 0) times).1 : ℚ)
        ≤ config.burst + config.requests_per_second * (1 - 0) ∧
      credits (new config 0) times (1 / 2) = 3 := by
  decide +kernel

end RateLimiter

end CloudGateway
