import Mathlib.Data.Rat.Cast.Order
import CloudGateway.Library.TokenBucket
import CloudGateway.RateLimiter

/-!
# What a rate limiter grants

With exact arithmetic and a clock that does not go backwards, a limiter grants a call
exactly when each window that begins at an earlier granted call has room for one more
(`tryAcquire_exact`).  The tokens are the level of a token bucket that meters the granted
calls so far (`Serves.meters`), also after a rejected call, where the refill has cut the
level off.
-/

universe u

namespace CloudGateway

open TokenBucket

namespace RateLimiter

variable {K : Type u} [LinearOrder K]

/-! ## The clock -/

/-- The clock of a log does not go backwards, from the creation of the limiter on. -/
def Forward (created : K) (log : List (K × Bool)) : Prop :=
  (log.map Prod.fst ++ [created]).Pairwise (· ≥ ·)

section Forward

variable {created : K} {x : K × Bool} {log newer older : List (K × Bool)}

theorem forward_cons : Forward created (x :: log) ↔
    (∀ y ∈ log, y.1 ≤ x.1) ∧ created ≤ x.1 ∧ Forward created log := by
  simp only [Forward, List.map_cons, List.cons_append, List.pairwise_cons,
    List.forall_mem_append, List.forall_mem_map, List.forall_mem_singleton, ge_iff_le,
    and_assoc]

theorem Forward.suffix (h : Forward created (newer ++ older)) : Forward created older := by
  rw [Forward, List.map_append, List.append_assoc] at h
  exact (List.pairwise_append.mp h).2.1

theorem Forward.newest_le (h : Forward created (x :: log)) : newest created log ≤ x.1 := by
  obtain ⟨hlog, hcreated, -⟩ := forward_cons.mp h
  cases log with
  | nil => exact hcreated
  | cons y log => exact hlog y List.mem_cons_self

end Forward

variable [Field K] [IsStrictOrderedRing K]

/-! ## The level -/

/-- Time that passes forward is credited in full, up to the burst size. -/
theorem tokens_refill {l : RateLimiter K} {now : K} (h : l.last_update ≤ now) :
    (l.refill now).tokens
      = min (l.tokens + (now - l.last_update) * l.config.requests_per_second)
          l.config.burst := by
  rw [refill, max_eq_left (sub_nonneg.mpr h)]

/-- **The tokens meter the granted calls.** -/
theorem Serves.meters {config : RateLimiterConfig K} {created : K}
    (hr : 0 ≤ config.requests_per_second) {log : List (K × Bool)} {l : RateLimiter K}
    (h : Serves (new config created) log l) (hforward : Forward created log) :
    Meters config.burst config.requests_per_second (takes log) l.last_update l.tokens := by
  induction h with
  | start => exact Meters.full _ _ _
  | @call log l h now ih =>
      have hrefill : Meters config.burst config.requests_per_second (takes log) now
          (l.refill now).tokens := by
        have hle : l.last_update ≤ now := by
          rw [h.last_update]
          exact hforward.newest_le
        rw [tokens_refill hle, h.config]
        exact (ih (forward_cons.mp hforward).2.2).refill hr hle
      rw [last_update_tryAcquire]
      cases hgranted : (l.tryAcquire now).1 with
      | true =>
          rw [tokens_of_granted l now hgranted]
          exact hrefill.take
      | false =>
          rw [tokens_of_rejected l now hgranted]
          exact hrefill

/-- What fits behind the takes of a log, said of the log. -/
theorem fits_takes_iff {B r t n : K} {log : List (K × Bool)} : Fits B r (takes log) t n ↔
    ∀ between s before, log = between ++ (s, true) :: before →
      n + (grants (between ++ [(s, true)]) : ℕ) ≤ B + r * (t - s) := by
  have hgrants : ∀ (between : List (K × Bool)) (s : K),
      grants (between ++ [(s, true)]) = (takes between).length + 1 := by
    intro between s
    rw [length_takes, grants, List.countP_append]
    rfl
  simp only [fits_iff, takes_eq_append_cons, hgrants]
  constructor
  · rintro h between s before rfl
    exact h _ s _ ⟨between, before, rfl, rfl, rfl⟩
  · rintro h newer s older ⟨between, before, rfl, rfl, rfl⟩
    exact h between s before rfl

/-! ## What is granted -/

/-- The number of calls granted in the window from `a` to `b`. -/
def grantsIn (a b : K) (log : List (K × Bool)) : ℕ :=
  (takes log).countP fun s ↦ a ≤ s ∧ s ≤ b

/-- The number of calls made in the window from `a` to `b`. -/
def callsIn (a b : K) (log : List (K × Bool)) : ℕ :=
  log.countP fun x ↦ a ≤ x.1 ∧ x.1 ≤ b

section Window

omit [Field K] [IsStrictOrderedRing K]

theorem grantsIn_cons (a b : K) (x : K × Bool) (log : List (K × Bool)) :
    grantsIn a b (x :: log)
      = grantsIn a b log + if x.2 = true ∧ a ≤ x.1 ∧ x.1 ≤ b then 1 else 0 := by
  obtain ⟨t, g⟩ := x
  cases g with
  | false => rfl
  | true =>
      have htakes : takes ((t, true) :: log) = t :: takes log := rfl
      simp only [grantsIn, htakes, List.countP_cons, decide_eq_true_eq, true_and]

/-- The calls between two calls of a log lie in the window of their times. -/
theorem length_le_callsIn {created s t : K} {g g' : Bool} {between before : List (K × Bool)}
    (hforward : Forward created ((t, g) :: (between ++ (s, g') :: before))) :
    between.length + 2 ≤ callsIn s t ((t, g) :: (between ++ (s, g') :: before)) := by
  obtain ⟨hlast, -, hforward'⟩ := forward_cons.mp hforward
  have hst : s ≤ t := hlast (s, g') (List.mem_append_right _ List.mem_cons_self)
  have hwithin : ∀ y ∈ between, s ≤ y.1 ∧ y.1 ≤ t := by
    intro y hy
    rw [Forward, List.map_append, List.append_assoc] at hforward'
    refine ⟨?_, hlast y (List.mem_append_left _ hy)⟩
    exact (List.pairwise_append.mp hforward').2.2 y.1 (List.mem_map_of_mem hy) s
      List.mem_cons_self
  have hbetween : between.countP (fun x ↦ decide (s ≤ x.1 ∧ x.1 ≤ t)) = between.length :=
    List.countP_eq_length.mpr fun y hy ↦ decide_eq_true (hwithin y hy)
  simp only [callsIn, List.countP_cons, List.countP_append, hbetween, hst, le_refl,
    and_self, decide_true, if_true]
  omega

end Window

section Granted

variable {config : RateLimiterConfig K} {created : K} {log : List (K × Bool)}
  {l : RateLimiter K}

/-- A call is granted when one more token fits behind the calls granted before. -/
theorem Serves.granted_iff (hr : 0 ≤ config.requests_per_second) {t : K} {g : Bool}
    (h : Serves (new config created) ((t, g) :: log) l)
    (hforward : Forward created ((t, g) :: log)) :
    g = true ↔ 1 ≤ config.burst ∧
      Fits config.burst config.requests_per_second (takes log) t 1 := by
  cases h with
  | @call _ l h =>
      have hle : l.last_update ≤ t := by
        rw [h.last_update]
        exact hforward.newest_le
      have hmeters := (h.meters hr (forward_cons.mp hforward).2.2).refill hr hle
      have hconfig : l.config = config := h.config
      rw [tryAcquire_fst_iff, tokens_refill hle, hconfig, hmeters]

/-- The grants of a window fit into it. -/
theorem Serves.grantsIn_le (hr : 0 ≤ config.requests_per_second)
    (h : Serves (new config created) log l) (hforward : Forward created log)
    {a b : K} (hab : a ≤ b) :
    (grantsIn a b log : K) ≤ config.burst + config.requests_per_second * (b - a) := by
  have hburst : (0 : K) ≤ config.burst := Nat.cast_nonneg _
  have hgain : 0 ≤ config.requests_per_second * (b - a) :=
    mul_nonneg hr (sub_nonneg.mpr hab)
  induction log generalizing l with
  | nil =>
      have hzero : grantsIn a b ([] : List (K × Bool)) = 0 := rfl
      rw [hzero, Nat.cast_zero]
      linarith
  | cons x log ih =>
      obtain ⟨t, g⟩ := x
      have hsplit : Serves (new config created) ([(t, g)] ++ log) l := h
      obtain ⟨l', h'⟩ := hsplit.suffix
      have hold := ih h' (forward_cons.mp hforward).2.2
      rw [grantsIn_cons]
      split
      · rename_i hin
        obtain ⟨rfl, hat, htb⟩ := hin
        obtain ⟨hone, hfits⟩ := (h.granted_iff hr hforward).mp rfl
        have hwindow : config.requests_per_second * (t - a)
            ≤ config.requests_per_second * (b - a) :=
          mul_le_mul_of_nonneg_left (sub_le_sub_right htb a) hr
        have hle : grantsIn a b log = 0 ∨ 1 + (grantsIn a b log : K)
            ≤ config.burst + config.requests_per_second * (t - a) :=
          hfits.count_le hr fun s hs ↦ And.left (of_decide_eq_true hs)
        rw [Nat.cast_add, Nat.cast_one]
        rcases hle with hzero | hle
        · rw [hzero, Nat.cast_zero]
          linarith
        · linarith
      · exact hold

/-- A client that keeps to the bound in every window is never rejected. -/
theorem Serves.granted_of_conforming (hB : 1 ≤ config.burst)
    (hr : 0 ≤ config.requests_per_second) (h : Serves (new config created) log l)
    (hforward : Forward created log)
    (hconform : ∀ a b, a ≤ b →
      (callsIn a b log : K) ≤ config.burst + config.requests_per_second * (b - a)) :
    ∀ x ∈ log, x.2 = true := by
  induction log generalizing l with
  | nil => exact fun x hx ↦ (List.not_mem_nil hx).elim
  | cons x log ih =>
      obtain ⟨t, g⟩ := x
      have hsplit : Serves (new config created) ([(t, g)] ++ log) l := h
      obtain ⟨l', h'⟩ := hsplit.suffix
      obtain ⟨hlast, -, hforward'⟩ := forward_cons.mp hforward
      have hold : ∀ x ∈ log, x.2 = true := by
        apply ih h' hforward'
        intro a b hab
        have hmono : callsIn a b log ≤ callsIn a b ((t, g) :: log) :=
          List.Sublist.countP_le (List.sublist_cons_self _ _)
        exact le_trans (Nat.cast_le.mpr hmono) (hconform a b hab)
      have hnew : g = true := by
        refine (h.granted_iff hr hforward).mpr ⟨hB, fits_takes_iff.mpr ?_⟩
        rintro between s before rfl
        have hst : s ≤ t := hlast (s, true) (List.mem_append_right _ List.mem_cons_self)
        have hcalls := length_le_callsIn hforward
        have hgrants : grants (between ++ [(s, true)]) ≤ between.length + 1 := by
          simpa [grants] using List.countP_le_length
        have hle : 1 + grants (between ++ [(s, true)])
            ≤ callsIn s t ((t, g) :: (between ++ (s, true) :: before)) := by omega
        refine le_trans ?_ (hconform s t hst)
        exact_mod_cast hle
      exact List.forall_mem_cons.mpr ⟨hnew, hold⟩

end Granted

/-- **Exactness of the token bucket.**  With a clock that does not go backwards, a call is
granted if and only if for every call granted before, the calls granted since that one
(included), plus one, stay within `B + r (t - s)`.  So no window of time is granted more,
and a client that asks for no more is never rejected. -/
theorem tryAcquire_exact {config : RateLimiterConfig K} {created : K}
    (hB : 1 ≤ config.burst_size) (hr : 0 ≤ config.requests_per_second)
    {log : List (K × Bool)} {l : RateLimiter K} (h : Serves (new config created) log l)
    (hforward : Forward created log) :
    (∀ later t granted earlier, log = later ++ (t, granted) :: earlier →
      (granted = true ↔ ∀ between s before, earlier = between ++ (s, true) :: before →
        ((grants (between ++ [(s, true)]) + 1 : ℕ) : K)
          ≤ config.burst + config.requests_per_second * (t - s))) ∧
    (∀ a b, a ≤ b →
      (grantsIn a b log : K) ≤ config.burst + config.requests_per_second * (b - a)) ∧
    ((∀ a b, a ≤ b →
      (callsIn a b log : K) ≤ config.burst + config.requests_per_second * (b - a)) →
      ∀ x ∈ log, x.2 = true) := by
  have hburst : (1 : K) ≤ config.burst := Nat.one_le_cast.mpr hB
  refine ⟨?_, fun a b hab ↦ h.grantsIn_le hr hforward hab, h.granted_of_conforming hburst hr
    hforward⟩
  rintro later t granted earlier rfl
  obtain ⟨l', h'⟩ := h.suffix
  rw [h'.granted_iff hr hforward.suffix, and_iff_right hburst, fits_takes_iff]
  have hcomm : ∀ n : ℕ, ((n + 1 : ℕ) : K) = 1 + n := fun n ↦ by push_cast; ring
  simp only [hcomm]

/-- A limiter of burst size 1 and rate 1, called at the times 0, 0 and 1: the second call would
have been one too many since the first one, the third is not. -/
theorem tryAcquire_exact_rat :
    let config : RateLimiterConfig ℚ := ⟨1, 1⟩
    ∃ l, Serves (new config 0) [(1, true), (0, false), (0, true)] l ∧
      (grantsIn 0 1 [((1 : ℚ), true), (0, false), (0, true)] : ℚ)
        ≤ config.burst + config.requests_per_second * (1 - 0) ∧
      (¬ ∀ between s before, [((0 : ℚ), true)] = between ++ (s, true) :: before →
        ((grants (between ++ [(s, true)]) + 1 : ℕ) : ℚ)
          ≤ config.burst + config.requests_per_second * (0 - s)) ∧
      ∀ between s before, [((0 : ℚ), false), (0, true)] = between ++ (s, true) :: before →
        ((grants (between ++ [(s, true)]) + 1 : ℕ) : ℚ)
          ≤ config.burst + config.requests_per_second * (1 - s) := by
  intro config
  have hlog : (serve (new config 0) [0, 0, 1]).1 = [(1, true), (0, false), (0, true)] := by
    decide +kernel
  have hserves := serves_serve (new config 0) [0, 0, 1]
  rw [hlog] at hserves
  have hforward : Forward (0 : ℚ) [(1, true), (0, false), (0, true)] := by
    unfold Forward
    decide +kernel
  have hexact := tryAcquire_exact (by decide) (by decide +kernel) hserves hforward
  have hrejected := hexact.1 [(1, true)] 0 false [(0, true)] rfl
  have hgranted := hexact.1 [] 1 true [(0, false), (0, true)] rfl
  exact ⟨_, hserves, hexact.2.1 0 1 (by decide +kernel),
    fun h ↦ Bool.false_ne_true (hrejected.mpr h), hgranted.mp rfl⟩

end RateLimiter

end CloudGateway
