import Mathlib.Algebra.Order.Ring.Defs
import Mathlib.Data.List.Sort
import Mathlib.Tactic.Linarith
import Mathlib.Tactic.Ring

/-!
# Token buckets

A token bucket holds at most `B` tokens, gains `r` of them per unit of time, and is
asked for one at a time.  Its level is one number, cut off at `B` whenever time passes;
what the level stands for is a statement about all windows of its history.

* `Fits B r gs t x` — `x` more tokens at time `t` fit behind the takes at the times
  `gs`, newest first: since each earlier take `s`, no more than `B + r (t - s)` tokens
  are taken in all.
* `Meters B r gs t level` — the level is the largest number of tokens, up to `B`, that
  fit.

A level that meters keeps doing so when time passes forward (`Meters.refill`) and when a
token is taken (`Meters.take`), which is all a bucket does.

A bucket takes a token whenever one fits (`Greedy`).  Asked at the same times, no other way
to take the tokens that fit (`Allowed`) takes more (`Greedy.le`): a token that is left takes
no more room later than it would have taken now.
-/

universe u

namespace TokenBucket

variable {K : Type u} [CommRing K] [LinearOrder K] [IsStrictOrderedRing K]
  {B r t t' x level : K} {gs : List K}

/-- Behind the takes at the times `gs`, newest first, `x` more tokens at time `t` fit. -/
def Fits (B r : K) : List K → K → K → Prop
  | [], _, _ => True
  | s :: gs, t, x => x + 1 ≤ B + r * (t - s) ∧ Fits B r gs t (x + 1)

/-- Tokens fit when, for each earlier take, the takes since then and the new ones stay
within the bound. -/
theorem fits_iff : Fits B r gs t x ↔ ∀ newer s older, gs = newer ++ s :: older →
    x + (newer.length + 1 : ℕ) ≤ B + r * (t - s) := by
  induction gs generalizing x with
  | nil =>
      refine ⟨fun _ newer s older h ↦ ?_, fun _ ↦ trivial⟩
      exact absurd h.symm (List.append_ne_nil_of_right_ne_nil _ (List.cons_ne_nil _ _))
  | cons s gs ih =>
      constructor
      · rintro ⟨hs, hgs⟩ newer s' older h
        cases newer with
        | nil =>
            obtain ⟨rfl, rfl⟩ := List.cons.inj h
            simpa using hs
        | cons s'' newer =>
            obtain ⟨rfl, rfl⟩ := List.cons.inj h
            have hle := ih.mp hgs newer s' older rfl
            simp only [List.length_cons]
            push_cast at hle ⊢
            linarith
      · intro h
        refine ⟨?_, ih.mpr ?_⟩
        · simpa using h [] s gs rfl
        · rintro newer s' older rfl
          have hle := h (s :: newer) s' older rfl
          simp only [List.length_cons] at hle
          push_cast at hle ⊢
          linarith

/-- What fits at one time fits at another with the gain between them. -/
theorem fits_shift : Fits B r gs t' (x + r * (t' - t)) ↔ Fits B r gs t x := by
  induction gs generalizing x with
  | nil => exact Iff.rfl
  | cons s gs ih =>
      have hone : x + r * (t' - t) + 1 ≤ B + r * (t' - s) ↔ x + 1 ≤ B + r * (t - s) := by
        constructor <;> intro h <;> linarith [mul_sub r t' t, mul_sub r t' s, mul_sub r t s]
      have hnext : x + r * (t' - t) + 1 = x + 1 + r * (t' - t) := by ring
      rw [Fits, Fits, hone, hnext, ih]

/-- **Window bound.**  The takes of a window that ends at `t` fit into it. -/
theorem Fits.count_le (hr : 0 ≤ r) {a : K} {p : K → Bool} (hp : ∀ s, p s = true → a ≤ s)
    (h : Fits B r gs t x) :
    gs.countP p = 0 ∨ x + (gs.countP p : ℕ) ≤ B + r * (t - a) := by
  induction gs generalizing x with
  | nil => exact Or.inl rfl
  | cons s gs ih =>
      obtain ⟨hs, hgs⟩ := h
      rw [List.countP_cons]
      cases hps : p s with
      | false =>
          rcases ih hgs with hzero | hle
          · exact Or.inl (by simpa using hzero)
          · refine Or.inr ?_
            simp only [Bool.false_eq_true, if_false, add_zero]
            linarith
      | true =>
          refine Or.inr ?_
          have hsa : r * (t - s) ≤ r * (t - a) :=
            mul_le_mul_of_nonneg_left (sub_le_sub_left (hp s hps) t) hr
          simp only [if_true]
          push_cast
          rcases ih hgs with hzero | hle
          · rw [hzero]
            push_cast
            linarith
          · linarith

/-! ## Levels -/

/-- The level is the largest number of tokens, up to `B`, that fit. -/
def Meters (B r : K) (gs : List K) (t level : K) : Prop :=
  ∀ x, x ≤ level ↔ x ≤ B ∧ Fits B r gs t x

omit [IsStrictOrderedRing K] in
/-- A bucket nothing was taken from is full. -/
theorem Meters.full (B r t : K) : Meters B r [] t B := fun _ ↦ (and_iff_left trivial).symm

/-- Time passes: the bucket gains tokens, up to its size. -/
theorem Meters.refill (h : Meters B r gs t level) (hr : 0 ≤ r) (ht : t ≤ t') :
    Meters B r gs t' (min (level + (t' - t) * r) B) := by
  intro x
  have hgain : 0 ≤ r * (t' - t) := mul_nonneg hr (sub_nonneg.mpr ht)
  have hshift : Fits B r gs t' (x - r * (t' - t) + r * (t' - t)) ↔
      Fits B r gs t (x - r * (t' - t)) := fits_shift
  rw [sub_add_cancel] at hshift
  rw [le_min_iff, mul_comm, ← sub_le_iff_le_add, h, ← hshift]
  constructor
  · rintro ⟨⟨-, hfits⟩, hB⟩
    exact ⟨hB, hfits⟩
  · rintro ⟨hB, hfits⟩
    exact ⟨⟨by linarith, hfits⟩, hB⟩

/-- A token is taken. -/
theorem Meters.take (h : Meters B r gs t level) : Meters B r (t :: gs) t (level - 1) := by
  intro x
  rw [le_sub_iff_add_le, h, Fits, sub_self, mul_zero, add_zero]
  constructor
  · rintro ⟨hB, hfits⟩
    exact ⟨by linarith, hB, hfits⟩
  · rintro ⟨-, hB, hfits⟩
    exact ⟨hB, hfits⟩

/-! ## Decisions

A log is a list of requests for one token, newest first, each with its time and whether the
token is taken. -/

/-- The times of the takes of a log. -/
def taken (log : List (K × Bool)) : List K := (log.filter Prod.snd).map Prod.fst

/-- No token is taken that does not fit. -/
def Allowed (B r : K) : List (K × Bool) → Prop
  | [] => True
  | (t, take) :: log => (take = true → 1 ≤ B ∧ Fits B r (taken log) t 1) ∧ Allowed B r log

/-- Every token is taken that fits, and no other. -/
def Greedy (B r : K) : List (K × Bool) → Prop
  | [] => True
  | (t, take) :: log => (take = true ↔ 1 ≤ B ∧ Fits B r (taken log) t 1) ∧ Greedy B r log

variable {log choice : List (K × Bool)}

/-- The takes of two logs at the time `t`: the second has taken no more, and what it has kept
beyond the first is covered by what it has taken less. -/
def Ahead (B r t : K) (log choice : List (K × Bool)) : Prop :=
  ∃ level kept, Meters B r (taken log) t level ∧ Meters B r (taken choice) t kept ∧
    choice.countP Prod.snd ≤ log.countP Prod.snd ∧
    kept + (choice.countP Prod.snd : ℕ) ≤ level + (log.countP Prod.snd : ℕ)

omit [IsStrictOrderedRing K] in
theorem Ahead.start (B r t : K) : Ahead B r t [] [] :=
  ⟨B, B, .full B r t, .full B r t, le_rfl, le_rfl⟩

/-- Time passes: what is cut off is cut off from both. -/
theorem Ahead.refill (h : Ahead B r t log choice) (hr : 0 ≤ r) (ht : t ≤ t') :
    Ahead B r t' log choice := by
  obtain ⟨level, kept, hlevel, hkept, hcount, hle⟩ := h
  refine ⟨_, _, hlevel.refill hr ht, hkept.refill hr ht, hcount, ?_⟩
  have hcount' : ((choice.countP Prod.snd : ℕ) : K) ≤ (log.countP Prod.snd : ℕ) :=
    Nat.cast_le.mpr hcount
  rcases le_total (level + (t' - t) * r) B with hroom | hcut
  · rw [min_eq_left hroom]
    have hgain := min_le_left (kept + (t' - t) * r) B
    linarith
  · rw [min_eq_right hcut]
    have hfull := min_le_right (kept + (t' - t) * r) B
    linarith

/-- One more decision on each side. -/
theorem Ahead.request (h : Ahead B r t log choice) {take take' : Bool}
    (htake : take = true ↔ 1 ≤ B ∧ Fits B r (taken log) t 1)
    (htake' : take' = true → 1 ≤ B ∧ Fits B r (taken choice) t 1) :
    Ahead B r t ((t, take) :: log) ((t, take') :: choice) := by
  obtain ⟨level, kept, hlevel, hkept, hcount, hle⟩ := h
  rw [← hlevel] at htake
  rw [← hkept] at htake'
  cases take with
  | true =>
      cases take' with
      | true =>
          refine ⟨_, _, hlevel.take, hkept.take, by simpa using hcount, ?_⟩
          simp only [List.countP_cons_of_pos]
          push_cast
          linarith
      | false =>
          refine ⟨_, _, hlevel.take, hkept, by simpa using Nat.le_succ_of_le hcount, ?_⟩
          simp only [List.countP_cons, Bool.false_eq_true, if_true, if_false, add_zero]
          push_cast
          linarith
  | false =>
      have hshort : level < 1 := not_le.mp fun h ↦ Bool.false_ne_true (htake.mpr h)
      cases take' with
      | true =>
          -- the choice has kept a token for now, which the bucket has taken before
          have hstrict : choice.countP Prod.snd < log.countP Prod.snd := by
            have hone := htake' rfl
            have hlt : ((choice.countP Prod.snd : ℕ) : K) < (log.countP Prod.snd : ℕ) := by
              linarith
            exact Nat.cast_lt.mp hlt
          refine ⟨_, _, hlevel, hkept.take, by simpa using Nat.succ_le_of_lt hstrict, ?_⟩
          simp only [List.countP_cons, Bool.false_eq_true, if_true, if_false, add_zero]
          push_cast
          linarith
      | false => exact ⟨_, _, hlevel, hkept, by simpa using hcount, by simpa using hle⟩

/-- The bucket stays ahead of every other way to take the tokens that fit. -/
theorem Greedy.ahead (hr : 0 ≤ r) (h : Greedy B r log) (hchoice : Allowed B r choice)
    (htimes : choice.map Prod.fst = log.map Prod.fst)
    (hforward : (log.map Prod.fst).Pairwise (· ≥ ·)) (ht : ∀ s ∈ log.map Prod.fst, s ≤ t) :
    Ahead B r t log choice := by
  induction log generalizing choice t with
  | nil =>
      obtain rfl := List.map_eq_nil_iff.mp htimes
      exact .start B r t
  | cons x log ih =>
      obtain ⟨y, choice, rfl, hxy, htimes'⟩ := List.map_eq_cons_iff.mp htimes
      obtain ⟨s, take⟩ := x
      obtain ⟨s', take'⟩ := y
      obtain rfl : s' = s := hxy
      obtain ⟨hbefore, hforward'⟩ := List.pairwise_cons.mp hforward
      have hahead : Ahead B r s' log choice := ih h.2 hchoice.2 htimes' hforward' hbefore
      exact (hahead.request h.1 hchoice.1).refill hr (ht s' List.mem_cons_self)

/-- **The greedy bucket is the best.**  Asked at the same times, a bucket takes at least as
many tokens as any other way to take the tokens that fit. -/
theorem Greedy.le (hr : 0 ≤ r) (h : Greedy B r log) (hchoice : Allowed B r choice)
    (htimes : choice.map Prod.fst = log.map Prod.fst)
    (hforward : (log.map Prod.fst).Pairwise (· ≥ ·)) :
    choice.countP Prod.snd ≤ log.countP Prod.snd := by
  cases log with
  | nil =>
      obtain rfl := List.map_eq_nil_iff.mp htimes
      exact le_rfl
  | cons x log =>
      have hbefore : ∀ s ∈ (x :: log).map Prod.fst, s ≤ x.1 :=
        List.forall_mem_cons.mpr ⟨le_rfl, (List.pairwise_cons.mp hforward).1⟩
      obtain ⟨-, -, -, -, hcount, -⟩ := h.ahead hr hchoice htimes hforward hbefore
      exact hcount

end TokenBucket
