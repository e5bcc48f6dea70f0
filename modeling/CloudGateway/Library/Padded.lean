import Mathlib.Data.Char
import Mathlib.Data.List.Lex
import Mathlib.Tactic.IntervalCases

/-!
# Numbers of a fixed width

Decimal texts do not order as the numbers they are of, unless they are filled with zeros to
one width: `zeroPad_lt_of_lt`.  What follows a field of fixed width only decides between texts
with the same field (`List.append_lt_append_of_lt`).
-/

namespace List

variable {α : Type*} [LT α]

/-- Texts that differ before they end order so whatever follows. -/
theorem append_lt_append_of_lt {xs ys : List α} (h : xs < ys) (hlength : xs.length = ys.length)
    (as bs : List α) : xs ++ as < ys ++ bs := by
  induction h with
  | nil => cases hlength
  | cons _ ih => exact .cons (ih (Nat.succ.inj hlength))
  | rel h => exact .rel h

theorem append_lt_append_left {as bs : List α} (h : as < bs) (xs : List α) :
    xs ++ as < xs ++ bs := Lex.append_left _ h xs

end List

/-- The decimal text of `n`, filled with zeros to the width `w`. -/
def zeroPad (w n : ℕ) : List Char := (Nat.toDigits 10 n).leftpad w '0'

theorem isDigit_of_mem_zeroPad {w n : ℕ} {c : Char} (h : c ∈ zeroPad w n) :
    c.isDigit = true := by
  rcases List.mem_append.mp h with h | h
  · rw [List.eq_of_mem_replicate h]
    rfl
  · exact Nat.isDigit_of_mem_toDigits (by decide) (by decide) h

theorem head?_zeroPad (w n : ℕ) : ∃ c, c.isDigit = true ∧ (zeroPad w n).head? = some c := by
  have hne : zeroPad w n ≠ [] := fun h ↦ Nat.toDigits_ne_nil (List.append_eq_nil_iff.mp h).2
  exact ⟨_, isDigit_of_mem_zeroPad (List.head_mem hne), List.head?_eq_some_head hne⟩

theorem length_zeroPad {w n : ℕ} (hw : 0 < w) (hn : n < 10 ^ w) : (zeroPad w n).length = w := by
  rw [zeroPad, List.length_leftpad]
  exact max_eq_left ((Nat.length_toDigits_le_iff (by decide) hw).mpr hn)

/-- The last digit stands for itself. -/
theorem zeroPad_succ {w : ℕ} (hw : 0 < w) (n : ℕ) :
    zeroPad (w + 1) n = zeroPad w (n / 10) ++ [(n % 10).digitChar] := by
  rw [zeroPad, zeroPad, List.leftpad, List.leftpad]
  rcases Nat.lt_or_ge n 10 with hn | hn
  · have hfill : w - 1 + 1 = w := Nat.sub_add_cancel hw
    rw [Nat.toDigits_of_lt_base hn, Nat.div_eq_of_lt hn, Nat.toDigits_zero, Nat.mod_eq_of_lt hn]
    rw [List.length_singleton, List.length_singleton, Nat.add_sub_cancel, ← List.replicate_succ',
      hfill]
  · rw [Nat.toDigits_of_base_le (by decide) hn, List.length_append, List.length_singleton,
      Nat.add_sub_add_right, List.append_assoc]

theorem digitChar_lt {c d : ℕ} (hd : d < 10) (h : c < d) : c.digitChar < d.digitChar := by
  interval_cases d <;> interval_cases c <;> decide

/-- **Fixed width.**  Of two numbers of one width, the smaller has the smaller text. -/
theorem zeroPad_lt_of_lt {w m n : ℕ} (hw : 0 < w) (hn : n < 10 ^ w) (h : m < n) :
    zeroPad w m < zeroPad w n := by
  induction w, hw using Nat.le_induction generalizing m n with
  | base =>
      have hone : ∀ k < 10, zeroPad 1 k = [k.digitChar] := fun k hk ↦ by
        rw [zeroPad, Nat.toDigits_of_lt_base hk]
        rfl
      rw [hone m (h.trans hn), hone n hn]
      exact .rel (digitChar_lt hn h)
  | succ w hw ih =>
      have htens : n / 10 < 10 ^ w := Nat.div_lt_of_lt_mul (by rwa [← Nat.pow_succ'])
      rw [zeroPad_succ hw, zeroPad_succ hw]
      rcases Nat.lt_or_eq_of_le (Nat.div_le_div_right (c := 10) h.le) with hlt | heq
      · refine List.append_lt_append_of_lt (ih htens hlt) ?_ _ _
        rw [length_zeroPad hw htens, length_zeroPad hw (hlt.trans htens)]
      · rw [heq]
        refine List.append_lt_append_left (.rel (digitChar_lt (Nat.mod_lt _ (by decide)) ?_)) _
        omega
