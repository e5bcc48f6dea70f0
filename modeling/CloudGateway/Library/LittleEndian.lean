import Mathlib.Data.Nat.Digits.Defs

/-!
# Little-endian fields of byte strings

The two operations a packed binary format is read with: taking a range of a
byte string, which is a fault when the range does not fit, and reading a
fixed-width field of it as a number, least significant byte first.

`toLe` and `ofLe` are inverse to each other on the numbers a field of the given
width can hold (`ofLe_toLe`) and on all byte strings (`toLe_ofLe`).
-/

universe u

/-- A byte string. -/
abbrev Bytes := List UInt8

namespace LittleEndian

/-! ## Ranges -/

/-- The range `xs[lo..hi]`; `none` when the range is out of bounds, where an
indexing operation faults. -/
def slice {α : Type u} (xs : List α) (lo hi : ℕ) : Option (List α) :=
  if lo ≤ hi ∧ hi ≤ xs.length then some ((xs.drop lo).take (hi - lo)) else none

@[simp] theorem slice_of_le {α : Type u} {xs : List α} {lo hi : ℕ} (h : lo ≤ hi)
    (hlen : hi ≤ xs.length) : slice xs lo hi = some ((xs.drop lo).take (hi - lo)) :=
  if_pos ⟨h, hlen⟩

/-- A range that runs to the end of the string is a suffix of it. -/
theorem slice_to_end {α : Type u} {xs : List α} {lo : ℕ} (h : lo ≤ xs.length) :
    slice xs lo xs.length = some (xs.drop lo) := by
  rw [slice_of_le h le_rfl, List.take_of_length_le (by simp)]

/-- A range that is in bounds has the length it names. -/
theorem length_range {α : Type u} {xs : List α} {lo hi : ℕ} (hlen : hi ≤ xs.length) :
    ((xs.drop lo).take (hi - lo)).length = hi - lo := by
  simp only [List.length_take, List.length_drop]
  omega

/-- The range of the first part of a string. -/
theorem slice_append_left {α : Type u} {xs : List α} {n : ℕ} (h : xs.length = n)
    (ys : List α) : slice (xs ++ ys) 0 n = some xs := by
  subst h
  rw [slice_of_le (Nat.zero_le _) (by simp)]
  simp

/-- A range of the rest of a string. -/
theorem slice_append_right {α : Type u} {xs : List α} {n : ℕ} (h : xs.length = n)
    (ys : List α) (lo hi : ℕ) : slice (xs ++ ys) (n + lo) (n + hi) = slice ys lo hi := by
  subst h
  rw [slice, slice, List.drop_length_add_append, List.length_append, Nat.add_sub_add_left]
  simp only [Nat.add_le_add_iff_left]

/-! ## Fields -/

/-- The number a field holds, least significant byte first. -/
def ofLe (bs : Bytes) : ℕ := Nat.ofDigits 256 (bs.map UInt8.toNat)

/-- The `w` bytes of a number, least significant byte first. -/
def toLe : ℕ → ℕ → Bytes
  | 0, _ => []
  | w + 1, n => UInt8.ofNat n :: toLe w (n / 256)

@[simp] theorem ofLe_cons (b : UInt8) (bs : Bytes) :
    ofLe (b :: bs) = b.toNat + 256 * ofLe bs := by
  simp [ofLe, Nat.ofDigits_cons]

@[simp] theorem length_toLe (w n : ℕ) : (toLe w n).length = w := by
  induction w generalizing n with
  | zero => rfl
  | succ w ih => simp [toLe, ih]

/-- A field of `w` bytes holds a number below `256 ^ w`. -/
theorem ofLe_lt (bs : Bytes) : ofLe bs < 256 ^ bs.length := by
  have h := Nat.ofDigits_lt_base_pow_length (b := 256) (l := bs.map UInt8.toNat)
    (by norm_num) (by simpa using fun b _ ↦ b.toNat_lt)
  simpa [ofLe] using h

/-- Reading back a number that fits its field. -/
theorem ofLe_toLe {w n : ℕ} (h : n < 256 ^ w) : ofLe (toLe w n) = n := by
  induction w generalizing n with
  | zero =>
      have : n = 0 := by simpa using h
      rw [this]; rfl
  | succ w ih =>
      have hdiv : n / 256 < 256 ^ w := by
        rw [pow_succ] at h
        exact Nat.div_lt_of_lt_mul (by rw [mul_comm]; exact h)
      rw [toLe, ofLe_cons, ih hdiv, UInt8.toNat_ofNat']
      exact Nat.mod_add_div n 256

/-- Every byte string is the encoding of the number it holds. -/
theorem toLe_ofLe (bs : Bytes) : toLe bs.length (ofLe bs) = bs := by
  induction bs with
  | nil => rfl
  | cons b bs ih =>
      have hb : b.toNat < 256 := b.toNat_lt
      have hdiv : ofLe (b :: bs) / 256 = ofLe bs := by rw [ofLe_cons]; omega
      have hbyte : UInt8.ofNat (ofLe (b :: bs)) = b := by
        apply UInt8.toNat_inj.mp
        rw [UInt8.toNat_ofNat', ofLe_cons]
        omega
      rw [List.length_cons, toLe, hdiv, hbyte, ih]

/-! ## The field widths of the machine integers -/

/-- `u64::from_le_bytes` on a byte string; `none` when it is not eight bytes long. -/
def u64FromLe (bs : Bytes) : Option UInt64 :=
  if bs.length = 8 then some (UInt64.ofNat (ofLe bs)) else none

/-- `u32::from_le_bytes` on a byte string; `none` when it is not four bytes long. -/
def u32FromLe (bs : Bytes) : Option UInt32 :=
  if bs.length = 4 then some (UInt32.ofNat (ofLe bs)) else none

/-- `u16::from_le_bytes` on a byte string; `none` when it is not two bytes long. -/
def u16FromLe (bs : Bytes) : Option UInt16 :=
  if bs.length = 2 then some (UInt16.ofNat (ofLe bs)) else none

/-- `u64::to_le_bytes`. -/
def u64ToLe (x : UInt64) : Bytes := toLe 8 x.toNat

/-- `u32::to_le_bytes`. -/
def u32ToLe (x : UInt32) : Bytes := toLe 4 x.toNat

/-- `u16::to_le_bytes`. -/
def u16ToLe (x : UInt16) : Bytes := toLe 2 x.toNat

@[simp] theorem u64FromLe_of_length {bs : Bytes} (h : bs.length = 8) :
    u64FromLe bs = some (UInt64.ofNat (ofLe bs)) := if_pos h

@[simp] theorem u32FromLe_of_length {bs : Bytes} (h : bs.length = 4) :
    u32FromLe bs = some (UInt32.ofNat (ofLe bs)) := if_pos h

@[simp] theorem length_u64ToLe (x : UInt64) : (u64ToLe x).length = 8 := length_toLe 8 _

@[simp] theorem length_u32ToLe (x : UInt32) : (u32ToLe x).length = 4 := length_toLe 4 _

@[simp] theorem length_u16ToLe (x : UInt16) : (u16ToLe x).length = 2 := length_toLe 2 _

@[simp] theorem ofLe_u64ToLe (x : UInt64) : ofLe (u64ToLe x) = x.toNat :=
  ofLe_toLe (lt_of_lt_of_eq x.toNat_lt (by norm_num))

@[simp] theorem ofLe_u32ToLe (x : UInt32) : ofLe (u32ToLe x) = x.toNat :=
  ofLe_toLe (lt_of_lt_of_eq x.toNat_lt (by norm_num))

@[simp] theorem ofLe_u16ToLe (x : UInt16) : ofLe (u16ToLe x) = x.toNat :=
  ofLe_toLe (lt_of_lt_of_eq x.toNat_lt (by norm_num))

/-! A field is read back as the number that was written. -/

@[simp] theorem u64FromLe_u64ToLe (x : UInt64) : u64FromLe (u64ToLe x) = some x := by
  rw [u64FromLe_of_length (length_u64ToLe x), ofLe_u64ToLe, UInt64.ofNat_toNat]

@[simp] theorem u32FromLe_u32ToLe (x : UInt32) : u32FromLe (u32ToLe x) = some x := by
  rw [u32FromLe_of_length (length_u32ToLe x), ofLe_u32ToLe, UInt32.ofNat_toNat]

@[simp] theorem u16FromLe_u16ToLe (x : UInt16) : u16FromLe (u16ToLe x) = some x := by
  rw [u16FromLe, if_pos (length_u16ToLe x), ofLe_u16ToLe, UInt16.ofNat_toNat]

/-! A field is the encoding of the number that it is read as. -/

theorem u64ToLe_ofLe {bs : Bytes} (h : bs.length = 8) :
    u64ToLe (UInt64.ofNat (ofLe bs)) = bs := by
  have hlt := ofLe_lt bs
  rw [h] at hlt
  rw [u64ToLe, UInt64.toNat_ofNat_of_lt' (lt_of_lt_of_eq hlt (by norm_num)), ← h, toLe_ofLe]

theorem u32ToLe_ofLe {bs : Bytes} (h : bs.length = 4) :
    u32ToLe (UInt32.ofNat (ofLe bs)) = bs := by
  have hlt := ofLe_lt bs
  rw [h] at hlt
  rw [u32ToLe, UInt32.toNat_ofNat_of_lt' (lt_of_lt_of_eq hlt (by norm_num)), ← h, toLe_ofLe]

theorem u16ToLe_ofLe {bs : Bytes} (h : bs.length = 2) :
    u16ToLe (UInt16.ofNat (ofLe bs)) = bs := by
  have hlt := ofLe_lt bs
  rw [h] at hlt
  rw [u16ToLe, UInt16.toNat_ofNat_of_lt' (lt_of_lt_of_eq hlt (by norm_num)), ← h, toLe_ofLe]

end LittleEndian
