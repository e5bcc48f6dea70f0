import Mathlib.Algebra.BigOperators.Group.List.Basic
import Mathlib.Algebra.Order.Group.Int
import Mathlib.Algebra.Ring.Nat
import Mathlib.Data.List.Dedup
import Mathlib.Data.List.DropRight
import Mathlib.Tactic.Common

/-!
# Python text

What a Python program uses of the standard library to take texts apart: the methods of `str`,
`int`, `repr` and `datetime.date.fromisoformat`.  A function that raises an exception returns
`none`.

What depends on the interpreter is a parameter, `Python`: its tables of characters, which agree
on ASCII, the number of digits `int` accepts, and the order in which it iterates over a set.
-/

/-- A Python interpreter. -/
structure Python where
  /-- The characters of `str.isdigit`. -/
  isDigit : Char → Bool
  /-- The value of a decimal character. -/
  decimal : Char → Option ℕ
  /-- The characters of `str.isprintable`. -/
  isPrintable : Char → Bool
  /-- `sys.get_int_max_str_digits()`, if there is a limit. -/
  maxStrDigits : Option ℕ
  /-- The order of iteration over a set that was built by adding the given elements. -/
  iterate : List String → List String
  isDigit_ascii : ∀ c : Char, c.toNat < 128 → isDigit c = c.isDigit
  decimal_ascii : ∀ c : Char, c.toNat < 128 →
    decimal c = if c.isDigit then some (c.toNat - '0'.toNat) else none
  isPrintable_ascii : ∀ c : Char, c.toNat < 128 → isPrintable c = (32 ≤ c.toNat ∧ c.toNat < 127)
  mem_iterate : ∀ xs x, x ∈ iterate xs ↔ x ∈ xs

namespace Python

/-- An interpreter that knows the characters of ASCII, with the default limit on digits. -/
def ascii : Python where
  isDigit := Char.isDigit
  decimal c := if c.isDigit then some (c.toNat - '0'.toNat) else none
  isPrintable c := 32 ≤ c.toNat ∧ c.toNat < 127
  maxStrDigits := some 4300
  iterate xs := xs.dedup
  isDigit_ascii _ _ := rfl
  decimal_ascii _ _ := rfl
  isPrintable_ascii _ _ := by simp
  mem_iterate _ _ := List.mem_dedup

/-! ## Loops -/

/-- A computation that fails on no element of a list. -/
theorem mapM_of_forall {α β : Type} {f : α → Option β} {g : α → β} {xs : List α}
    (h : ∀ x ∈ xs, f x = some (g x)) : xs.mapM f = some (xs.map g) := by
  induction xs with
  | nil => rfl
  | cons x xs ih =>
      rw [List.mapM_cons, h x List.mem_cons_self, ih fun y hy ↦ h y (List.mem_cons_of_mem x hy)]
      rfl

/-- A computation over a list that succeeds has succeeded on each element. -/
theorem exists_of_mapM {α β : Type} {f : α → Option β} {xs : List α} {ys : List β}
    (h : xs.mapM f = some ys) : ∀ x ∈ xs, ∃ y ∈ ys, f x = some y := by
  induction xs generalizing ys with
  | nil => exact List.forall_mem_nil _
  | cons x xs ih =>
      rw [List.mapM_cons] at h
      obtain ⟨y, hy, h⟩ := Option.bind_eq_some_iff.mp h
      obtain ⟨zs, hzs, h⟩ := Option.bind_eq_some_iff.mp h
      obtain rfl := Option.some.inj h
      rw [List.forall_mem_cons]
      refine ⟨⟨y, List.mem_cons_self, hy⟩, fun x' hx' ↦ ?_⟩
      obtain ⟨y', hy', hx'⟩ := ih hzs x' hx'
      exact ⟨y', List.mem_cons_of_mem y hy', hx'⟩

/-- A search that succeeds has found an element. -/
theorem exists_of_anyM {α : Type} {f : α → Option Bool} {xs : List α}
    (h : xs.anyM f = some true) : ∃ x ∈ xs, f x = some true := by
  induction xs with
  | nil => cases h
  | cons x xs ih =>
      rw [List.anyM] at h
      obtain ⟨b, hb, h⟩ := Option.bind_eq_some_iff.mp h
      cases b with
      | true => exact ⟨x, List.mem_cons_self, hb⟩
      | false =>
          obtain ⟨y, hy, hfy⟩ := ih h
          exact ⟨y, List.mem_cons_of_mem x hy, hfy⟩

/-! ## Strings -/

/-- `str.isspace` of a character. -/
def isSpace (c : Char) : Bool :=
  let n := c.toNat
  (9 ≤ n && n ≤ 13) || (28 ≤ n && n ≤ 32) || n == 0x85 || n == 0xA0 || n == 0x1680 ||
    (0x2000 ≤ n && n ≤ 0x200A) || n == 0x2028 || n == 0x2029 || n == 0x202F || n == 0x205F ||
    n == 0x3000

/-- `s.strip()`, on the characters. -/
def stripChars (cs : List Char) : List Char := (cs.dropWhile isSpace).rdropWhile isSpace

/-- `s.strip()`. -/
def strip (s : String) : String := String.ofList (stripChars s.toList)

/-- `s.split(sep)`. -/
def split (sep : Char) (s : String) : List String := (s.toList.splitOn sep).map String.ofList

/-- `s.partition(sep)`, without the separator itself. -/
def partition (sep : Char) (s : String) : String × String :=
  (String.ofList (s.toList.takeWhile (· != sep)),
    String.ofList ((s.toList.dropWhile (· != sep)).drop 1))

/-- `s.startswith(start)`. -/
def startswith (s start : String) : Bool := start.toList.isPrefixOf s.toList

/-- `s[n:]`. -/
def dropChars (n : ℕ) (s : String) : String := String.ofList (s.toList.drop n)

/-- `s.isdigit()`. -/
def isdigit (py : Python) (s : String) : Bool := !s.isEmpty && s.toList.all py.isDigit

/-! ### Strings made of parts -/

theorem isSpace_of_printable {c : Char} (h : 32 < c.toNat) (h' : c.toNat < 128) :
    isSpace c = false := by
  simp only [isSpace, Bool.or_eq_false_iff, Bool.and_eq_false_iff, decide_eq_false_iff_not,
    beq_eq_false_iff_ne]
  omega

/-- A text that begins and ends with characters that are no spaces, stripped of the spaces
around it. -/
theorem stripChars_pad {b d cs : List Char} (hb : ∀ c ∈ b, isSpace c = true)
    (hd : ∀ c ∈ d, isSpace c = true) (hhead : ∀ c ∈ cs.head?, isSpace c = false)
    (hlast : ∀ c ∈ cs.getLast?, isSpace c = false) (hne : cs ≠ []) :
    stripChars (b ++ cs ++ d) = cs := by
  have hfront : (b ++ cs ++ d).dropWhile isSpace = cs ++ d := by
    rw [List.append_assoc, List.dropWhile_append_of_pos hb]
    cases cs with
    | nil => exact absurd rfl hne
    | cons c cs =>
        refine List.dropWhile_cons_of_neg ?_
        rw [hhead c rfl]
        exact Bool.false_ne_true
  have hback : (cs ++ d).rdropWhile isSpace = cs.rdropWhile isSpace := by
    rw [List.rdropWhile, List.rdropWhile, List.reverse_append,
      List.dropWhile_append_of_pos fun c hc ↦ hd c (List.mem_reverse.mp hc)]
  rw [stripChars, hfront, hback, List.rdropWhile_eq_self_iff]
  intro _ h
  rw [hlast _ (List.getLast_mem_getLast? hne)] at h
  cases h

/-- A text without spaces stays as it is. -/
theorem stripChars_of_forall {cs : List Char} (h : ∀ c ∈ cs, isSpace c = false) :
    stripChars cs = cs := by
  by_cases hne : cs = []
  · rw [hne]
    rfl
  · have hpad := stripChars_pad (b := []) (d := []) (List.forall_mem_nil _)
      (List.forall_mem_nil _) (fun c hc ↦ h c (List.mem_of_mem_head? hc))
      (fun c hc ↦ h c (List.mem_of_mem_getLast? hc)) hne
    rwa [List.nil_append, List.append_nil] at hpad

theorem split_of_notMem {sep : Char} {s : String} (h : sep ∉ s.toList) : split sep s = [s] := by
  rw [split, List.splitOn_eq_singleton h, List.map_singleton, String.ofList_toList]

/-- The parts of a text up to the first separator and after it. -/
theorem split_append {sep : Char} {s t : String} (h : sep ∉ s.toList) :
    split sep (s ++ (sep.toString ++ t)) = s :: split sep t := by
  have hlist : (s ++ (sep.toString ++ t)).toList = s.toList ++ sep :: t.toList := by
    rw [String.toList_append, String.toList_append, Char.toString, String.toList_singleton]
    rfl
  rw [split, hlist, List.splitOn_append_cons_self_of_not_mem h, List.map_cons,
    String.ofList_toList, split]

/-- Texts joined by a separator that none of them holds are what the result is split into. -/
theorem split_intercalate {sep : Char} {ss : List String} (hne : ss ≠ [])
    (h : ∀ s ∈ ss, sep ∉ s.toList) : split sep (sep.toString.intercalate ss) = ss := by
  have hlist : (sep.toString.intercalate ss).toList.splitOn sep = ss.map String.toList := by
    rw [String.toList_intercalate, Char.toString, String.toList_singleton]
    refine List.splitOn_intercalate sep (fun l hl ↦ ?_) (mt List.map_eq_nil_iff.mp hne)
    obtain ⟨s, hs, rfl⟩ := List.mem_map.mp hl
    exact h s hs
  rw [split, hlist, List.map_map]
  have hid : String.ofList ∘ String.toList = id := funext fun _ ↦ String.ofList_toList
  rw [hid, List.map_id]

theorem partition_of_notMem {sep : Char} {s : String} (h : sep ∉ s.toList) :
    partition sep s = (s, "") := by
  have hall : ∀ c ∈ s.toList, (c != sep) = true := fun c hc ↦
    bne_iff_ne.mpr fun heq ↦ h (heq ▸ hc)
  rw [partition, List.takeWhile_eq_self_iff.mpr hall, List.dropWhile_eq_nil_iff.mpr hall,
    String.ofList_toList]
  rfl

theorem partition_append {sep : Char} {s t : String} (h : sep ∉ s.toList) :
    partition sep (s ++ (sep.toString ++ t)) = (s, t) := by
  have hall : ∀ c ∈ s.toList, (c != sep) = true := fun c hc ↦
    bne_iff_ne.mpr fun heq ↦ h (heq ▸ hc)
  have hlist : (s ++ (sep.toString ++ t)).toList = s.toList ++ sep :: t.toList := by
    rw [String.toList_append, String.toList_append, Char.toString, String.toList_singleton]
    rfl
  rw [partition, hlist, List.takeWhile_append_of_pos hall, List.dropWhile_append_of_pos hall,
    List.takeWhile_cons, List.dropWhile_cons, bne_self_eq_false]
  simp only [Bool.false_eq_true, if_false, List.append_nil, List.drop_one, List.tail_cons,
    String.ofList_toList]

/-! ## Numbers -/

/-- The number of some digits with single underscores between them. -/
def number (py : Python) (cs : List Char) : Option ℕ :=
  let groups := cs.splitOn '_'
  if groups.any List.isEmpty then none
  else (groups.flatten.mapM py.decimal).bind fun digits ↦
    if py.maxStrDigits.any (· < digits.length) then none
    else some (digits.foldl (fun n d ↦ 10 * n + d) 0)

/-- `int(s)`. -/
def int (py : Python) (s : String) : Option ℤ :=
  match stripChars s.toList with
  | '-' :: cs => (py.number cs).map fun n ↦ -(n : ℤ)
  | '+' :: cs => (py.number cs).map Int.ofNat
  | cs => (py.number cs).map Int.ofNat

/-- A number of so many digits is within the limit. -/
def Within (py : Python) (n : ℕ) : Prop :=
  ∀ m ∈ py.maxStrDigits, (Nat.toDigits 10 n).length ≤ m

/-- The code points of the digits. -/
theorem toNat_of_isDigit {c : Char} (h : c.isDigit = true) : 48 ≤ c.toNat ∧ c.toNat ≤ 57 :=
  Char.isDigit_iff_toNat.mp h

theorem isDigit_of_mem_toDigits {n : ℕ} {c : Char} (h : c ∈ Nat.toDigits 10 n) :
    c.isDigit = true := Nat.isDigit_of_mem_toDigits (by decide) (by decide) h

/-- A number from `10 ^ m` on has more than `m` digits. -/
theorem not_within {py : Python} {m n : ℕ} (hm : py.maxStrDigits = some m) (h0 : 0 < m)
    (h : 10 ^ m ≤ n) : ¬ py.Within n := by
  intro hwithin
  have hlt : n < 10 ^ m := (Nat.length_toDigits_le_iff (by decide) h0).mp (hwithin m hm)
  exact absurd h (not_le.mpr hlt)

theorem number_toDigits (py : Python) (n : ℕ) : py.number (Nat.toDigits 10 n) =
    if py.maxStrDigits.any (· < (Nat.toDigits 10 n).length) then none else some n := by
  have hdecimal : ∀ c ∈ Nat.toDigits 10 n, py.decimal c = some (c.toNat - '0'.toNat) := by
    intro c hc
    have hrange := toNat_of_isDigit (isDigit_of_mem_toDigits hc)
    rw [py.decimal_ascii c (by omega), if_pos (isDigit_of_mem_toDigits hc)]
  have hgroups : (Nat.toDigits 10 n).splitOn '_' = [Nat.toDigits 10 n] :=
    List.splitOn_eq_singleton Nat.underscore_not_in_toDigits
  have hnonempty : [Nat.toDigits 10 n].any List.isEmpty = false := by
    simp [Nat.toDigits_ne_nil]
  have hdigits : (Nat.toDigits 10 n).mapM py.decimal
      = some ((Nat.toDigits 10 n).map fun c ↦ c.toNat - '0'.toNat) := mapM_of_forall hdecimal
  have hvalue : (((Nat.toDigits 10 n).map fun c ↦ c.toNat - '0'.toNat).foldl
      (fun n d ↦ 10 * n + d) 0) = n := by
    rw [List.foldl_map, ← Nat.ofDigitChars_eq_foldl, Nat.ofDigitChars_ten_toDigits]
  rw [number, hgroups]
  simp only [hnonempty, Bool.false_eq_true, if_false, List.flatten_singleton, hdigits,
    Option.bind_some, List.length_map, hvalue]

theorem int_toString (py : Python) (n : ℕ) : py.int (toString n) =
    if py.maxStrDigits.any (· < (Nat.toDigits 10 n).length) then none else some (n : ℤ) := by
  have hstrip : stripChars (toString n).toList = Nat.toDigits 10 n := by
    rw [Nat.toString_eq_ofList_toDigits, String.toList_ofList]
    refine stripChars_of_forall fun c hc ↦ ?_
    have hrange := toNat_of_isDigit (isDigit_of_mem_toDigits hc)
    exact isSpace_of_printable (by omega) (by omega)
  have hint : py.int (toString n) = (py.number (Nat.toDigits 10 n)).map Int.ofNat := by
    rw [int, hstrip]
    cases hcs : Nat.toDigits 10 n with
    | nil => exact absurd hcs Nat.toDigits_ne_nil
    | cons c cs =>
        have hc : c.isDigit = true := 
          isDigit_of_mem_toDigits (n := n) (by rw [hcs]; exact List.mem_cons_self)
        split
        · next heq =>
            obtain ⟨rfl, -⟩ := List.cons.inj heq
            cases hc
        · next heq =>
            obtain ⟨rfl, -⟩ := List.cons.inj heq
            cases hc
        · rfl
  rw [hint, number_toDigits]
  split <;> rfl

/-- A number within the limit is read back. -/
theorem int_toString_of_within {py : Python} {n : ℕ} (h : py.Within n) :
    py.int (toString n) = some (n : ℤ) := by
  rw [int_toString, if_neg]
  intro hany
  obtain ⟨m, hm, hlt⟩ := (Option.any_eq_true _ _).mp hany
  exact absurd (of_decide_eq_true hlt) (not_lt.mpr (h m hm))

theorem isdigit_toString (py : Python) (n : ℕ) : py.isdigit (toString n) = true := by
  have hlist : (toString n).toList = Nat.toDigits 10 n := by
    rw [Nat.toString_eq_ofList_toDigits, String.toList_ofList]
  have hne : (toString n).isEmpty = false := by
    rw [String.isEmpty_eq_false_iff]
    intro h
    rw [h] at hlist
    exact Nat.toDigits_ne_nil hlist.symm
  rw [isdigit, hne, hlist]
  simp only [Bool.not_false, Bool.true_and, List.all_eq_true]
  intro c hc
  have hdigit := isDigit_of_mem_toDigits hc
  have hrange := toNat_of_isDigit hdigit
  rw [py.isDigit_ascii c (by omega), hdigit]

theorem isdigit_of_mem {py : Python} {s : String} {c : Char} (hc : c ∈ s.toList)
    (hascii : c.toNat < 128) (hdigit : c.isDigit = false) : py.isdigit s = false := by
  have hnot : s.toList.all py.isDigit = false := by
    rw [List.all_eq_false]
    refine ⟨c, hc, ?_⟩
    rw [py.isDigit_ascii c hascii, hdigit]
    exact Bool.false_ne_true
  rw [isdigit, hnot, Bool.and_false]

/-! ## `repr` -/

/-- At least `width` hexadecimal digits. -/
def hex (width n : ℕ) : String := String.ofList ((Nat.toDigits 16 n).leftpad width '0')

/-- A character in `repr` of a string with the given quotes. -/
def reprChar (py : Python) (quote c : Char) : String :=
  if c = quote ∨ c = '\\' then "\\" ++ c.toString
  else if c = '\t' then "\\t"
  else if c = '\n' then "\\n"
  else if c = '\r' then "\\r"
  else if py.isPrintable c then c.toString
  else if c.toNat < 0x100 then "\\x" ++ hex 2 c.toNat
  else if c.toNat < 0x10000 then "\\u" ++ hex 4 c.toNat
  else "\\U" ++ hex 8 c.toNat

/-- `repr(s)`. -/
def repr (py : Python) (s : String) : String :=
  let quote := if '\'' ∈ s.toList ∧ '"' ∉ s.toList then '"' else '\''
  quote.toString ++ String.join (s.toList.map (py.reprChar quote)) ++ quote.toString

/-- `repr` of a list of strings. -/
def reprList (py : Python) (ss : List String) : String :=
  "[" ++ ", ".intercalate (ss.map py.repr) ++ "]"

/-! ## Dates -/

/-- A date, as the number of its day; day 1 is January 1 of year 1. -/
abbrev Date := ℕ

/-- Years with a February 29. -/
def isLeap (year : ℕ) : Bool := year % 4 = 0 ∧ (year % 100 ≠ 0 ∨ year % 400 = 0)

/-- The days of a month. -/
def daysInMonth (year month : ℕ) : ℕ :=
  if month = 2 then if isLeap year then 29 else 28
  else if month ∈ [4, 6, 9, 11] then 30
  else 31

/-- The days of the years before a year. -/
def daysBeforeYear (year : ℕ) : ℕ :=
  (year - 1) * 365 + (year - 1) / 4 - (year - 1) / 100 + (year - 1) / 400

/-- The last date, December 31 of year 9999. -/
def maxDate : Date := daysBeforeYear 10000

/-- `datetime.date(year, month, day)`. -/
def date (year month day : ℕ) : Option Date :=
  if 1 ≤ year ∧ year ≤ 9999 ∧ 1 ≤ month ∧ month ≤ 12 ∧ 1 ≤ day ∧ day ≤ daysInMonth year month
  then some (daysBeforeYear year + ((List.range' 1 (month - 1)).map (daysInMonth year)).sum + day)
  else none

/-- The Monday of week 1 of a year, the week of its first Thursday. -/
def isoWeek1Monday (year : ℕ) : ℕ :=
  let first := daysBeforeYear year + 1
  let weekday := (first + 6) % 7
  if weekday > 3 then first + 7 - weekday else first - weekday

/-- The date of a day of an ISO week.  A year that begins on a Thursday, or on a Wednesday if it
is a leap year, has 53 weeks. -/
def isoDate (year week day : ℕ) : Option Date :=
  let first := (daysBeforeYear year + 1) % 7
  let weeks := if first = 4 ∨ first = 3 ∧ isLeap year then 53 else 52
  if 1 ≤ year ∧ year ≤ 9999 ∧ 1 ≤ week ∧ week ≤ weeks ∧ 1 ≤ day ∧ day ≤ 7 then
    some (isoWeek1Monday year + (week - 1) * 7 + (day - 1)) |>.filter (· ≤ maxDate)
  else none

/-- Exactly `n` ASCII digits. -/
def digits (n : ℕ) (cs : List Char) : Option ℕ :=
  if cs.length = n ∧ cs.all Char.isDigit then some (Nat.ofDigitChars 10 cs 0) else none

/-- What follows the separator, which stands between the parts of a date either always or
never. -/
def afterSep (hasSep : Bool) : List Char → Option (List Char)
  | '-' :: cs => if hasSep then some cs else none
  | cs => if hasSep then none else some cs

/-- `datetime.date.fromisoformat(s)`: `YYYY-MM-DD`, `YYYY-Www` or `YYYY-Www-D`, with or without
the separators. -/
def fromisoformat (s : String) : Option Date := do
  let cs := s.toList
  let year ← digits 4 (cs.take 4)
  let hasSep := cs[4]? == some '-'
  match ← afterSep hasSep (cs.drop 4) with
  | 'W' :: cs =>
      let week ← digits 2 (cs.take 2)
      if cs.length = 2 then isoDate year week 1
      else
        let day ← digits 1 (← afterSep hasSep (cs.drop 2))
        isoDate year week day
  | cs =>
      let month ← digits 2 (cs.take 2)
      let day ← digits 2 (← afterSep hasSep (cs.drop 2))
      date year month day

end Python
