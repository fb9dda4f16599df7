import Mathlib.Data.Nat.Log
import Mathlib.Algebra.Group.Nat.Basic

/-!
# Days and their text forms

A `tracker.Job` carries its day as a `time.Time` at midnight UTC.  The queryer writes that day
in two layouts of `Time.Format`: `"2006-01-02"` inside the SQL it renders and `"20060102"` in
the partition decorators it hands to the client library (`Date.format`).  The warehouse reads a
decorator back into a day (`Date.parseDecorator`); `parseDecorator_format` says that the two
agree on every day with a four-digit year.
-/

namespace EtlGardener

/-- The number of days of month `m` in year `y`. -/
def daysIn (y m : Nat) : Nat :=
  if m = 2 then (if y % 4 = 0 ∧ (y % 100 ≠ 0 ∨ y % 400 = 0) then 29 else 28)
  else if m = 4 ∨ m = 6 ∨ m = 9 ∨ m = 11 then 30 else 31

theorem daysIn_le (y m : Nat) : daysIn y m ≤ 31 := by
  unfold daysIn; split_ifs <;> omega

/-- A calendar day, as `time.Time` normalises one. -/
structure Date where
  year : Nat
  month : Nat
  day : Nat
  month_pos : 0 < month
  month_le : month ≤ 12
  day_pos : 0 < day
  day_le : day ≤ daysIn year month
deriving DecidableEq

/-- The day `y-m-d`, when it is one. -/
def Date.ofYMD (y m d : Nat) : Option Date :=
  if h : 0 < m ∧ m ≤ 12 ∧ 0 < d ∧ d ≤ daysIn y m then
    some ⟨y, m, d, h.1, h.2.1, h.2.2.1, h.2.2.2⟩
  else none

theorem Date.ofYMD_self (d : Date) : Date.ofYMD d.year d.month d.day = some d := by
  simp [Date.ofYMD, d.month_pos, d.month_le, d.day_pos, d.day_le]

/-! ## Decimal digits -/

/-- The decimal digit of `n % 10`. -/
def digitChar (n : Nat) : Char := Char.ofNat (48 + n % 10)

/-- The last `w` decimal digits of `n`, most significant first. -/
def digits : Nat → Nat → List Char
  | 0, _ => []
  | w + 1, n => digits w (n / 10) ++ [digitChar n]

/-- Go's `appendInt(b, n, w)`: `n` in decimal, zero-padded to at least `w` digits, with the
switch that writes two- and four-digit fields directly. -/
def appendInt (w n : Nat) : List Char :=
  if w = 2 ∧ n < 100 ∨ w = 4 ∧ n < 10000 then digits w n
  else digits (max w (Nat.log 10 n + 1)) n

/-- The value of a decimal digit. -/
def digitValue (c : Char) : Option Nat := if c.isDigit then some (c.toNat - 48) else none

/-- The number a string of decimal digits spells, read left to right. -/
def decimalValue (cs : List Char) : Option Nat :=
  cs.foldl (fun acc c => acc.bind fun a => (digitValue c).map (10 * a + ·)) (some 0)

theorem length_digits (w n : Nat) : (digits w n).length = w := by
  induction w generalizing n with
  | zero => rfl
  | succ w ih => simp [digits, ih]

theorem digitValue_digitChar (n : Nat) : digitValue (digitChar n) = some (n % 10) := by
  have key : ∀ k < 10, digitValue (Char.ofNat (48 + k)) = some k := by decide
  exact key _ (Nat.mod_lt _ (by omega))

theorem decimalValue_append_digitChar (cs : List Char) (n : Nat) :
    decimalValue (cs ++ [digitChar n]) = (decimalValue cs).map (10 * · + n % 10) := by
  simp only [decimalValue, List.foldl_append, List.foldl_cons, List.foldl_nil,
    digitValue_digitChar]
  cases cs.foldl _ (some 0) <;> rfl

theorem decimalValue_digits (w n : Nat) : decimalValue (digits w n) = some (n % 10 ^ w) := by
  induction w generalizing n with
  | zero => simp [digits, decimalValue, Nat.mod_one]
  | succ w ih =>
    rw [digits, decimalValue_append_digitChar, ih, Option.map_some', Nat.pow_succ', Nat.mod_mul]
    congr 1
    omega

theorem max_log_of_lt {w n : Nat} (hw : 0 < w) (h : n < 10 ^ w) :
    max w (Nat.log 10 n + 1) = w := by
  rcases Nat.eq_zero_or_pos n with rfl | hn
  · simp [Nat.max_eq_left hw]
  · have := Nat.log_lt_of_lt_pow (by omega) h
    omega

/-- The direct writing of two- and four-digit fields agrees with the general one. -/
theorem appendInt_eq_digits (w n : Nat) :
    appendInt w n = digits (max w (Nat.log 10 n + 1)) n := by
  unfold appendInt
  split_ifs with h
  · rcases h with ⟨rfl, h⟩ | ⟨rfl, h⟩
    · rw [max_log_of_lt (by decide) (show n < 10 ^ 2 from h)]
    · rw [max_log_of_lt (by decide) (show n < 10 ^ 4 from h)]
  · rfl

theorem appendInt_of_lt {w n : Nat} (hw : 0 < w) (h : n < 10 ^ w) :
    appendInt w n = digits w n := by
  rw [appendInt_eq_digits, max_log_of_lt hw h]

/-! ## Layouts -/

/-- `d.Format(layout)` for the layouts `"2006" ++ sep ++ "01" ++ sep ++ "02"`: the queryer uses
`sep = "-"` in SQL and `sep = ""` in partition decorators. -/
def Date.format (d : Date) (sep : String) : String :=
  String.mk (appendInt 4 d.year ++ sep.toList ++ appendInt 2 d.month ++ sep.toList ++
    appendInt 2 d.day)

theorem Date.format_toList (d : Date) (sep : String) :
    (d.format sep).toList = appendInt 4 d.year ++ sep.toList ++ appendInt 2 d.month ++
      sep.toList ++ appendInt 2 d.day := rfl

/-- The day a partition decorator `YYYYMMDD` names, when it names one. -/
def Date.parseDecorator (s : String) : Option Date :=
  let cs := s.toList
  if cs.length = 8 then
    match decimalValue (cs.take 4), decimalValue ((cs.drop 4).take 2), decimalValue (cs.drop 6)
    with
    | some y, some m, some d => Date.ofYMD y m d
    | _, _, _ => none
  else none

theorem Date.month_lt (d : Date) : d.month < 10 ^ 2 := Nat.lt_of_le_of_lt d.month_le (by decide)

theorem Date.day_lt (d : Date) : d.day < 10 ^ 2 :=
  Nat.lt_of_le_of_lt (d.day_le.trans (daysIn_le _ _)) (by decide)

theorem Date.format_empty_toList (d : Date) (hy : d.year < 10000) :
    (d.format "").toList = digits 4 d.year ++ digits 2 d.month ++ digits 2 d.day := by
  rw [Date.format_toList, appendInt_of_lt (by decide : 0 < 2) d.month_lt,
    appendInt_of_lt (by decide : 0 < 2) d.day_lt,
    appendInt_of_lt (by decide : 0 < 4) (show d.year < 10 ^ 4 from hy)]
  rfl

/-- Reading back the decorator of a day with a four-digit year gives the day. -/
theorem Date.parseDecorator_format (d : Date) (hy : d.year < 10000) :
    Date.parseDecorator (d.format "") = some d := by
  have l4 := length_digits 4 d.year
  have l2 := length_digits 2 d.month
  simp only [Date.parseDecorator, Date.format_empty_toList d hy, List.length_append,
    length_digits, List.append_assoc, List.take_left' l4, List.drop_left' l4,
    List.take_left' l2, decimalValue_digits, Nat.mod_eq_of_lt d.month_lt,
    Nat.mod_eq_of_lt (show d.year < 10 ^ 4 from hy)]
  rw [show List.drop 6 (digits 4 d.year ++ (digits 2 d.month ++ digits 2 d.day)) =
    digits 2 d.day by rw [← List.append_assoc]; exact List.drop_left' (by simp [length_digits])]
  simp only [decimalValue_digits, Nat.mod_eq_of_lt d.day_lt]
  exact Date.ofYMD_self d

/-- Past year 9999 the decorator has more than eight digits and names no day. -/
theorem Date.parseDecorator_format_of_le (d : Date) (hy : 10000 ≤ d.year) :
    Date.parseDecorator (d.format "") = none := by
  have hlog : 4 ≤ Nat.log 10 d.year :=
    Nat.le_log_of_pow_le (by decide) (by simp only [Nat.reducePow]; omega)
  have hlen : (d.format "").toList.length ≠ 8 := by
    simp only [Date.format_toList, List.length_append, appendInt_eq_digits, length_digits,
      show "".toList.length = 0 from rfl]
    omega
  dsimp only [Date.parseDecorator]
  rw [if_neg hlen]

/-- A decorator the queryer builds names no day but its own: past year 9999 it names none. -/
theorem Date.parseDecorator_format_eq {d d' : Date}
    (h : Date.parseDecorator (d.format "") = some d') : d' = d := by
  by_cases hy : d.year < 10000
  · rw [Date.parseDecorator_format d hy] at h
    exact (Option.some.inj h).symm
  · rw [Date.parseDecorator_format_of_le d (by omega)] at h
    cases h

end EtlGardener
