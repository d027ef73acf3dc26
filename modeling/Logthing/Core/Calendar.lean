import Mathlib.Data.Int.Notation
import Mathlib.Data.Nat.Notation
import Mathlib.Tactic.SplitIfs

/-!
# The proleptic Gregorian calendar

The date of a day counted from 1 January of year 1, and zero-padded decimal formatting.
-/

namespace Calendar

/-- A date: year, month from 1, day of the month from 1. -/
structure Date where
  year : ℤ
  month : ℕ
  day : ℕ
  deriving DecidableEq, Repr

def isLeap (year : ℤ) : Bool := year % 4 = 0 && (year % 100 ≠ 0 || year % 400 = 0)

def monthLengths (year : ℤ) : List ℕ :=
  [31, if isLeap year then 29 else 28, 31, 30, 31, 30, 31, 31, 30, 31, 30, 31]

/-- Month and day of the month of a day of the year, counted from 0. -/
def monthDay : List ℕ → ℕ → ℕ → ℕ × ℕ
  | [], month, yday => (month, yday + 1)
  | len :: rest, month, yday =>
      if yday < len then (month, yday + 1) else monthDay rest (month + 1) (yday - len)

/-- The date of the day `days` days after 1 January of year 1.  Cycles of 400, 100, 4 and 1 years;
the last year of a 100- and of a 4-year cycle may be one day longer, hence the `min`s. -/
def date (days : ℤ) : Date :=
  let n400 := days / 146097
  let d := (days % 146097).toNat
  let n100 := min 3 (d / 36524)
  let d := d - n100 * 36524
  let n4 := d / 1461
  let d := d - n4 * 1461
  let n1 := min 3 (d / 365)
  let d := d - n1 * 365
  let year : ℤ := n400 * 400 + n100 * 100 + n4 * 4 + n1 + 1
  let (month, day) := monthDay (monthLengths year) 1 d
  ⟨year, month, day⟩

example : date 739876 = ⟨2026, 9, 18⟩ := by decide

/-- `s` with zeros in front up to `width`. -/
def zeroPad (width : ℕ) (s : List Char) : List Char :=
  List.replicate (width - s.length) '0' ++ s

/-- A decimal integer in at least `width` characters, the sign included, padded with zeros. -/
def formatPadded (width : ℕ) (n : ℤ) : List Char :=
  if n < 0 then '-' :: zeroPad (width - 1) (toString n.natAbs).toList
  else zeroPad width (toString n.natAbs).toList

example : formatPadded 4 33 = "0033".toList := by decide
example : formatPadded 4 (-5) = "-005".toList := by decide

/-- A decimal number with leading zeros: its sign, if it is negative, and digits. -/
def IsDecimal (s : List Char) : Prop :=
  ∃ digits, (s = digits ∨ s = '-' :: digits) ∧ digits ≠ [] ∧ ∀ c ∈ digits, c.isDigit = true

lemma zeroPad_digits (width n : ℕ) : zeroPad width (toString n).toList ≠ [] ∧
    ∀ c ∈ zeroPad width (toString n).toList, c.isDigit = true := by
  have hdigits : (toString n).toList = Nat.toDigits 10 n := Nat.toList_repr
  rw [zeroPad, hdigits]
  refine ⟨by simp [Nat.toDigits_ne_nil], fun c hc => ?_⟩
  rcases List.mem_append.mp hc with hzero | hdigit
  · rw [List.eq_of_mem_replicate hzero]
    decide
  · exact Nat.isDigit_of_mem_toDigits (by decide) (by decide) hdigit

lemma isDecimal_formatPadded (width : ℕ) (n : ℤ) : IsDecimal (formatPadded width n) := by
  rw [formatPadded]
  split_ifs with hneg
  · exact ⟨_, Or.inr rfl, zeroPad_digits _ _⟩
  · exact ⟨_, Or.inl rfl, zeroPad_digits _ _⟩

/-! ## RFC 3339 -/

/-- A decimal integer whose digits are padded with zeros up to `width`, after its sign. -/
def appendInt (width : ℕ) (n : ℤ) : List Char :=
  (if n < 0 then ['-'] else []) ++ zeroPad width (toString n.natAbs).toList

/-- The UTC time `t` nanoseconds after 1 January of year 1, to the second. -/
def rfc3339 (t : ℤ) : List Char :=
  let second := t / 1000000000
  let utc := date (second / 86400)
  let clock := second % 86400
  appendInt 4 utc.year ++ '-' :: appendInt 2 utc.month ++ '-' :: appendInt 2 utc.day ++
    'T' :: appendInt 2 (clock / 3600) ++ ':' :: appendInt 2 (clock / 60 % 60) ++
      ':' :: appendInt 2 (clock % 60) ++ ['Z']

example : rfc3339 (739876 * 86400000000000 + 45296000000000) = "2026-09-18T12:34:56Z".toList := by
  decide

lemma mem_appendInt {width : ℕ} {n : ℤ} {c : Char} (h : c ∈ appendInt width n) :
    c.isDigit = true ∨ c = '-' := by
  rcases List.mem_append.mp h with hsign | hdigit
  · split_ifs at hsign
    · exact Or.inr (List.mem_singleton.mp hsign)
    · exact absurd hsign List.not_mem_nil
  · exact Or.inl ((zeroPad_digits _ _).2 c hdigit)

/-- The characters of a timestamp. -/
lemma mem_rfc3339 {t : ℤ} {c : Char} (h : c ∈ rfc3339 t) :
    c.isDigit = true ∨ c ∈ ['-', 'T', ':', 'Z'] := by
  have hnumber : ∀ {width n}, c ∈ appendInt width n →
      c.isDigit = true ∨ c ∈ ['-', 'T', ':', 'Z'] := fun hmem =>
    (mem_appendInt hmem).imp_right fun hc => by simp [hc]
  simp only [rfc3339, List.append_assoc, List.cons_append, List.mem_append, List.mem_cons,
    List.not_mem_nil, or_false] at h
  rcases h with h | rfl | h | rfl | h | rfl | h | rfl | h | rfl | h | rfl
  all_goals first
    | exact hnumber h
    | exact Or.inr (by decide)

end Calendar
