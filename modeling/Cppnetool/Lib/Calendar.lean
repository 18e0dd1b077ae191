import Mathlib.Data.List.Basic
/-!
# The calendar

The date of a day of the Gregorian calendar, extended to all years, where days
are counted from the first of January 1970. `locate` finds the year among the
years, and then the month among the months, as the one in a row of spans of
given lengths in which the day lies.
-/

namespace Lib

/-! ## A row of spans -/

section Spans
variable {len : Nat → Nat} {n i d k j : Nat}

/-- The span of the row `i`, `i + 1`, … in which `d` lies, and the place in it;
there are `n` spans. -/
def locate (len : Nat → Nat) : Nat → Nat → Nat → Nat × Nat
  | 0, i, d => (i, d)
  | n + 1, i, d => if d < len i then (i, d) else locate len n (i + 1) (d - len i)

/-- The length of `k` spans from `i` on. -/
def spans (len : Nat → Nat) (i : Nat) : Nat → Nat
  | 0 => 0
  | k + 1 => len i + spans len (i + 1) k

theorem spans_add : spans len i (k + j) = spans len i k + spans len (i + k) j := by
  induction k generalizing i with
  | zero => simp [spans]
  | succ k ih =>
    rw [Nat.succ_add, spans, spans, ih, Nat.add_assoc (len i)]
    simp only [Nat.add_assoc, Nat.add_comm 1 k]

theorem spans_mono (len : Nat → Nat) (i : Nat) (h : k ≤ j) : spans len i k ≤ spans len i j := by
  obtain ⟨m, rfl⟩ := Nat.exists_eq_add_of_le h
  rw [spans_add]
  omega

theorem locate_spec (h : d < spans len i n) :
    ∃ k < n, ∃ r < len (i + k), locate len n i d = (i + k, r) ∧ d = spans len i k + r := by
  induction n generalizing i d with
  | zero => simp [spans] at h
  | succ n ih =>
    rw [locate]
    split
    · rename_i hd
      exact ⟨0, by omega, d, hd, rfl, by simp [spans]⟩
    · rw [spans] at h
      obtain ⟨k, hk, r, hr, he, hd⟩ := ih (show d - len i < spans len (i + 1) n by omega)
      refine ⟨k + 1, by omega, r, ?_, ?_, ?_⟩
      · rwa [Nat.add_comm k 1, ← Nat.add_assoc]
      · rw [he, Nat.add_comm k 1, Nat.add_assoc]
      · rw [spans]
        omega

/-- A place lies in an earlier span than another exactly if it comes before that. -/
theorem lt_spans_iff {r : Nat} (hr : r < len (i + k)) : spans len i k + r < spans len i j ↔ k < j := by
  constructor
  · intro h
    by_contra hj
    have := spans_mono len i (Nat.le_of_not_lt hj)
    omega
  · intro h
    have h1 := spans_mono len i (Nat.succ_le_of_lt h)
    rw [Nat.succ_eq_add_one, spans_add] at h1
    simp only [spans, Nat.add_zero] at h1
    omega

/-- Places compare by their spans, and in one span by the places in it. -/
theorem spans_add_lt_iff {r s : Nat} (hr : r < len (i + k)) (hs : s < len (i + j)) :
    spans len i k + r < spans len i j + s ↔ k < j ∨ k = j ∧ r < s := by
  have hkj := lt_spans_iff hr (j := j)
  have hjk := lt_spans_iff hs (j := k)
  rcases Nat.lt_trichotomy k j with h | rfl | h
  · have := hkj.2 h
    omega
  · omega
  · have := hjk.2 h
    omega

end Spans

/-! ## Years and months -/

def leap (y : Nat) : Bool := y % 4 = 0 && (y % 100 ≠ 0 || y % 400 = 0)

def yearLength (y : Nat) : Nat := if leap y then 366 else 365

/-- January is month 0. -/
def monthLength (y m : Nat) : Nat :=
  if m = 1 then if leap y then 29 else 28 else if m = 3 ∨ m = 5 ∨ m = 8 ∨ m = 10 then 30 else 31

/-- Months and days are counted from 0. -/
structure Date where
  year : Int
  month : Nat
  day : Nat
deriving DecidableEq

/-- After 400 years, which have 146097 days, the calendar repeats. -/
def date (days : Int) : Date :=
  let (year, d) := locate yearLength 400 1970 (days % 146097).toNat
  let (month, day) := locate (monthLength year) 12 0 d
  ⟨year + 400 * (days / 146097), month, day⟩

theorem spans_years : spans yearLength 1970 400 = 146097 := by decide +kernel

theorem spans_months (y : Nat) : spans (monthLength y) 0 12 = yearLength y := by
  cases h : leap y <;> simp [spans, monthLength, yearLength, h]

theorem monthLength_le (y m : Nat) : monthLength y m ≤ 31 := by
  unfold monthLength
  split
  · split <;> decide
  · split <;> decide

/-- The days of the years and of the months that are over, and the day in its month, are all the days. -/
theorem date_spec (days : Int) : ∃ k < 400, ∃ m < 12, ∃ d < monthLength (1970 + k) m,
    date days = ⟨(1970 + k : Nat) + 400 * (days / 146097), m, d⟩ ∧
    days = 146097 * (days / 146097) +
      (spans yearLength 1970 k + (spans (monthLength (1970 + k)) 0 m + d) : Nat) ∧
    spans (monthLength (1970 + k)) 0 m + d < yearLength (1970 + k) := by
  have hd : (days % 146097).toNat < spans yearLength 1970 400 := by
    rw [spans_years]
    omega
  obtain ⟨k, hk, r, hr, hy, hrest⟩ := locate_spec hd
  obtain ⟨m, hm, d, hd', hmon, hr'⟩ := locate_spec ((spans_months (1970 + k)).symm ▸ hr)
  rw [Nat.zero_add] at hd' hmon
  refine ⟨k, hk, m, hm, d, hd', ?_, ?_, hr' ▸ hr⟩
  · simp only [date, hy, hmon]
  · rw [← hr', ← hrest]
    omega

theorem date_month (days : Int) : (date days).month < 12 := by
  obtain ⟨k, -, m, hm, d, -, he, -⟩ := date_spec days
  rw [he]
  exact hm

theorem date_day (days : Int) : (date days).day < 31 := by
  obtain ⟨k, -, m, -, d, hd, he, -⟩ := date_spec days
  rw [he]
  exact Nat.lt_of_lt_of_le hd (monthLength_le _ _)

/-- The first day of a year: its place among the 400 years is `j`. -/
theorem date_year_lt (days e : Int) {j : Nat} (hj : j ≤ 400) :
    (date days).year < 1970 + 400 * e + j ↔ days < 146097 * e + spans yearLength 1970 j := by
  obtain ⟨k, hk, m, -, d, -, he, hd, hr⟩ := date_spec days
  generalize spans (monthLength (1970 + k)) 0 m + d = r at hd hr
  have hlt : spans yearLength 1970 k + r < spans yearLength 1970 j ↔ k < j := lt_spans_iff hr
  have h400 := (lt_spans_iff hr (j := 400)).2 hk
  rw [spans_years] at h400
  have hle := spans_mono yearLength 1970 hj
  rw [spans_years] at hle
  rw [he]
  dsimp only
  generalize days / 146097 = era at hd ⊢
  omega

/-- Days compare as their dates do. -/
theorem date_lt_iff (days days' : Int) : days < days' ↔
    (date days).year < (date days').year ∨ (date days).year = (date days').year ∧
      ((date days).month < (date days').month ∨ (date days).month = (date days').month ∧
        (date days).day < (date days').day) := by
  obtain ⟨k, hk, m, -, d, hd, he, hdays, hr⟩ := date_spec days
  obtain ⟨k', hk', m', -, d', hd', he', hdays', hr'⟩ := date_spec days'
  have h400 := (lt_spans_iff hr (j := 400)).2 hk
  have h400' := (lt_spans_iff hr' (j := 400)).2 hk'
  rw [spans_years] at h400 h400'
  have hyear := spans_add_lt_iff hr hr'
  have hmonth : k = k' → (spans (monthLength (1970 + k)) 0 m + d < spans (monthLength (1970 + k')) 0 m' + d' ↔
      m < m' ∨ m = m' ∧ d < d') := by
    rintro rfl
    exact spans_add_lt_iff (by rwa [Nat.zero_add]) (by rwa [Nat.zero_add])
  rw [he, he']
  dsimp only
  generalize spans (monthLength (1970 + k)) 0 m + d = r at *
  generalize spans (monthLength (1970 + k')) 0 m' + d' = r' at *
  generalize days / 146097 = era at *
  generalize days' / 146097 = era' at *
  omega

end Lib
