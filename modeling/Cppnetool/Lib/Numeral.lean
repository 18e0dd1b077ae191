import Mathlib.Data.Nat.Digits.Lemmas
/-!
# Numerals

The digits of a number in base `b`, most significant first, as they are
written: at least one, and no zero in front of another digit. `revNumeral` has
them in the order in which division by `b` yields them.
-/

namespace Lib

variable {b n k : Nat}

/-- The digits that a loop over `n % b` and `n / b` yields, if it runs at least once. -/
def revNumeral (b n : Nat) : List Nat := if n = 0 then [0] else Nat.digits b n

def numeral (b n : Nat) : List Nat := (revNumeral b n).reverse

/-- What digits stand for, read from the left. -/
def numeralValue (b : Nat) (ds : List Nat) : Nat := ds.foldl (fun v d => v * b + d) 0

theorem revNumeral_step (hb : 1 < b) (n : Nat) :
    revNumeral b n = n % b :: if n / b = 0 then [] else revNumeral b (n / b) := by
  unfold revNumeral
  split
  · rename_i h
    simp [h]
  · rename_i h
    rw [Nat.digits_def' hb (Nat.pos_of_ne_zero h)]
    split
    · rename_i h'
      simp [h']
    · rfl

theorem revNumeral_ne_nil (b n : Nat) : revNumeral b n ≠ [] := by
  unfold revNumeral
  split
  · simp
  · rename_i h
    exact Nat.digits_ne_nil_iff_ne_zero.2 h

theorem numeral_ne_nil (b n : Nat) : numeral b n ≠ [] :=
  fun h => revNumeral_ne_nil b n (List.reverse_eq_nil_iff.1 h)

@[simp] theorem length_numeral (b n : Nat) : (numeral b n).length = (revNumeral b n).length := List.length_reverse

theorem revNumeral_lt (hb : 1 < b) {d : Nat} (h : d ∈ revNumeral b n) : d < b := by
  unfold revNumeral at h
  split at h
  · rw [List.mem_singleton.1 h]
    omega
  · exact Nat.digits_lt_base hb h

theorem numeral_lt (hb : 1 < b) {d : Nat} (h : d ∈ numeral b n) : d < b :=
  revNumeral_lt hb (List.mem_reverse.1 h)

/-- At most `k` digits are those of a number below `b ^ k`. -/
theorem length_revNumeral_le_iff (hb : 1 < b) (hk : 0 < k) : (revNumeral b n).length ≤ k ↔ n < b ^ k := by
  unfold revNumeral
  split
  · rename_i h
    rw [h]
    exact iff_of_true hk (Nat.pow_pos (by omega))
  · exact Nat.digits_length_le_iff hb n

theorem numeralValue_reverse (b : Nat) (ds : List Nat) : numeralValue b ds.reverse = Nat.ofDigits b ds := by
  rw [numeralValue, List.foldl_reverse, Nat.ofDigits_eq_foldr]
  congr 1
  funext d v
  simp only [Nat.cast_id]
  ring

/-- Reading the digits back gives the number. -/
theorem numeralValue_numeral (b n : Nat) : numeralValue b (numeral b n) = n := by
  rw [numeral, numeralValue_reverse, revNumeral]
  split
  · rename_i h
    simp [h]
  · exact Nat.ofDigits_digits b n

/-- A zero in front stands alone. -/
theorem numeral_of_head?_zero (h : (numeral b n).head? = some 0) : numeral b n = [0] := by
  unfold numeral revNumeral at *
  split at h
  · rename_i hn
    rw [if_pos hn]
    rfl
  · rename_i hn
    rw [List.head?_reverse, List.getLast?_eq_some_getLast (Nat.digits_ne_nil_iff_ne_zero.2 hn)] at h
    exact absurd (Option.some.inj h) (Nat.getLast_digit_ne_zero b hn)

end Lib
