import Mathlib.Data.String.Basic
import Cppnetool.Lib.Map
import Cppnetool.Lib.Runs
/-!
# Iterators

`std::map` as it is iterated: in the order of the keys. An iterator is named
by the key of its element, and `end()` is `none`. It is valid as long as the
element is in the map, so `it++` has no result where it has been erased.
-/

namespace Lib.Map

variable {κ α : Type} [LinearOrder κ] {m : Map κ α} {it : Option κ} {j k k' : κ}

/-- `begin()`. -/
def first (m : Map κ α) : Option κ := m.keys.min?

/-- The element after `k`, by its key. -/
def succ (m : Map κ α) (k : κ) : Option κ := (m.keys.filter (k < ·)).min?

/-- The iterator has gone past `k`. -/
def Passed (it : Option κ) (k : κ) : Prop := ∀ j ∈ it, k < j

theorem first_mem (h : m.first = some k) : k ∈ m.keys := (List.min?_eq_some_iff.1 h).1

theorem succ_mem (h : m.succ k = some k') : k' ∈ m.keys ∧ k < k' := by
  have := (List.min?_eq_some_iff.1 h).1
  simpa using this

theorem not_passed_first (h : k ∈ m.keys) : ¬ Passed m.first k := by
  intro hp
  rcases he : m.first with _ | j
  · rw [List.min?_eq_none_iff.1 he] at h
    cases h
  · exact absurd (hp j he) (not_lt.2 ((List.min?_eq_some_iff.1 he).2 k h))

theorem passed_succ (h : j ∈ m.keys) : Passed (m.succ k) j ↔ j ≤ k := by
  constructor
  · intro hp
    by_contra hlt
    have hj : j ∈ m.keys.filter (k < ·) := by simpa [h] using hlt
    rcases he : m.succ k with _ | i
    · rw [List.min?_eq_none_iff.1 he] at hj
      cases hj
    · exact absurd (hp i he) (not_lt.2 ((List.min?_eq_some_iff.1 he).2 j hj))
  · intro hle i hi
    exact lt_of_le_of_lt hle (succ_mem hi).2

/-- There are fewer elements after the next one. -/
theorem after_lt (h : m.succ k = some k') : (m.keys.filter (k' < ·)).length < (m.keys.filter (k < ·)).length := by
  obtain ⟨hm, hlt⟩ := succ_mem h
  have hsub : m.keys.filter (k' < ·) = (m.keys.filter (k < ·)).filter (k' < ·) := by
    rw [List.filter_filter]
    refine List.filter_congr fun j _ => ?_
    by_cases hj : k' < j
    · simp [hj, hlt.trans hj]
    · simp [hj]
  rw [hsub]
  refine List.length_filter_lt_length_iff_exists.2 ⟨k', ?_, ?_⟩
  · simp [hm, hlt]
  · simp

/-- Induction along the iteration of a map that does not change. -/
theorem iterate (P : Option κ → Prop) (hend : P none) (hnext : ∀ k ∈ m.keys, P (m.succ k) → P (some k)) : P m.first := by
  have main : ∀ n k, k ∈ m.keys → (m.keys.filter (k < ·)).length < n → P (some k) := by
    intro n
    induction n with
    | zero => intro k _ hn; omega
    | succ n ih =>
      intro k hk hn
      refine hnext k hk ?_
      rcases he : m.succ k with _ | k'
      · exact hend
      · have := after_lt he
        exact ih k' (succ_mem he).1 (by omega)
  rcases he : m.first with _ | k
  · exact hend
  · exact main _ k (first_mem he) (Nat.lt_succ_self _)

/-! ## `it++` -/

variable [DecidableEq κ]

def next (m : Map κ α) (k : κ) : Option (Option κ) := do
  assert (k ∈ m.keys)
  return m.succ k

theorem next_eq (h : k ∈ m.keys) : m.next k = some (m.succ k) := assert_bind h

/-- The element of the iterator has been erased. -/
theorem next_erase : next (m.erase k) k = none := by
  have h : k ∉ (m.erase k).keys := by
    rw [AList.keys_erase]
    exact m.keys_nodup.not_mem_erase
  rw [next, assert, if_neg h]
  rfl

end Lib.Map
