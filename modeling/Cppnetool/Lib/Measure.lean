import Mathlib.Algebra.Ring.Nat
import Cppnetool.Lib.Runs
/-!
# What steps cost

A measure of the states bounds how many steps of some kind a run takes: each
such step costs some of it, and few others add to it (`Steps.cost_le`). Where
every step is paid for exactly, so is the run (`Steps.cost_eq`).
-/

namespace Lib

variable {S A : Type}

/-- The cost of a run, step by step. -/
def total (cost : S → A → Nat) (tr : List (S × A)) : Nat := (tr.map fun p => cost p.1 p.2).sum

variable {M : Machine S A} {tr : List (S × A)} {s u : S} {a : A} {cost gain : S → A → Nat}

@[simp] theorem total_nil : total cost [] = 0 := rfl

@[simp] theorem total_cons : total cost ((s, a) :: tr) = cost s a + total cost tr := by
  simp [total]

@[simp] theorem total_zero (tr : List (S × A)) : total (fun _ _ => 0) tr = 0 := by
  induction tr with
  | nil => rfl
  | cons p tr ih => rw [total_cons, ih]

/-- Steps of one kind that cost the same. -/
theorem total_if (P : S → A → Bool) (n : Nat) (tr : List (S × A)) :
    total (fun s a => if P s a then n else 0) tr = n * tr.countP fun p => P p.1 p.2 := by
  induction tr with
  | nil => rfl
  | cons p tr ih =>
    rw [total_cons, ih, List.countP_cons]
    split <;> grind

/-- A run costs what the measure loses, and what is added to it. -/
theorem Steps.cost_le (I : S → Prop) (G : S → A → Prop) (left : S → Nat)
    (hs : ∀ s a s', I s → M.enabled s a → G s a → M.exec s a = some s' →
      I s' ∧ cost s a + left s' ≤ left s + gain s a)
    (h : Steps M s tr u) (hG : Meets G tr) (hi : I s) : total cost tr + left u ≤ left s + total gain tr := by
  induction h with
  | nil => simp
  | cons he hx _ ih =>
    obtain ⟨hi', hle⟩ := hs _ _ _ hi he (hG _ List.mem_cons_self) hx
    have := ih (fun p hp => hG p (List.mem_cons_of_mem _ hp)) hi'
    rw [total_cons, total_cons]
    omega

theorem Steps.cost_eq (I : S → Prop) (left : S → Nat)
    (hs : ∀ s a s', I s → M.enabled s a → M.exec s a = some s' → I s' ∧ cost s a + left s' = left s + gain s a)
    (h : Steps M s tr u) (hi : I s) : total cost tr + left u = left s + total gain tr := by
  induction h with
  | nil => simp
  | cons he hx _ ih =>
    obtain ⟨hi', heq⟩ := hs _ _ _ hi he hx
    have := ih hi'
    rw [total_cons, total_cons]
    omega

end Lib
