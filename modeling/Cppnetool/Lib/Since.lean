import Mathlib.Data.List.Induction
/-!
# What has happened since

Counting the events of one kind since the last one of another, over a list of
events in the order in which they happened. An event that is of both kinds
starts the count and is the first of it.
-/

namespace Lib

variable {α : Type} (hit reset : α → Prop)

/-- A hit, and no reset since. -/
def Open (l : List α) : Prop := ∃ pre x post, l = pre ++ x :: post ∧ hit x ∧ ∀ y ∈ post, ¬ reset y

/-- An element of a list that is one longer: it is the last, or there before. -/
theorem exists_split_snoc {P : α → List α → Prop} {l : List α} {z : α} :
    (∃ pre x post, l ++ [z] = pre ++ x :: post ∧ P x post) ↔
      P z [] ∨ ∃ pre x post, l = pre ++ x :: post ∧ P x (post ++ [z]) := by
  constructor
  · rintro ⟨pre, x, post, he, hp⟩
    rcases List.eq_nil_or_concat post with rfl | ⟨post, y, rfl⟩
    · obtain ⟨-, hz⟩ := List.append_inj' he rfl
      cases hz
      exact .inl hp
    · rw [List.concat_eq_append] at he hp
      rw [← List.cons_append, ← List.append_assoc] at he
      obtain ⟨rfl, hz⟩ := List.append_inj' he rfl
      cases hz
      exact .inr ⟨pre, x, post, rfl, hp⟩
  · rintro (hp | ⟨pre, x, post, rfl, hp⟩)
    · exact ⟨l, z, [], rfl, hp⟩
    · exact ⟨pre, x, post ++ [z], by simp, hp⟩

theorem open_snoc (l : List α) (z : α) :
    Open hit reset (l ++ [z]) ↔ hit z ∨ ¬ reset z ∧ Open hit reset l := by
  unfold Open
  rw [exists_split_snoc]
  constructor
  · rintro (⟨hz, -⟩ | ⟨pre, x, post, he, hx, hp⟩)
    · exact .inl hz
    · exact .inr ⟨hp z (by simp), pre, x, post, he, hx, fun y hy => hp y (by simp [hy])⟩
  · rintro (hz | ⟨hz, pre, x, post, he, hx, hp⟩)
    · exact .inl ⟨hz, by simp⟩
    · refine .inr ⟨pre, x, post, he, hx, ?_⟩
      intro y hy
      rcases List.mem_append.1 hy with hy | hy
      · exact hp y hy
      · rw [List.mem_singleton.1 hy]
        exact hz

variable [DecidablePred hit] [DecidablePred reset]

/-- How many hits there have been since the last reset. -/
def since (l : List α) : Nat := l.foldl (fun n x => (if reset x then 0 else n) + if hit x then 1 else 0) 0

@[simp] theorem since_nil : since hit reset [] = 0 := rfl

@[simp] theorem since_snoc (l : List α) (x : α) : since hit reset (l ++ [x]) =
    (if reset x then 0 else since hit reset l) + if hit x then 1 else 0 := by
  simp [since, List.foldl_append]

theorem since_pos (l : List α) : 0 < since hit reset l ↔ Open hit reset l := by
  induction l using List.reverseRecOn with
  | nil => simp [Open]
  | append_singleton l z ih =>
    rw [open_snoc, since_snoc, ← ih]
    by_cases hz : hit z <;> by_cases hr : reset z <;> simp [hz, hr]

variable (reset' : α → Prop) [DecidablePred reset']

/-- More resets, less to count. -/
theorem since_mono (h : ∀ x, reset' x → reset x) (l : List α) :
    since hit reset l ≤ since hit reset' l := by
  induction l using List.reverseRecOn with
  | nil => exact Nat.le_refl _
  | append_singleton l z ih =>
    rw [since_snoc, since_snoc]
    apply Nat.add_le_add_right
    by_cases hz : reset z
    · simp [hz]
    · rw [if_neg hz, if_neg fun hz' => hz (h z hz')]
      exact ih

/-- Where fewer resets leave more to count: a hit, then one of the other resets. -/
theorem since_lt_iff (h : ∀ x, reset' x → reset x) (l : List α) :
    since hit reset l < since hit reset' l ↔
      ∃ pre x post, l = pre ++ x :: post ∧ hit x ∧ (∃ y ∈ post, reset y) ∧ ∀ y ∈ post, ¬ reset' y := by
  induction l using List.reverseRecOn with
  | nil => simp
  | append_singleton l z ih =>
    rw [exists_split_snoc (P := fun x post => hit x ∧ (∃ y ∈ post, reset y) ∧ ∀ y ∈ post, ¬ reset' y),
      since_snoc, since_snoc, Nat.add_lt_add_iff_right]
    by_cases hz' : reset' z
    · rw [if_pos hz', if_pos (h z hz')]
      simp [hz']
    · rw [if_neg hz']
      by_cases hz : reset z
      · rw [if_pos hz, since_pos]
        simp [Open, hz, hz', or_imp, forall_and]
      · rw [if_neg hz, ih]
        simp [hz, hz', or_imp, forall_and]

end Lib
