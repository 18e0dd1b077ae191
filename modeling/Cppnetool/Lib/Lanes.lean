import Mathlib.Data.List.Basic
/-!
# Lanes

Several queues, or several stacks, kept as one list whose items say which lane
they are in. Whether any lane has an item is then a question about one list.
-/

namespace Lib.Lanes

variable {L A : Type} [DecidableEq L] {q : List (L × A)} {l : L} {a : A} {p : L × A}

/-- The first item of a lane. -/
def front (q : List (L × A)) (l : L) : Option A := (q.find? fun p => p.1 = l).map Prod.snd

/-- All but that one. -/
def pop (q : List (L × A)) (l : L) : List (L × A) := q.eraseP fun p => p.1 = l

/-- A lane, and the other lanes. -/
def lane (q : List (L × A)) (l : L) : List (L × A) := q.filter fun p => p.1 = l

def others (q : List (L × A)) (l : L) : List (L × A) := q.filter fun p => p.1 ≠ l

theorem mem_of_front (h : front q l = some a) : (l, a) ∈ q := by
  obtain ⟨⟨l', a'⟩, hf, rfl⟩ := Option.map_eq_some_iff.1 h
  have hl : l' = l := by simpa using List.find?_some hf
  rw [← hl]
  exact List.mem_of_find?_eq_some hf

theorem mem_of_mem_pop (h : p ∈ pop q l) : p ∈ q := List.mem_of_mem_eraseP h

/-- An item that is not the first of its lane stays. -/
theorem mem_pop (h : p ∈ q) : p ∈ pop q l ∨ p.1 = l ∧ front q l = some p.2 := by
  induction q with
  | nil => cases h
  | cons x q ih =>
    by_cases hx : x.1 = l
    · rw [pop, List.eraseP_cons_of_pos (by simpa using hx)]
      rcases List.mem_cons.1 h with rfl | h
      · exact .inr ⟨hx, by simp [front, hx]⟩
      · exact .inl h
    · rw [pop, List.eraseP_cons_of_neg (by simpa using hx), front, List.find?_cons_of_neg (by simpa using hx)]
      rcases List.mem_cons.1 h with rfl | h
      · exact .inl List.mem_cons_self
      · exact (ih h).imp_left (List.mem_cons_of_mem _)

theorem mem_lane : p ∈ lane q l ↔ p ∈ q ∧ p.1 = l := by simp [lane]

theorem mem_others : p ∈ others q l ↔ p ∈ q ∧ p.1 ≠ l := by simp [others]

end Lib.Lanes
