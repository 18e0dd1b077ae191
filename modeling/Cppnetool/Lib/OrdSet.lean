import Mathlib.Data.List.Sort
import Mathlib.Data.List.TakeWhile
import Mathlib.Data.Prod.Lex
/-!
# Ordered sets

`std::set`, as the strictly increasing list of its elements.
-/

namespace Lib

/-- A finite set whose elements are kept in order. -/
structure OrdSet (α : Type) [LinearOrder α] where
  toList : List α
  sorted : toList.Pairwise (· < ·)

namespace OrdSet

variable {α : Type} [LinearOrder α] {s : OrdSet α} {x y b : α}

instance : Membership α (OrdSet α) := ⟨fun s x => x ∈ s.toList⟩

instance (x : α) (s : OrdSet α) : Decidable (x ∈ s) := inferInstanceAs (Decidable (x ∈ s.toList))

theorem mem_toList : x ∈ s.toList ↔ x ∈ s := Iff.rfl

theorem nodup (s : OrdSet α) : s.toList.Nodup := s.sorted.imp ne_of_lt

def size (s : OrdSet α) : Nat := s.toList.length

/-- `*begin()`, if there is one. -/
def first (s : OrdSet α) : Option α := s.toList.head?

def empty : OrdSet α := ⟨[], .nil⟩

@[simp] theorem not_mem_empty : x ∉ (empty : OrdSet α) := List.not_mem_nil

theorem first_mem (h : s.first = some x) : x ∈ s := List.mem_of_mem_head? h

theorem first_le (h : s.first = some x) (hy : y ∈ s) : x ≤ y := by
  obtain ⟨l, hs⟩ := s
  cases l with
  | nil => cases h
  | cons z l =>
    cases h
    rcases List.mem_cons.1 hy with rfl | hy
    · exact le_rfl
    · exact le_of_lt ((List.pairwise_cons.1 hs).1 y hy)

theorem first_eq_none : s.first = none ↔ ∀ x, x ∉ s :=
  List.head?_eq_none_iff.trans List.eq_nil_iff_forall_not_mem

/-! ## `insert` -/

/-- An element that is there already is not inserted again. -/
def insert (s : OrdSet α) (x : α) : OrdSet α :=
  if h : x ∈ s then s
  else
    { toList := s.toList.orderedInsert (· ≤ ·) x
      sorted := by
        have hle : (s.toList.orderedInsert (· ≤ ·) x).Pairwise (· ≤ ·) :=
          (s.sorted.imp le_of_lt).orderedInsert x
        have hne : (s.toList.orderedInsert (· ≤ ·) x).Nodup :=
          (List.perm_orderedInsert (· ≤ ·) x s.toList).nodup_iff.2 (List.nodup_cons.2 ⟨h, s.nodup⟩)
        exact (hle.and hne).imp fun h => lt_of_le_of_ne h.1 h.2 }

theorem insert_perm (h : x ∉ s) : (s.insert x).toList.Perm (x :: s.toList) := by
  rw [insert, dif_neg h]
  exact List.perm_orderedInsert _ x s.toList

@[simp] theorem mem_insert : y ∈ s.insert x ↔ y = x ∨ y ∈ s := by
  by_cases h : x ∈ s
  · rw [insert, dif_pos h]
    constructor
    · exact .inr
    · rintro (rfl | hy)
      · exact h
      · exact hy
  · rw [← mem_toList, (insert_perm h).mem_iff, List.mem_cons, mem_toList]

/-! ## `erase` -/

def erase (s : OrdSet α) (x : α) : OrdSet α := ⟨s.toList.erase x, s.sorted.sublist List.erase_sublist⟩

@[simp] theorem mem_erase : y ∈ s.erase x ↔ y ≠ x ∧ y ∈ s := s.nodup.mem_erase_iff

theorem perm_erase (h : x ∈ s) : s.toList.Perm (x :: (s.erase x).toList) := List.perm_cons_erase h

/-! ## `lower_bound` -/

/-- The elements before `lower_bound(b)`. -/
def below (s : OrdSet α) (b : α) : List α := s.toList.takeWhile (· < b)

/-- What is left when they are erased. -/
def above (s : OrdSet α) (b : α) : OrdSet α :=
  ⟨s.toList.dropWhile (· < b), s.sorted.sublist (List.dropWhile_sublist _)⟩

theorem below_append_above (s : OrdSet α) (b : α) : s.below b ++ (s.above b).toList = s.toList :=
  List.takeWhile_append_dropWhile

theorem lt_of_mem_below (h : x ∈ s.below b) : x < b := by
  simpa using List.mem_takeWhile_imp h

theorem le_of_mem_above (h : x ∈ s.above b) : b ≤ x := by
  obtain ⟨l, hs⟩ := s
  change x ∈ l.dropWhile (· < b) at h
  induction l with
  | nil => simp at h
  | cons y l ih =>
    rw [List.dropWhile_cons] at h
    split at h
    · exact ih (List.pairwise_cons.1 hs).2 h
    · rename_i hy
      have hby : b ≤ y := by simpa using hy
      rcases List.mem_cons.1 h with rfl | h
      · exact hby
      · exact hby.trans (le_of_lt ((List.pairwise_cons.1 hs).1 x h))

theorem mem_below : x ∈ s.below b ↔ x ∈ s ∧ x < b := by
  constructor
  · intro h
    exact ⟨(List.takeWhile_subset _) h, lt_of_mem_below h⟩
  · rintro ⟨h, hb⟩
    rw [← mem_toList, ← below_append_above s b, List.mem_append] at h
    exact h.resolve_right fun h => not_le_of_gt hb (le_of_mem_above h)

theorem mem_above : x ∈ s.above b ↔ x ∈ s ∧ b ≤ x := by
  constructor
  · intro h
    exact ⟨(List.dropWhile_subset _) h, le_of_mem_above h⟩
  · rintro ⟨h, hb⟩
    rw [← mem_toList, ← below_append_above s b, List.mem_append] at h
    exact h.resolve_left fun h => not_lt_of_ge hb (lt_of_mem_below h)

end OrdSet

end Lib
