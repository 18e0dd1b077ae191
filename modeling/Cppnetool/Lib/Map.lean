import Mathlib.Data.List.AList
/-!
# Finite maps

`std::map` with a plain value type, on Mathlib's `AList`: one value for each
key, and a size. The order of the keys is not kept.
-/

namespace Lib

/-- A finite map. -/
abbrev Map (κ α : Type) := AList fun _ : κ => α

namespace Map

variable {κ α : Type} [DecidableEq κ] {m : Map κ α} {k k' : κ} {v : α}

def find (m : Map κ α) (k : κ) : Option α := m.lookup k

def size (m : Map κ α) : Nat := m.keys.length

@[simp] theorem find_empty : find (∅ : Map κ α) k = none := rfl

@[simp] theorem find_insert_self : find (m.insert k v) k = some v := AList.lookup_insert m

theorem find_insert_ne (h : k' ≠ k) : find (m.insert k v) k' = find m k' := AList.lookup_insert_ne h

@[simp] theorem find_erase_self : find (m.erase k) k = none := AList.lookup_erase k m

theorem find_erase_ne (h : k' ≠ k) : find (m.erase k) k' = find m k' := AList.lookup_erase_ne h

theorem mem_keys_of_find (h : find m k = some v) : k ∈ m.keys :=
  AList.lookup_isSome.1 (Option.isSome_iff_exists.2 ⟨v, h⟩)

theorem find_of_mem_keys (h : k ∈ m.keys) : ∃ v, find m k = some v :=
  Option.isSome_iff_exists.1 (AList.lookup_isSome.2 h)

theorem size_insert (h : find m k = none) : size (m.insert k v) = size m + 1 := by
  have : k ∉ m.keys := AList.lookup_eq_none.1 h
  simp [size, AList.keys_insert, List.erase_of_not_mem this]

theorem size_erase (h : find m k = some v) : size (m.erase k) = size m - 1 := by
  rw [size, AList.keys_erase, List.length_erase_of_mem (mem_keys_of_find h), size]

end Map

end Lib
