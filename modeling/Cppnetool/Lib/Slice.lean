import Mathlib.Data.List.Basic
/-!
# Ranges of a list

`slice l i j` is what an array holds from index `i` up to `j`, and
`overwrite l i d` the array after `d` was written at index `i`. `moveWithin`
copies a range of an array to another place of the same array, one element at
a time and front to back; `moveWithin_eq` says that this is the range as it
was, as long as the target does not lie behind the source. `swapAt` and a
`dropLast` remove an element from an array whose order does not matter.
-/

namespace Lib

variable {α : Type} {l : List α} {i j k n : Nat}

/-- The elements from index `i` up to, not including, index `j`. -/
def slice (l : List α) (i j : Nat) : List α := (l.take j).drop i

/-- The elements from index `i` on replaced by `d`. -/
def overwrite (l : List α) (i : Nat) (d : List α) : List α := l.take i ++ d ++ l.drop (i + d.length)

/-- Cut to length `n`, or filled up to it with `x`. -/
def resize (l : List α) (n : Nat) (x : α) : List α := l.take n ++ List.replicate (n - l.length) x

/-! ## Lengths and elements -/

@[simp] theorem length_slice : (slice l i j).length = min j l.length - i := by simp [slice]

theorem length_overwrite {d : List α} (h : i + d.length ≤ l.length) :
    (overwrite l i d).length = l.length := by
  simp only [overwrite, List.length_append, List.length_take, List.length_drop]; omega

@[simp] theorem length_resize {x : α} : (resize l n x).length = n := by
  simp only [resize, List.length_append, List.length_take, List.length_replicate]; omega

theorem getElem?_slice : (slice l i j)[k]? = if i + k < j then l[i + k]? else none := by
  simp only [slice, List.getElem?_drop, List.getElem?_take]

theorem getElem?_overwrite {d : List α} (h : i ≤ l.length) :
    (overwrite l i d)[k]? = if k < i then l[k]? else if k < i + d.length then d[k - i]? else l[k]? := by
  have hl : (l.take i).length = i := by simp [h]
  unfold overwrite
  by_cases h1 : k < i
  · rw [List.append_assoc, List.getElem?_append_left (by omega)]; simp [h1]
  · rw [List.append_assoc, List.getElem?_append_right (by omega), hl, if_neg h1]
    by_cases h2 : k < i + d.length
    · rw [List.getElem?_append_left (by omega), if_pos h2]
    · rw [List.getElem?_append_right (by omega), if_neg h2, List.getElem?_drop]
      congr 1; omega

theorem getElem?_resize {x : α} (h : l.length ≤ n) (hk : k < l.length) : (resize l n x)[k]? = l[k]? := by
  rw [resize, List.take_of_length_le h, List.getElem?_append_left hk]

/-! ## Ranges of a changed array -/

@[simp] theorem slice_self : slice l i i = [] :=
  List.eq_nil_of_length_eq_zero (by simp only [length_slice]; omega)

theorem slice_append (hij : i ≤ j) (hjk : j ≤ k) : slice l i j ++ slice l j k = slice l i k := by
  apply List.ext_getElem?
  intro m
  by_cases hm : m < (slice l i j).length
  · rw [List.getElem?_append_left hm, getElem?_slice, getElem?_slice]
    simp only [length_slice] at hm
    rw [if_pos (by omega), if_pos (by omega)]
  · rw [List.getElem?_append_right (by omega), getElem?_slice, getElem?_slice]
    simp only [length_slice] at hm ⊢
    by_cases hl : j ≤ l.length
    · rw [show j + (m - (min j l.length - i)) = i + m by omega]
    · rw [List.getElem?_eq_none (by omega), List.getElem?_eq_none (by omega)]
      simp

theorem slice_overwrite_self {d : List α} (h : i + d.length ≤ l.length) :
    slice (overwrite l i d) i (i + d.length) = d := by
  apply List.ext_getElem?
  intro m
  rw [getElem?_slice, getElem?_overwrite (by omega)]
  by_cases hm : m < d.length
  · rw [if_pos (by omega), if_neg (by omega), if_pos (by omega)]; congr 1; omega
  · rw [if_neg (by omega), List.getElem?_eq_none (by omega)]

/-- A write past a range leaves it alone, and so does one before it. -/
theorem slice_overwrite_of_disjoint {d : List α} (h : i ≤ l.length) (hd : k ≤ i ∨ i + d.length ≤ j) :
    slice (overwrite l i d) j k = slice l j k := by
  apply List.ext_getElem?
  intro m
  rw [getElem?_slice, getElem?_slice, getElem?_overwrite h]
  split
  · rcases hd with hd | hd
    · rw [if_pos (by omega)]
    · rw [if_neg (by omega), if_neg (by omega)]
  · rfl

theorem overwrite_singleton {x : α} (h : i < l.length) : overwrite l i [x] = l.set i x := by
  rw [List.set_eq_take_append_cons_drop, if_pos h]
  simp [overwrite]

/-- One write after the other. -/
theorem overwrite_append {d e : List α} (h : i + d.length ≤ l.length) :
    overwrite (overwrite l i d) (i + d.length) e = overwrite l i (d ++ e) := by
  have hl : (l.take i).length = i := by rw [List.length_take]; omega
  have ht : (l.take i ++ d).length = i + d.length := by rw [List.length_append, hl]
  rw [overwrite, overwrite, List.take_left' ht, ← List.drop_drop, List.drop_left' ht, List.drop_drop, overwrite,
    List.length_append, ← List.append_assoc, Nat.add_assoc]

theorem take_overwrite {d e : List α} (h : i + d.length ≤ l.length) :
    (overwrite l i (d ++ e)).take (i + d.length) = l.take i ++ d := by
  have ht : (l.take i ++ d).length = i + d.length := by rw [List.length_append, List.length_take]; omega
  rw [overwrite, ← List.append_assoc, List.append_assoc, List.take_left' ht]

/-- The first part of what was written, replaced. -/
theorem overwrite_overwrite {d d' e : List α} (h : i + d.length ≤ l.length) (hd : d'.length = d.length) :
    overwrite (overwrite l i (d ++ e)) i d' = overwrite l i (d' ++ e) := by
  have hl : (l.take i).length = i := by rw [List.length_take]; omega
  have ht : (l.take i ++ d).length = i + d.length := by rw [List.length_append, hl]
  have he : overwrite l i (d ++ e) = (l.take i ++ d) ++ (e ++ l.drop (i + (d ++ e).length)) := by
    simp [overwrite]
  rw [overwrite, he, hd, List.drop_left' ht, List.append_assoc (l.take i), List.take_left' hl, overwrite,
    List.length_append, List.length_append, hd]
  simp

theorem slice_resize {x : α} (h : l.length ≤ n) (hj : j ≤ l.length) : slice (resize l n x) i j = slice l i j := by
  apply List.ext_getElem?
  intro m
  rw [getElem?_slice, getElem?_slice]
  split
  · rw [getElem?_resize h (by omega)]
  · rfl

theorem drop_slice : (slice l i j).drop n = slice l (i + n) j := by
  simp only [slice, List.drop_drop]

/-- A list that reads the same when it is moved back by some places, with `x`
in the places that become free, holds nothing else. -/
theorem eq_of_shift {x : α} (hd : 0 < k) (h : ∀ m < l.length, l[m]? = if m < k then some x else l[m - k]?) :
    ∀ y ∈ l, y = x := by
  have main : ∀ m < l.length, l[m]? = some x := by
    intro m
    induction m using Nat.strongRecOn with
    | ind m ih =>
      intro hm
      rw [h m hm]
      split
      · rfl
      · exact ih (m - k) (by omega) (by omega)
  intro y hy
  obtain ⟨m, hm, rfl⟩ := List.mem_iff_getElem.1 hy
  have := main m hm
  rwa [List.getElem?_eq_getElem hm, Option.some.injEq] at this

/-! ## Moving a range inside an array -/

/-- `n` elements copied from index `src` to index `dst`, front to back. -/
def moveWithin (l : List α) (src dst : Nat) : Nat → List α
  | 0 => l
  | n + 1 =>
    match l[src]? with
    | some x => moveWithin (l.set dst x) (src + 1) (dst + 1) n
    | none => l

/-- Copied front to back, a range that overlaps its target from behind
arrives as it was. -/
theorem moveWithin_eq {src dst : Nat} (hd : dst ≤ src) (hn : src + n ≤ l.length) :
    moveWithin l src dst n = overwrite l dst (slice l src (src + n)) := by
  induction n generalizing l src dst with
  | zero => simp [moveWithin, overwrite]
  | succ n ih =>
    have hx : l[src]? = some l[src] := List.getElem?_eq_getElem (by omega)
    rw [moveWithin, hx]
    dsimp only
    -- the first element is copied before its old place can be overwritten
    rw [ih (by omega) (by simp only [List.length_set]; omega)]
    apply List.ext_getElem?
    intro m
    rw [getElem?_overwrite (by simp only [List.length_set]; omega), getElem?_overwrite (by omega)]
    simp only [length_slice, List.length_set, getElem?_slice]
    by_cases hm : m = dst
    · subst hm
      rw [if_pos (by omega), List.getElem?_set_self (by omega), if_neg (by omega), if_pos (by omega),
        if_pos (by omega)]
      simp [hx]
    · rw [List.getElem?_set_ne (by omega)]
      by_cases h1 : m < dst
      · rw [if_pos (by omega), if_pos h1]
      · rw [if_neg (by omega), if_neg h1]
        by_cases h2 : m < dst + 1 + n
        · rw [if_pos (by omega), if_pos (by omega), if_pos (by omega), if_pos (by omega),
            List.getElem?_set_ne (by omega)]
          congr 1; omega
        · rw [if_neg (by omega), if_neg (by omega)]

/-! ## Removal by swapping with the last -/

/-- The elements at indices `i` and `j` exchanged. -/
def swapAt (l : List α) (i j : Nat) : List α :=
  match l[i]?, l[j]? with
  | some x, some y => (l.set i y).set j x
  | _, _ => l

theorem swapAt_self : swapAt l i i = l := by
  unfold swapAt
  cases h : l[i]? with
  | none => rfl
  | some x =>
    obtain ⟨hi, rfl⟩ := List.getElem?_eq_some_iff.1 h
    simp

/-- Swapping index `i` with the last one and dropping that puts the last
element at `i` and leaves the others. -/
theorem getElem?_swapAt_dropLast (hi : i < l.length) :
    (swapAt l i (l.length - 1)).dropLast[k]? =
      if k < l.length - 1 then (if k = i then l[l.length - 1]? else l[k]?) else none := by
  have h1 : l[i]? = some l[i] := List.getElem?_eq_getElem hi
  have h2 : l[l.length - 1]? = some l[l.length - 1] := List.getElem?_eq_getElem (by omega)
  have hs : swapAt l i (l.length - 1) = (l.set i l[l.length - 1]).set (l.length - 1) l[i] := by
    simp only [swapAt, h1, h2]
  rw [hs, List.getElem?_dropLast]
  simp only [List.length_set]
  split
  · rename_i hk
    rw [List.getElem?_set_ne (by omega)]
    by_cases hki : k = i
    · subst hki; rw [List.getElem?_set_self hi, if_pos rfl, h2]
    · rw [List.getElem?_set_ne (Ne.symm hki), if_neg hki]
  · rfl

theorem length_swapAt_dropLast : (swapAt l i j).dropLast.length = l.length - 1 := by
  rw [List.length_dropLast, swapAt]
  split <;> simp

end Lib
