import Mathlib.Logic.Function.Basic
import Mathlib.Data.List.Nodup
/-!
# Tickets

Work that is owed for an object lies as an item in one of several queues, and
each object is owed at most one item at a time. `Tickets` says that the queues
hold exactly the items that `place` gives for the objects, each once; putting
an item into a queue and taking one out change the place of its object only.
-/

namespace Lib

variable {Q I K : Type}

/-- `key i` is the object that item `i` is owed for; `place k` is the queue and
the item of object `k`, if it is owed one. -/
structure Tickets (key : I → K) (queues : Q → List I) (place : K → Option (Q × I)) : Prop where
  mem : ∀ q i, i ∈ queues q ↔ place (key i) = some (q, i)
  nodup : ∀ q, (queues q).Nodup

namespace Tickets

variable {key : I → K} {queues : Q → List I} {place place' : K → Option (Q × I)} {q : Q} {i : I} {l rest : List I}

theorem congr (h : Tickets key queues place) (e : ∀ k, place' k = place k) : Tickets key queues place' where
  mem q i := by rw [e]; exact h.mem q i
  nodup := h.nodup

theorem place_head (h : Tickets key queues place) (hq : queues q = i :: rest) : place (key i) = some (q, i) :=
  (h.mem q i).1 (by rw [hq]; exact List.mem_cons_self)

variable [DecidableEq K]

/-- An object that stays where it is. -/
theorem stay (h : Tickets key queues place) {k : K} {v : Option (Q × I)} (hv : v = place k) :
    Tickets key queues (Function.update place k v) := by
  rw [hv, Function.update_eq_self]
  exact h

variable [DecidableEq Q]

/-- An item for an object that was owed nothing. -/
theorem push (h : Tickets key queues place) (hn : place (key i) = none) (hl : l.Perm (i :: queues q)) :
    Tickets key (Function.update queues q l) (Function.update place (key i) (some (q, i))) where
  mem q' j := by
    -- an object that was owed nothing has no item in any queue
    have hnot : key j = key i → j ∉ queues q' := by
      intro e hj
      rw [h.mem, e, hn] at hj
      cases hj
    by_cases hk : key j = key i
    · rw [hk, Function.update_self]
      by_cases hq : q' = q
      · subst hq
        rw [Function.update_self, hl.mem_iff, List.mem_cons]
        constructor
        · rintro (rfl | hj)
          · rfl
          · exact absurd hj (hnot hk)
        · intro e
          exact .inl (Prod.mk.inj (Option.some.inj e)).2.symm
      · rw [Function.update_of_ne hq]
        exact iff_of_false (hnot hk) fun e => hq (Prod.mk.inj (Option.some.inj e)).1.symm
    · rw [Function.update_of_ne hk, ← h.mem]
      by_cases hq : q' = q
      · subst hq
        rw [Function.update_self, hl.mem_iff, List.mem_cons]
        exact or_iff_right fun e => hk (by rw [e])
      · rw [Function.update_of_ne hq]
  nodup q' := by
    by_cases hq : q' = q
    · subst hq
      rw [Function.update_self, hl.nodup_iff, List.nodup_cons, h.mem, hn]
      exact ⟨fun e => (nomatch e), h.nodup q'⟩
    · rw [Function.update_of_ne hq]
      exact h.nodup q'

/-- The first item of a queue is dealt with. -/
theorem pop (h : Tickets key queues place) (hq : queues q = i :: rest) :
    Tickets key (Function.update queues q rest) (Function.update place (key i) none) where
  mem q' j := by
    have hp := h.place_head hq
    have hnd := h.nodup q
    rw [hq, List.nodup_cons] at hnd
    have hin : j ∈ queues q ↔ j = i ∨ j ∈ rest := by rw [hq, List.mem_cons]
    by_cases hk : key j = key i
    · rw [hk, Function.update_self]
      refine iff_of_false (?_) fun e => by cases e
      intro hj
      by_cases hq' : q' = q
      · subst hq'
        rw [Function.update_self] at hj
        have := (h.mem q' j).1 (hin.2 (.inr hj))
        rw [hk, hp] at this
        cases this
        exact hnd.1 hj
      · rw [Function.update_of_ne hq', h.mem, hk, hp] at hj
        exact hq' (Prod.mk.inj (Option.some.inj hj)).1.symm
    · rw [Function.update_of_ne hk, ← h.mem]
      by_cases hq' : q' = q
      · subst hq'
        rw [Function.update_self, hin]
        exact (or_iff_right fun e => hk (by rw [e])).symm
      · rw [Function.update_of_ne hq']
  nodup q' := by
    by_cases hq' : q' = q
    · subst hq'
      have hnd := h.nodup q'
      rw [hq, List.nodup_cons] at hnd
      rw [Function.update_self]
      exact hnd.2
    · rw [Function.update_of_ne hq']
      exact h.nodup q'

end Tickets

end Lib
