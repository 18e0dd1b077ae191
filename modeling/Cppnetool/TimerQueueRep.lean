import Cppnetool.TimerQueue
/-!
# The timer queue's sets and its timers

`Objects` says what is known of the timers themselves: each lives at one
address under its own sequence, or is deleted, once. `Tie` keeps the two sets
in step with each other and with the timers. `Rep` adds that each living timer
is held in one place: by a functor that will insert it, by the two sets, or by
the batch of `handleRead`. Each operation of the queue has one lemma.
-/
open Lib

namespace Cppnetool.TimerQueue

structure Objects (heap : Addr → Option Timer) (numCreated : Nat) (deleted : List Nat) : Prop where
  addr : ∀ a t, heap a = some t → a < UINTPTR_MAX
  seq : ∀ a t, heap a = some t → 1 ≤ t.sequence ∧ t.sequence ≤ numCreated ∧ t.sequence ∉ deleted
  inj : ∀ a b t u, heap a = some t → heap b = some u → t.sequence = u.sequence → a = b
  past : ∀ q ∈ deleted, 1 ≤ q ∧ q ≤ numCreated
  nodup : deleted.Nodup
  all : ∀ q, 1 ≤ q → q ≤ numCreated → q ∈ deleted ∨ ∃ a t, heap a = some t ∧ t.sequence = q

structure Tie (heap : Addr → Option Timer) (timers : OrdSet Entry) (active : OrdSet ActiveTimer) : Prop where
  timer : ∀ w a, toLex (w, a) ∈ timers →
    ∃ t, heap a = some t ∧ t.expiration = w ∧ toLex (a, t.sequence) ∈ active
  active : ∀ a q, toLex (a, q) ∈ active →
    ∃ t, heap a = some t ∧ t.sequence = q ∧ toLex (t.expiration, a) ∈ timers

/-- The addresses in a list of entries, and in `timers_`. -/
def addrs (l : List Entry) : List Addr := l.map fun e => (ofLex e).2

def waiting (timers : OrdSet Entry) : List Addr := addrs timers.toList

/-- Everything that holds a timer. -/
def holders (queued : List Addr) (timers : OrdSet Entry) (batch : List Addr) : List Addr :=
  queued ++ (waiting timers ++ batch)

structure Rep (s : St) (queued batch : List Addr) : Prop where
  objects : Objects s.heap s.numCreated s.deleted
  tie : Tie s.heap s.timers s.activeTimers
  nodup : (holders queued s.timers batch).Nodup
  held : ∀ a, a ∈ holders queued s.timers batch ↔ s.heap a ≠ none

variable {heap heap' : Addr → Option Timer} {n : Nat} {deleted : List Nat} {timers : OrdSet Entry}
  {active : OrdSet ActiveTimer} {s s' : St} {queued batch : List Addr} {a b : Addr} {t u : Timer} {q : Nat} {w : Int}

/-! ## The timers -/

section Objects
variable (O : Objects heap n deleted)
include O

theorem Objects.new (ha : heap a = none) (hlt : a < UINTPTR_MAX) (ht : t.sequence = n + 1) :
    Objects (Function.update heap a (some t)) (n + 1) deleted := by
  have split : ∀ b u, Function.update heap a (some t) b = some u → (b = a ∧ u = t) ∨ (b ≠ a ∧ heap b = some u) := by
    intro b u h
    by_cases hb : b = a
    · subst hb; rw [Function.update_self] at h; exact .inl ⟨rfl, (Option.some.inj h).symm⟩
    · rw [Function.update_of_ne hb] at h; exact .inr ⟨hb, h⟩
  refine ⟨fun b u h => ?_, fun b u h => ?_, fun b c u v hb hc e => ?_, fun q hq => ?_, O.nodup, fun q h1 h2 => ?_⟩
  · rcases split b u h with ⟨rfl, -⟩ | ⟨-, h⟩
    · exact hlt
    · exact O.addr b u h
  · rcases split b u h with ⟨-, rfl⟩ | ⟨-, h⟩
    · refine ⟨by omega, by omega, ?_⟩
      intro hm
      have := (O.past _ hm).2
      omega
    · obtain ⟨h1, h2, h3⟩ := O.seq b u h
      exact ⟨h1, by omega, h3⟩
  · rcases split b u hb with ⟨eb, eu⟩ | ⟨-, hb'⟩ <;> rcases split c v hc with ⟨ec, ev⟩ | ⟨-, hc'⟩
    · exact eb.trans ec.symm
    · have := (O.seq c v hc').2.1
      rw [eu] at e; omega
    · have := (O.seq b u hb').2.1
      rw [ev] at e; omega
    · exact O.inj b c u v hb' hc' e
  · have := O.past q hq
    omega
  · by_cases hq : q = n + 1
    · exact .inr ⟨a, t, Function.update_self .., by omega⟩
    · rcases O.all q h1 (by omega) with h | ⟨b, u, hb, hu⟩
      · exact .inl h
      · refine .inr ⟨b, u, ?_, hu⟩
        rw [Function.update_of_ne, hb]
        rintro rfl
        rw [ha] at hb; cases hb

/-- A timer may change as long as it keeps its sequence. -/
theorem Objects.update (ha : heap a = some t) (hu : u.sequence = t.sequence) :
    Objects (Function.update heap a (some u)) n deleted := by
  have back : ∀ b v, Function.update heap a (some u) b = some v →
      ∃ v', heap b = some v' ∧ v'.sequence = v.sequence := by
    intro b v h
    by_cases hb : b = a
    · subst hb; rw [Function.update_self] at h; cases h; exact ⟨t, ha, hu.symm⟩
    · rw [Function.update_of_ne hb] at h; exact ⟨v, h, rfl⟩
  refine ⟨?_, ?_, ?_, O.past, O.nodup, ?_⟩
  · intro b v h
    obtain ⟨v', h', -⟩ := back b v h
    exact O.addr b v' h'
  · intro b v h
    obtain ⟨v', h', e⟩ := back b v h
    rw [← e]; exact O.seq b v' h'
  · intro b c v x hb hc e
    obtain ⟨v', hb', ev⟩ := back b v hb
    obtain ⟨x', hc', ex⟩ := back c x hc
    exact O.inj b c v' x' hb' hc' (by omega)
  · intro q h1 h2
    rcases O.all q h1 h2 with h | ⟨b, v, hb, hv⟩
    · exact .inl h
    · by_cases hba : b = a
      · subst hba
        rw [ha] at hb; cases hb
        exact .inr ⟨b, u, Function.update_self .., hu.trans hv⟩
      · exact .inr ⟨b, v, by rw [Function.update_of_ne hba, hb], hv⟩

theorem Objects.delete (ha : heap a = some t) :
    Objects (Function.update heap a none) n (deleted ++ [t.sequence]) := by
  have back : ∀ b u, Function.update heap a none b = some u → b ≠ a ∧ heap b = some u := by
    intro b u h
    by_cases hb : b = a
    · subst hb; rw [Function.update_self] at h; cases h
    · rw [Function.update_of_ne hb] at h; exact ⟨hb, h⟩
  obtain ⟨h1, h2, h3⟩ := O.seq a t ha
  refine ⟨fun b u h => O.addr b u (back b u h).2, fun b u h => ?_, fun b c u v hb hc e => ?_, fun q hq => ?_, ?_,
    fun q hq1 hq2 => ?_⟩
  · obtain ⟨hb, h⟩ := back b u h
    obtain ⟨g1, g2, g3⟩ := O.seq b u h
    refine ⟨g1, g2, ?_⟩
    rw [List.mem_append, List.mem_singleton]
    rintro (hm | e)
    · exact g3 hm
    · exact hb (O.inj b a u t h ha e)
  · exact O.inj b c u v (back b u hb).2 (back c v hc).2 e
  · rcases List.mem_append.1 hq with hq | hq
    · exact O.past q hq
    · rw [List.mem_singleton.1 hq]; exact ⟨h1, h2⟩
  · rw [List.nodup_append]
    refine ⟨O.nodup, List.nodup_singleton _, ?_⟩
    intro q hq r hr
    rw [List.mem_singleton.1 hr]
    rintro rfl
    exact h3 hq
  · rcases O.all q hq1 hq2 with h | ⟨b, u, hb, hu⟩
    · exact .inl (List.mem_append_left _ h)
    · by_cases hba : b = a
      · subst hba
        rw [ha] at hb; cases hb
        exact .inl (List.mem_append_right _ (List.mem_singleton.2 hu.symm))
      · exact .inr ⟨b, u, by rw [Function.update_of_ne hba, hb], hu⟩

end Objects

/-! ## The two sets -/

theorem mem_addrs {l : List Entry} : a ∈ addrs l ↔ ∃ w, toLex (w, a) ∈ l := by
  simp only [addrs, List.mem_map]
  constructor
  · rintro ⟨e, he, rfl⟩
    exact ⟨(ofLex e).1, he⟩
  · rintro ⟨w, h⟩
    exact ⟨_, h, rfl⟩

theorem mem_waiting : a ∈ waiting timers ↔ ∃ w, toLex (w, a) ∈ timers := mem_addrs

section Tie
variable (T : Tie heap timers active)
include T

theorem Tie.waiting_nodup : (waiting timers).Nodup := by
  apply timers.nodup.map_on
  intro x hx y hy e
  obtain ⟨t, ht, hw, -⟩ := T.timer (ofLex x).1 (ofLex x).2 hx
  obtain ⟨u, hu, hv, -⟩ := T.timer (ofLex y).1 (ofLex y).2 hy
  rw [e, hu] at ht; cases ht
  exact congrArg toLex (Prod.ext (hw.symm.trans hv) e)

theorem Tie.active_nodup : (active.toList.map fun x => (ofLex x).1).Nodup := by
  apply active.nodup.map_on
  intro x hx y hy e
  obtain ⟨t, ht, hw, -⟩ := T.active (ofLex x).1 (ofLex x).2 hx
  obtain ⟨u, hu, hv, -⟩ := T.active (ofLex y).1 (ofLex y).2 hy
  rw [e, hu] at ht; cases ht
  exact congrArg toLex (Prod.ext e (hw.symm.trans hv))

/-- The two sets hold the same timers. -/
theorem Tie.same : (waiting timers).Perm (active.toList.map fun x => (ofLex x).1) := by
  apply (List.perm_ext_iff_of_nodup T.waiting_nodup T.active_nodup).2
  intro a
  rw [mem_waiting, List.mem_map]
  constructor
  · rintro ⟨w, h⟩
    obtain ⟨t, -, -, ha⟩ := T.timer w a h
    exact ⟨_, ha, rfl⟩
  · rintro ⟨x, hx, rfl⟩
    obtain ⟨t, -, -, ht⟩ := T.active (ofLex x).1 (ofLex x).2 hx
    exact ⟨_, ht⟩

theorem Tie.size : timers.size = active.size := by
  have := T.same.length_eq
  rwa [waiting, addrs, List.length_map, List.length_map] at this

theorem Tie.mem_timers (ha : heap a = some t) : toLex (w, a) ∈ timers ↔ w = t.expiration ∧ a ∈ waiting timers := by
  rw [mem_waiting]
  constructor
  · intro h
    obtain ⟨u, hu, rfl, -⟩ := T.timer w a h
    rw [ha] at hu; cases hu
    exact ⟨rfl, _, h⟩
  · rintro ⟨rfl, w, h⟩
    obtain ⟨u, hu, rfl, -⟩ := T.timer w a h
    rw [ha] at hu; cases hu
    exact h

theorem Tie.mem_active (ha : heap a = some t) : toLex (a, q) ∈ active ↔ q = t.sequence ∧ a ∈ waiting timers := by
  rw [mem_waiting]
  constructor
  · intro h
    obtain ⟨u, hu, rfl, hm⟩ := T.active a q h
    rw [ha] at hu; cases hu
    exact ⟨rfl, _, hm⟩
  · rintro ⟨rfl, w, h⟩
    obtain ⟨u, hu, -, hm⟩ := T.timer w a h
    rw [ha] at hu; cases hu
    exact hm

/-- What happens at addresses that are not in the sets does not matter. -/
theorem Tie.frame (h : ∀ a ∈ waiting timers, heap' a = heap a) : Tie heap' timers active where
  timer w a hm := by rw [h a (mem_waiting.2 ⟨w, hm⟩)]; exact T.timer w a hm
  active a q hm := by
    obtain ⟨t, ht, hq, hm'⟩ := T.active a q hm
    rw [h a (mem_waiting.2 ⟨_, hm'⟩)]
    exact ⟨t, ht, hq, hm'⟩

theorem Tie.insert (ha : heap a = some t) :
    Tie heap (timers.insert (toLex (t.expiration, a))) (active.insert (toLex (a, t.sequence))) where
  timer w b hm := by
    rcases OrdSet.mem_insert.1 hm with e | hm
    · cases e; exact ⟨t, ha, rfl, OrdSet.mem_insert.2 (.inl rfl)⟩
    · obtain ⟨u, hu, hw, h⟩ := T.timer w b hm
      exact ⟨u, hu, hw, OrdSet.mem_insert.2 (.inr h)⟩
  active b q hm := by
    rcases OrdSet.mem_insert.1 hm with e | hm
    · cases e; exact ⟨t, ha, rfl, OrdSet.mem_insert.2 (.inl rfl)⟩
    · obtain ⟨u, hu, hq, h⟩ := T.active b q hm
      exact ⟨u, hu, hq, OrdSet.mem_insert.2 (.inr h)⟩

theorem Tie.erase (ha : heap a = some t) :
    Tie heap (timers.erase (toLex (t.expiration, a))) (active.erase (toLex (a, t.sequence))) where
  timer w b hm := by
    obtain ⟨hne, hm⟩ := OrdSet.mem_erase.1 hm
    obtain ⟨u, hu, rfl, h⟩ := T.timer w b hm
    refine ⟨u, hu, rfl, OrdSet.mem_erase.2 ⟨fun e => hne ?_, h⟩⟩
    obtain ⟨rfl, -⟩ := Prod.mk.inj (toLex.injective e)
    rw [ha] at hu; cases hu; rfl
  active b q hm := by
    obtain ⟨hne, hm⟩ := OrdSet.mem_erase.1 hm
    obtain ⟨u, hu, rfl, h⟩ := T.active b q hm
    refine ⟨u, hu, rfl, OrdSet.mem_erase.2 ⟨fun e => hne ?_, h⟩⟩
    obtain ⟨-, rfl⟩ := Prod.mk.inj (toLex.injective e)
    rw [ha] at hu; cases hu; rfl

end Tie

end Cppnetool.TimerQueue
