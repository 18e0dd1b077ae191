import Mathlib.Data.Fintype.Basic
import Cppnetool.Lib.Runs
import Cppnetool.Lib.Since
/-!
# `MutexLock` and `Condition`

`base/Mutex.h` and `base/Condition.h`, for any number of threads that lock,
wait and notify as they like. `lock()` and `unlock()` are two steps each, the
call of pthreads and the write of `holder_`, in this order and the other way
round. `wait()` gives the mutex up and takes it again, and leaves `holder_`
alone: `holder_` is then what another thread has made of it (`holder_iff`).

Of pthreads: a mutex is taken by one thread at a time and given up by that
thread; a waiting thread wakes up when it is signalled, or for no reason.
-/
open Lib

namespace Cppnetool.Mutex

/-- Where a thread is. -/
inductive Place
  | outside
  /-- In `lock()`, before the write of `holder_`. -/
  | acquired
  | inside
  /-- In `wait()`. -/
  | waiting
  /-- In `wait()`, woken up, and without the mutex. -/
  | woken
  /-- In `unlock()`, after the write of `holder_`. -/
  | releasing
deriving DecidableEq

/-- The thread has the mutex. -/
def Place.owns : Place → Bool
  | acquired | inside | releasing => true
  | outside | waiting | woken => false

/-- Between the two writes of `holder_`. -/
def Place.between : Place → Bool
  | inside | waiting | woken => true
  | outside | acquired | releasing => false

structure St (T : Type) where
  /-- The thread that has `mutex_`. -/
  owner : Option T := none
  /-- `holder_`; `none` is 0. -/
  holder : Option T := none
  place : T → Place := fun _ => .outside

inductive Act (T : Type)
  /-- `pthread_mutex_lock`. -/
  | acquire (t : T)
  | setHolder (t : T)
  | wait (t : T)
  /-- `notify`, and the thread that it wakes up. -/
  | notify (t : T) (u : Option T)
  | notifyAll (t : T)
  /-- A thread wakes up for no reason. -/
  | spurious (t : T)
  /-- `wait` has the mutex again and returns. -/
  | reacquire (t : T)
  | clearHolder (t : T)
  /-- `pthread_mutex_unlock`. -/
  | release (t : T)
deriving DecidableEq

variable {T : Type} [DecidableEq T]

def St.move (s : St T) (t : T) (p : Place) : St T := { s with place := Function.update s.place t p }

def isLockedByThisThread (s : St T) (t : T) : Bool := s.holder = some t

/-- A thread that is not in a call of the lock or of the condition. -/
def Runs (s : St T) (t : T) : Prop := s.place t = .outside ∨ s.place t = .inside

instance (s : St T) (t : T) : Decidable (Runs s t) := inferInstanceAs (Decidable (_ ∨ _))

def enabled (s : St T) : Act T → Prop
  | .acquire t => s.place t = .outside ∧ s.owner = none
  | .setHolder t => s.place t = .acquired
  | .wait t => s.place t = .inside
  | .notify t (some u) => Runs s t ∧ s.place u = .waiting
  | .notify t none => Runs s t ∧ ∀ u, s.place u ≠ .waiting
  | .notifyAll t => Runs s t
  | .spurious t => s.place t = .waiting
  | .reacquire t => s.place t = .woken ∧ s.owner = none
  | .clearHolder t => s.place t = .inside
  | .release t => s.place t = .releasing

/-- What gives the mutex up is to have it. -/
def exec (s : St T) : Act T → Option (St T)
  | .acquire t => some ({ s with owner := some t }.move t .acquired)
  | .setHolder t => some ({ s with holder := some t }.move t .inside)
  | .wait t => do
    assert (s.owner = some t)
    return { s with owner := none }.move t .waiting
  | .notify _ (some u) => some (s.move u .woken)
  | .notify _ none => some s
  | .notifyAll _ => some { s with place := fun u => if s.place u = .waiting then .woken else s.place u }
  | .spurious t => some (s.move t .woken)
  | .reacquire t => some ({ s with owner := some t }.move t .inside)
  | .clearHolder t => some ({ s with holder := none }.move t .releasing)
  | .release t => do
    assert (s.owner = some t)
    return { s with owner := none }.move t .outside

def machine (T : Type) [DecidableEq T] : Machine (St T) (Act T) where
  init := {}
  enabled := enabled
  exec := exec

instance [Fintype T] (s : St T) : ∀ a, Decidable ((machine T).enabled s a)
  | .acquire _ | .reacquire _ | .notify _ (some _) => inferInstanceAs (Decidable (_ ∧ _))
  | .notify _ none => inferInstanceAs (Decidable (_ ∧ ∀ _, _))
  | .setHolder _ | .wait _ | .spurious _ | .clearHolder _ | .release _ => inferInstanceAs (Decidable (_ = _))
  | .notifyAll _ => inferInstanceAs (Decidable (_ ∨ _))

/-! ## Who has the mutex -/

variable {s s' : St T} {a : Act T} {t u : T} {p : Place} {tr : List (St T × Act T)}

@[simp] theorem move_place : (s.move t p).place t = p := Function.update_self ..

theorem move_place_ne (h : u ≠ t) : (s.move t p).place u = s.place u := Function.update_of_ne h ..

theorem place_move (s : St T) (u t : T) (p : Place) : (s.move u p).place t = if t = u then p else s.place t :=
  Function.update_apply ..

@[simp] theorem move_owner : (s.move t p).owner = s.owner := rfl

@[simp] theorem move_holder : (s.move t p).holder = s.holder := rfl

/-- One thread has the mutex, and `holder_` is one that is between its two writes. -/
structure Held (s : St T) : Prop where
  owner : ∀ t, s.owner = some t ↔ (s.place t).owns = true
  holder : ∀ t, s.holder = some t → (s.place t).between = true

theorem held_init : Held (machine T).init where
  owner t := by simp [machine, Place.owns]
  holder t h := by cases h

/-- A thread takes the mutex, gives it up, or neither. -/
theorem Held.move (H : Held s) {owner : Option T} (hp : owner = some t ↔ p.owns = true)
    (ho : ∀ u, u ≠ t → (owner = some u ↔ s.owner = some u)) {holder : Option T}
    (hh : holder = some t → p.between = true) (hk : ∀ u, u ≠ t → holder = some u → s.holder = some u) :
    Held ({ s with owner, holder }.move t p) where
  owner u := by
    by_cases hu : u = t
    · subst hu
      rw [move_place]
      exact hp
    · rw [move_place_ne hu]
      exact (ho u hu).trans (H.owner u)
  holder u h := by
    by_cases hu : u = t
    · subst hu
      rw [move_place]
      exact hh h
    · rw [move_place_ne hu]
      exact H.holder u (hk u hu h)

/-- No thread gives up what it does not have. -/
theorem step_held (H : Held s) (ha : enabled s a) : ∃ s', exec s a = some s' ∧ Held s' := by
  -- a thread that has the mutex is the only one
  have only {t : T} (ht : s.owner = some t) : ∀ u, u ≠ t → ((none : Option T) = some u ↔ s.owner = some u) :=
    fun u hu => iff_of_false nofun fun h => hu (Option.some.inj (h.symm.trans ht))
  have free {t : T} (ht : s.owner = none) : ∀ u, u ≠ t → (some t = some u ↔ s.owner = some u) :=
    fun u hu => iff_of_false (fun h => hu (Option.some.inj h).symm) (by rw [ht]; nofun)
  cases a with
  | acquire t =>
    refine ⟨_, rfl, H.move (iff_of_true rfl rfl) (free ha.2) (fun h => ?_) fun _ _ => id⟩
    have := H.holder t h
    rw [ha.1] at this
    cases this
  | setHolder t =>
    have ho := (H.owner t).2 (by rw [show s.place t = .acquired from ha]; rfl)
    exact ⟨_, rfl, H.move (iff_of_true ho rfl) (fun _ _ => Iff.rfl) (fun _ => rfl)
      fun u hu h => absurd (Option.some.inj h).symm hu⟩
  | wait t =>
    have ho := (H.owner t).2 (by rw [show s.place t = .inside from ha]; rfl)
    refine ⟨{ s with owner := none }.move t .waiting, ?_, H.move ?_ (only ho) (fun _ => rfl) fun _ _ => id⟩
    · simp only [exec]
      rw [assert_bind ho]
      rfl
    · exact iff_of_false nofun (by decide)
  | notify t u =>
    cases u with
    | none => exact ⟨s, rfl, H⟩
    | some u =>
      have ho : s.owner ≠ some u := fun h => by
        have := (H.owner u).1 h
        rw [ha.2] at this
        cases this
      exact ⟨_, rfl, H.move (iff_of_false ho (by decide)) (fun _ _ => Iff.rfl) (fun _ => rfl) fun _ _ => id⟩
  | notifyAll t =>
    refine ⟨_, rfl, fun u => ?_, fun u h => ?_⟩
    · rw [H.owner u]
      dsimp only
      split
      · rename_i hw
        rw [hw]
        decide
      · rfl
    · have := H.holder u h
      dsimp only
      split
      · rfl
      · exact this
  | spurious t =>
    have ho : s.owner ≠ some t := fun h => by
      have := (H.owner t).1 h
      rw [show s.place t = .waiting from ha] at this
      cases this
    exact ⟨_, rfl, H.move (iff_of_false ho (by decide)) (fun _ _ => Iff.rfl) (fun _ => rfl) fun _ _ => id⟩
  | reacquire t => exact ⟨_, rfl, H.move (iff_of_true rfl rfl) (free ha.2) (fun _ => rfl) fun _ _ => id⟩
  | clearHolder t =>
    have ho := (H.owner t).2 (by rw [show s.place t = .inside from ha]; rfl)
    exact ⟨_, rfl, H.move (iff_of_true ho rfl) (fun _ _ => Iff.rfl) nofun nofun⟩
  | release t =>
    have ho := (H.owner t).2 (by rw [show s.place t = .releasing from ha]; rfl)
    refine ⟨{ s with owner := none }.move t .outside, ?_, H.move ?_ (only ho) (fun h => ?_) fun _ _ => id⟩
    · simp only [exec]
      rw [assert_bind ho]
      rfl
    · exact iff_of_false nofun (by decide)
    · have := H.holder t h
      rw [show s.place t = .releasing from ha] at this
      cases this

/-! ## What `holder_` tells -/

/-- The writes of `holder_` that another thread makes. -/
def Overwrites (t : T) : Act T → Prop
  | .setHolder u | .clearHolder u => u ≠ t
  | _ => False

instance (t : T) : DecidablePred (Overwrites t)
  | .setHolder _ | .clearHolder _ => inferInstanceAs (Decidable (_ ≠ _))
  | .acquire _ | .wait _ | .notify _ _ | .notifyAll _ | .spurious _ | .reacquire _ | .release _ => .isFalse id

/-- What a step does to the place of a thread. -/
theorem place_step (ha : enabled s a) (hx : exec s a = some s') (t : T) :
    s'.place t = s.place t ∨ (a = .acquire t ∧ s'.place t = .acquired) ∨ (a = .setHolder t ∧ s'.place t = .inside) ∨
      (a = .wait t ∧ s.place t = .inside ∧ s'.place t = .waiting) ∨ (s.place t = .waiting ∧ s'.place t = .woken) ∨
      (s.place t = .woken ∧ s'.place t = .inside) ∨ (a = .clearHolder t ∧ s'.place t = .releasing) ∨
      (a = .release t ∧ s'.place t = .outside) := by
  cases a with
  | wait u | release u =>
    obtain ⟨_, -, hx⟩ := Option.bind_eq_some_iff.1 hx
    cases hx
    grind [place_move, enabled]
  | notify v u => cases u <;> cases hx <;> grind [place_move, enabled]
  | acquire _ | setHolder _ | notifyAll _ | spurious _ | reacquire _ | clearHolder _ =>
    cases hx
    grind [place_move, enabled]

/-- What a step does to `holder_`. -/
theorem holder_step (hx : exec s a = some s') :
    (s'.holder = s.holder ∧ (∀ t, a ≠ .setHolder t) ∧ ∀ t, a ≠ .clearHolder t) ∨
      (∃ t, a = .setHolder t ∧ s'.holder = some t) ∨ (∃ t, a = .clearHolder t ∧ s'.holder = none) := by
  cases a with
  | setHolder t =>
    cases hx
    exact .inr (.inl ⟨t, rfl, rfl⟩)
  | clearHolder t =>
    cases hx
    exact .inr (.inr ⟨t, rfl, rfl⟩)
  | wait u | release u =>
    obtain ⟨_, -, hx⟩ := Option.bind_eq_some_iff.1 hx
    cases hx
    exact .inl ⟨rfl, nofun, nofun⟩
  | notify v u => cases u <;> cases hx <;> exact .inl ⟨rfl, nofun, nofun⟩
  | acquire _ | notifyAll _ | spurious _ | reacquire _ =>
    cases hx
    exact .inl ⟨rfl, nofun, nofun⟩

/-- Another thread has written `holder_` since the last `lock()` of `t`; it
has waited since. -/
def Overwritten (t : T) (tr : List (St T × Act T)) : Prop := Open (Overwrites t) (· = .setHolder t) (tr.map Prod.snd)

def Waited (t : T) (tr : List (St T × Act T)) : Prop := Open (· = .wait t) (· = .setHolder t) (tr.map Prod.snd)

omit [DecidableEq T] in
theorem overwritten_snoc : Overwritten t (tr ++ [(s, a)]) ↔ Overwrites t a ∨ a ≠ .setHolder t ∧ Overwritten t tr := by
  rw [Overwritten, List.map_append, List.map_singleton, open_snoc]
  rfl

omit [DecidableEq T] in
theorem waited_snoc : Waited t (tr ++ [(s, a)]) ↔ a = .wait t ∨ a ≠ .setHolder t ∧ Waited t tr := by
  rw [Waited, List.map_append, List.map_singleton, open_snoc]
  rfl

/-- What a thread between its two writes finds in `holder_`. -/
structure Tells (tr : List (St T × Act T)) (s : St T) (t : T) : Prop where
  holder : (s.place t).between = true → (s.holder = some t ↔ ¬ Overwritten t tr)
  waited : (s.place t).between = true → Overwritten t tr → Waited t tr
  waiting : s.place t = .waiting ∨ s.place t = .woken → Waited t tr

/-- Another thread writes `holder_`: it has the mutex, so `t` is in its `wait()`. -/
theorem tells_overwrites (H : Held s) (I : Tells tr s t) (ha : enabled s a) (hx : exec s a = some s')
    (ho : Overwrites t a) : Tells (tr ++ [(s, a)]) s' t := by
  obtain ⟨u, hu, howns, hsame, hne⟩ : ∃ u, u ≠ t ∧ (s.place u).owns = true ∧ s'.place t = s.place t ∧
      s'.holder ≠ some t := by
    cases a with
    | setHolder u =>
      cases hx
      exact ⟨u, ho, by rw [show s.place u = .acquired from ha]; rfl, move_place_ne (Ne.symm ho),
        fun h => ho (Option.some.inj h)⟩
    | clearHolder u =>
      cases hx
      exact ⟨u, ho, by rw [show s.place u = .inside from ha]; rfl, move_place_ne (Ne.symm ho), nofun⟩
    | _ => exact ho.elim
  have hnot : (s.place t).owns ≠ true := fun h =>
    hu (Option.some.inj (((H.owner u).2 howns).symm.trans ((H.owner t).2 h)))
  have hreset : a ≠ .setHolder t := by
    rintro rfl
    exact ho rfl
  have hwaited : (s.place t).between = true → Waited t (tr ++ [(s, a)]) := by
    intro hb
    refine waited_snoc.2 (.inr ⟨hreset, I.waiting ?_⟩)
    cases hp : s.place t <;> simp_all [Place.owns, Place.between]
  refine ⟨fun _ => ?_, fun hb _ => hwaited (hsame ▸ hb), fun hw => hwaited ?_⟩
  · exact iff_of_false hne (not_not.2 (overwritten_snoc.2 (.inl ho)))
  · rw [hsame] at hw
    rcases hw with h | h <;> rw [h] <;> rfl

/-- A step that leaves a thread between its writes, and is not its `lock()`. -/
theorem between_step (ha : enabled s a) (hx : exec s a = some s') (ho : ¬ Overwrites t a) (hset : a ≠ .setHolder t)
    (hb : (s'.place t).between = true) : (s.place t).between = true ∧ s'.holder = s.holder := by
  rcases holder_step hx with ⟨h, -, hclear⟩ | ⟨u, rfl, -⟩ | ⟨u, rfl, -⟩
  · refine ⟨?_, h⟩
    rcases place_step ha hx t with h | ⟨-, h⟩ | ⟨h, -⟩ | ⟨-, h, -⟩ | ⟨h, -⟩ | ⟨h, -⟩ | ⟨h, -⟩ | ⟨-, h⟩
    · rwa [← h]
    · rw [h] at hb
      cases hb
    · exact absurd h hset
    · rw [h]
      rfl
    · rw [h]
      rfl
    · rw [h]
      rfl
    · exact absurd h (hclear t)
    · rw [h] at hb
      cases hb
  · exact absurd (fun h => hset (by rw [h])) ho
  · obtain rfl : u = t := by
      by_contra h
      exact ho h
    cases hx
    rw [move_place] at hb
    cases hb

theorem step_tells (H : Held s) (I : Tells tr s t) (ha : enabled s a) (hx : exec s a = some s') :
    Tells (tr ++ [(s, a)]) s' t := by
  by_cases ho : Overwrites t a
  · exact tells_overwrites H I ha hx ho
  by_cases hset : a = .setHolder t
  · subst hset
    cases hx
    refine ⟨fun _ => iff_of_true rfl fun h => ?_, fun _ h => ?_, fun h => ?_⟩
    · exact (overwritten_snoc.1 h).elim ho fun h => h.1 rfl
    · exact absurd (overwritten_snoc.1 h) (not_or.2 ⟨ho, fun h => h.1 rfl⟩)
    · rw [move_place] at h
      rcases h with h | h <;> cases h
  · -- `holder_` is written by nobody, or for the last time by `t`
    have hover : Overwritten t (tr ++ [(s, a)]) ↔ Overwritten t tr := by
      rw [overwritten_snoc]
      exact ⟨fun h => (h.resolve_left ho).2, fun h => .inr ⟨hset, h⟩⟩
    have hwait : Waited t tr → Waited t (tr ++ [(s, a)]) := fun h => waited_snoc.2 (.inr ⟨hset, h⟩)
    have hbetween := between_step ha hx ho hset
    refine ⟨fun hb => ?_, fun hb h => ?_, fun hw => ?_⟩
    · obtain ⟨hb, hh⟩ := hbetween hb
      rw [hh, hover]
      exact I.holder hb
    · exact hwait (I.waited (hbetween hb).1 (hover.1 h))
    · rcases place_step ha hx t with h | ⟨-, h⟩ | ⟨h, -⟩ | ⟨h, -⟩ | ⟨h, -⟩ | ⟨-, h⟩ | ⟨-, h⟩ | ⟨-, h⟩
      · exact hwait (I.waiting (h ▸ hw))
      · rw [h] at hw
        rcases hw with h | h <;> cases h
      · exact absurd h hset
      · exact waited_snoc.2 (.inl h)
      · exact hwait (I.waiting (.inl h))
      all_goals
        rw [h] at hw
        rcases hw with h | h <;> cases h

/-- No thread gives up a mutex that it has not taken, and in every state that
can be reached:
- at most one thread is in what the mutex guards;
- a thread that asks `isLockedByThisThread()` and is told so has the mutex;
- a thread that has it is told so, exactly when no other thread has locked or
  unlocked it since its own `lock()`; and that happens only in a `wait()`;
- where no thread uses it, the destructor finds `holder_` 0. -/
theorem holder_iff : (machine T).Safe ∧ ∀ tr s, Run (machine T) tr s →
    (∀ t u, (s.place t).owns = true → (s.place u).owns = true → t = u) ∧
    (∀ t, Runs s t → isLockedByThisThread s t = true → s.owner = some t) ∧
    (∀ t, s.place t = .inside → (isLockedByThisThread s t = true ↔ ¬ Overwritten t tr) ∧
      (Overwritten t tr → Waited t tr)) ∧
    ((∀ t, s.place t = .outside) → s.holder = none) := by
  refine ⟨Machine.safe_of_inv Held held_init fun s a H ha => step_held H ha, fun tr s h => ?_⟩
  obtain ⟨H, I⟩ := h.inv_trace (I := fun tr s => Held s ∧ ∀ t, Tells tr s t)
    ⟨held_init, fun t => ⟨nofun, nofun, fun h => by rcases h with h | h <;> cases h⟩⟩ (by
      rintro tr s a u - ⟨H, I⟩ ha hx
      obtain ⟨u', hx', H'⟩ := step_held H ha
      cases hx'.symm.trans hx
      exact ⟨H', fun t => step_tells H (I t) ha hx⟩)
  refine ⟨fun t u ht hu => ?_, fun t hr hl => ?_, fun t ht => ?_, fun hout => ?_⟩
  · exact Option.some.inj (((H.owner t).2 ht).symm.trans ((H.owner u).2 hu))
  · have hb := H.holder t (of_decide_eq_true hl)
    rcases hr with h | h
    · rw [h] at hb
      cases hb
    · exact (H.owner t).2 (by rw [h]; rfl)
  · have hb : (s.place t).between = true := by rw [ht]; rfl
    exact ⟨decide_eq_true_iff.trans ((I t).holder hb), (I t).waited hb⟩
  · cases hh : s.holder with
    | none => rfl
    | some t =>
      have hb := H.holder t hh
      rw [hout t] at hb
      cases hb

/-- A thread waits, another one locks and notifies it and unlocks: the first
one has the mutex again, and `holder_` is 0. -/
theorem holder_iff_wait : ∃ tr s, Run (machine Bool) tr s ∧ s.place true = .inside ∧ s.owner = some true ∧
    isLockedByThisThread s true = false ∧
    ((isLockedByThisThread s true = true ↔ ¬ Overwritten true tr) ∧ (Overwritten true tr → Waited true tr)) := by
  obtain ⟨r, hr, h1, h2, h3⟩ : ∃ r ∈ (machine Bool).play {}
      [.acquire true, .setHolder true, .wait true, .acquire false, .setHolder false, .notify false (some true),
        .clearHolder false, .release false, .reacquire true],
      r.2.place true = .inside ∧ r.2.owner = some true ∧ isLockedByThisThread r.2 true = false := by decide +kernel
  have hrun := Machine.play_steps hr
  exact ⟨r.1, r.2, hrun, h1, h2, h3, (holder_iff.2 r.1 r.2 hrun).2.2.1 true h1⟩

end Cppnetool.Mutex
