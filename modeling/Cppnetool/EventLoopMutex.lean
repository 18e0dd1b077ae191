import Mathlib.Data.Fintype.Option
import Cppnetool.EventLoopQueue
import Cppnetool.Lib.Simulation
import Cppnetool.Mutex
/-!
# The functor queue, step by step

`queueInLoop` and `doPendingFunctors` of `net/EventLoop.cc` with the steps of
`MutexLockGuard`, and with the vector read and written in steps of their own:
`push_back` reads what the vector holds and then writes it, and so does `swap`.
Between any two steps every other thread may move.

The threads are `none`, the loop's own, and `some t`.
-/
open Lib

namespace Cppnetool.EventLoopMutex

/-- What a thread does with the vector, with what it has read of it. -/
inductive Job (F : Type)
  /-- `queueInLoop`, before `push_back`, in it and after it. -/
  | push (f : F)
  | pushing (f : F) (read : List F)
  | pushed
  /-- `doPendingFunctors`, before `swap`, in it and after it. -/
  | swap
  | swapping (read : List F)
  | swapped (functors : List F)
deriving DecidableEq

/-- Before the vector is read. -/
def Job.before : Job F → Bool
  | push _ | swap => true
  | pushing _ _ | pushed | swapping _ | swapped _ => false

/-- After it is written. -/
def Job.after : Job F → Bool
  | pushed | swapped _ => true
  | push _ | pushing _ _ | swap | swapping _ => false

/-- What has been read of the vector, and is used yet. -/
def Job.reads : Job F → Option (List F)
  | pushing _ read | swapping read => some read
  | push _ | pushed | swap | swapped _ => none

structure St (C F T : Type) where
  /-- `pendingFunctors` is the vector. -/
  loop : EventLoop.St C F T := {}
  mutex : Mutex.St (Option T) := {}
  job : Option T → Option (Job F) := fun _ => none

inductive Act (C F T : Type)
  /-- `queueInLoop` is called, and `doPendingFunctors` by `handleRead`. -/
  | queueInLoop (t : Option T) (f : F)
  | doPendingFunctors
  | mutex (a : Mutex.Act (Option T))
  /-- A thread reads the vector, and writes it. -/
  | read (t : Option T)
  | write (t : Option T)
  /-- `queueInLoop` and `doPendingFunctors` after their blocks. -/
  | wakeup (t : Option T)
  | runFunctors
  /-- Any other step of the loop. -/
  | loop (a : EventLoop.Act C F T)

variable {C F T : Type} [DecidableEq T]

/-- A thread goes on to this job. -/
def St.go (s : St C F T) (t : Option T) (j : Option (Job F)) (loop : EventLoop.St C F T) : St C F T :=
  { s with loop, job := Function.update s.job t j }

/-- The guard takes the mutex before the vector is used, and gives it up after
that. Nobody waits. -/
def guarded (s : St C F T) : Mutex.Act (Option T) → Prop
  | .acquire t | .setHolder t => ∃ j, s.job t = some j ∧ j.before = true
  | .clearHolder t | .release t => ∃ j, s.job t = some j ∧ j.after = true
  | .wait _ | .notify _ _ | .notifyAll _ | .spurious _ | .reacquire _ => False

def woken : EventLoop.Pc C F → Bool
  | .woken _ => true
  | _ => false

/-- The steps of the loop that have nothing to do with the queue. -/
def other : EventLoop.Act C F T → Bool
  | .advance | .poll _ | .quit | .setLoopCallback _ => true
  | .queueInLoop _ | .pushBack _ _ | .wakeup _ => false

def enabled (s : St C F T) : Act C F T → Prop
  | .queueInLoop t _ => s.job t = none ∧ (t = none → s.loop.pc.userCode = true)
  | .doPendingFunctors => s.job none = none ∧ woken s.loop.pc = true
  | .mutex a => guarded s a ∧ Mutex.enabled s.mutex a
  | .read t => s.mutex.place t = .inside ∧ ∃ j, s.job t = some j ∧ j.before = true
  | .write t => s.mutex.place t = .inside ∧ ∃ j, s.job t = some j ∧ j.reads.isSome = true
  | .wakeup t => s.mutex.place t = .outside ∧ s.job t = some .pushed
  | .runFunctors => s.mutex.place none = .outside ∧ ∃ functors, s.job none = some (.swapped functors)
  | .loop .quit => True
  | .loop a => s.job none = none ∧ other a = true ∧ woken s.loop.pc = false ∧
      (EventLoop.machine C F T).enabled s.loop a

/-- The loop over the functors is entered. -/
def enter (pc : EventLoop.Pc C F) (functors : List F) : EventLoop.Pc C F :=
  match pc with
  | .woken rest => .functors rest none functors
  | pc => pc

/-- The vector is read. -/
def Job.read (pendingFunctors : List F) : Job F → Job F
  | push f => pushing f pendingFunctors
  | swap => swapping pendingFunctors
  | j => j

/-- The vector is written. Who pushes, and what, is recorded. -/
def write (s : St C F T) (t : Option T) : Job F → St C F T
  | .pushing f read =>
    s.go t (some .pushed) { s.loop with
      pendingFunctors := read ++ [f], pushed := s.loop.pushed ++ [f], waking := t.toList ++ s.loop.waking }
  | .swapping read => s.go t (some (.swapped read)) { s.loop with pendingFunctors := [] }
  | _ => s

/-- `wakeup()`, in another thread or while functors run. -/
def wakeup (s : St C F T) : Option T → St C F T
  | some t =>
    s.go (some t) none { s.loop with wakeupFd := s.loop.wakeupFd + 1, waking := s.loop.waking.erase t }
  | none =>
    s.go none none (if s.loop.callingPendingFunctors then { s.loop with wakeupFd := s.loop.wakeupFd + 1 } else s.loop)

def exec (s : St C F T) : Act C F T → Option (St C F T)
  | .queueInLoop t f => some (s.go t (some (.push f)) s.loop)
  | .doPendingFunctors => some (s.go none (some .swap) { s.loop with callingPendingFunctors := true })
  | .mutex a => do
    let mutex ← Mutex.exec s.mutex a
    return { s with mutex }
  | .read t => do
    let j ← s.job t
    return s.go t (some (j.read s.loop.pendingFunctors)) s.loop
  | .write t => do
    let j ← s.job t
    return write s t j
  | .wakeup t => some (wakeup s t)
  | .runFunctors => do
    let j ← s.job none
    match j with
    | .swapped functors => return s.go none none { s.loop with pc := enter s.loop.pc functors }
    | _ => none
  | .loop a => do
    let loop ← (EventLoop.machine C F T).exec s.loop a
    return { s with loop }

def machine (C F T : Type) [DecidableEq T] : Machine (St C F T) (Act C F T) where
  init := {}
  enabled := enabled
  exec := exec


instance decidableJob (j : Option (Job F)) (p : Job F → Bool) : Decidable (∃ k, j = some k ∧ p k = true) :=
  match j with
  | none => .isFalse nofun
  | some k => decidable_of_iff (p k = true) ⟨fun h => ⟨k, rfl, h⟩, fun ⟨_, h, hp⟩ => Option.some.inj h ▸ hp⟩

instance decidableSwapped (j : Option (Job F)) : Decidable (∃ functors, j = some (.swapped functors)) :=
  match j with
  | some (.swapped functors) => .isTrue ⟨functors, rfl⟩
  | none | some (.push _) | some (.pushing _ _) | some .pushed | some .swap | some (.swapping _) => .isFalse nofun

instance decidableGuarded (s : St C F T) : ∀ a, Decidable (guarded s a)
  | .acquire t | .setHolder t => decidableJob (s.job t) Job.before
  | .clearHolder t | .release t => decidableJob (s.job t) Job.after
  | .wait _ | .notify _ _ | .notifyAll _ | .spurious _ | .reacquire _ => .isFalse id

instance [Fintype T] [DecidableEq C] [DecidableEq F] (s : St C F T) : ∀ a, Decidable ((machine C F T).enabled s a)
  | .queueInLoop t _ => inferInstanceAs (Decidable (s.job t = none ∧ (t = none → s.loop.pc.userCode = true)))
  | .doPendingFunctors => inferInstanceAs (Decidable (s.job none = none ∧ woken s.loop.pc = true))
  | .mutex a => inferInstanceAs (Decidable (guarded s a ∧ (Mutex.machine (Option T)).enabled s.mutex a))
  | .read t => inferInstanceAs (Decidable (s.mutex.place t = .inside ∧ ∃ j, s.job t = some j ∧ j.before = true))
  | .write t => inferInstanceAs (Decidable (s.mutex.place t = .inside ∧ ∃ j, s.job t = some j ∧ j.reads.isSome = true))
  | .wakeup t => inferInstanceAs (Decidable (s.mutex.place t = .outside ∧ s.job t = some .pushed))
  | .runFunctors =>
    inferInstanceAs (Decidable (s.mutex.place none = .outside ∧ ∃ functors, s.job none = some (.swapped functors)))
  | .loop .quit => inferInstanceAs (Decidable True)
  | .loop .advance | .loop (.poll _) | .loop (.setLoopCallback _) | .loop (.queueInLoop _) | .loop (.pushBack _ _)
  | .loop (.wakeup _) =>
    inferInstanceAs (Decidable (s.job none = none ∧ _ = true ∧ woken s.loop.pc = false ∧
      (EventLoop.machine C F T).enabled s.loop _))

/-! ## The loop as it is seen -/

/-- The loop as `EventLoop.machine` has it, where its thread is in the middle of
`queueInLoop` or of `doPendingFunctors`. -/
def view (loop : EventLoop.St C F T) : Option (Job F) → EventLoop.St C F T
  | some .pushed => if loop.callingPendingFunctors then { loop with wakeupFd := loop.wakeupFd + 1 } else loop
  | some .swap | some (.swapping _) => { loop with callingPendingFunctors := false }
  | some (.swapped functors) => { loop with pc := enter loop.pc functors }
  | some (.push _) | some (.pushing _ _) | none => loop

def abs (s : St C F T) : EventLoop.St C F T := view s.loop (s.job none)

/-- A push and a swap are where the vector is written. -/
def act (s : St C F T) : Act C F T → Option (EventLoop.Act C F T)
  | .write t =>
    match t, s.job t with
    | none, some (.pushing f _) => some (.queueInLoop f)
    | some t, some (.pushing f _) => some (.pushBack t f)
    | none, some (.swapping _) => some .advance
    | _, _ => none
  | .wakeup (some t) => some (.wakeup t)
  | .loop a => some a
  | .queueInLoop _ _ | .doPendingFunctors | .mutex _ | .read _ | .wakeup none | .runFunctors => none

/-- In `doPendingFunctors`. -/
def Job.swaps : Job F → Bool
  | swap | swapping _ | swapped _ => true
  | push _ | pushing _ _ | pushed => false

/-- Where a thread is with the mutex, and where with its job. -/
def Fits (p : Mutex.Place) : Option (Job F) → Prop
  | none => p = .outside
  | some j => p = .inside ∨ (p = .outside ∧ (j.before = true ∨ j.after = true)) ∨
      (p = .acquired ∧ j.before = true) ∨ (p = .releasing ∧ j.after = true)

/-! ## What the threads keep -/

structure Inv (s : St C F T) : Prop where
  entered : EventLoop.Entered s.loop
  held : Mutex.Held s.mutex
  fits : ∀ t, Fits (s.mutex.place t) (s.job t)
  /-- What a thread has read of the vector is what the vector holds. -/
  reads : ∀ t j read, s.job t = some j → j.reads = some read → read = s.loop.pendingFunctors
  others : ∀ t j, s.job (some t) = some j → j.swaps = false
  swaps : ∀ j, s.job none = some j → j.swaps = true → woken s.loop.pc = true ∧ s.loop.callingPendingFunctors = true
  pushes : ∀ j, s.job none = some j → j.swaps = false → s.loop.pc.userCode = true
  calling : s.loop.callingPendingFunctors = true →
    s.loop.pc.inBatch = true ∨ ∃ j, s.job none = some j ∧ j.swaps = true
  waking : ∀ t, t ∈ s.loop.waking ↔ s.job (some t) = some .pushed
  nodup : s.loop.waking.Nodup

theorem inv_init : Inv (machine C F T).init where
  entered := iff_of_true rfl rfl
  held := Mutex.held_init
  fits _ := rfl
  reads := nofun
  others := nofun
  swaps := nofun
  pushes := nofun
  calling := nofun
  waking _ := iff_of_false nofun nofun
  nodup := List.nodup_nil

variable {s s' : St C F T} {a : Act C F T} {t u : Option T} {j : Option (Job F)} {loop : EventLoop.St C F T}

@[simp, grind =] theorem go_loop : (s.go t j loop).loop = loop := rfl

@[simp, grind =] theorem go_mutex : (s.go t j loop).mutex = s.mutex := rfl

@[grind =] theorem go_job : (s.go t j loop).job u = if u = t then j else s.job u := Function.update_apply ..

omit [DecidableEq T] in
theorem Fits.awake {p : Mutex.Place} (h : Fits p j) : p ≠ .waiting ∧ p ≠ .woken := by
  cases j <;> grind [Fits]

omit [DecidableEq T] in
/-- Who has read the vector has the mutex. -/
theorem Inv.reading (I : Inv s) {k : Job F} {read : List F} (hk : s.job u = some k) (hr : k.reads = some read) :
    s.mutex.place u = .inside := by
  have hf := I.fits u
  rw [hk] at hf
  cases k with
  | pushing _ _ | swapping _ => simpa [Fits, Job.before, Job.after] using hf
  | push _ | pushed | swap | swapped _ => cases hr

omit [DecidableEq T] in
/-- Who has the mutex is the only one with it. -/
theorem Inv.alone (I : Inv s) (ht : s.mutex.place t = .inside) (hu : (s.mutex.place u).owns = true) : u = t := by
  have h1 := (I.held.owner t).2 (by rw [ht]; rfl)
  have h2 := (I.held.owner u).2 hu
  rw [h1] at h2
  exact (Option.some.inj h2).symm

/-- A thread goes on, and no thread in the middle of a `push_back` or a `swap`
is disturbed. -/
theorem Inv.go (I : Inv s) (he : EventLoop.Entered loop) (hf : Fits (s.mutex.place t) j)
    (hread : ∀ k read, j = some k → k.reads = some read → read = loop.pendingFunctors)
    (halone : loop.pendingFunctors = s.loop.pendingFunctors ∨ s.mutex.place t = .inside)
    (hother : ∀ k, t ≠ none → j = some k → k.swaps = false)
    (hswaps : ∀ k, (if t = none then j else s.job none) = some k → k.swaps = true →
      woken loop.pc = true ∧ loop.callingPendingFunctors = true)
    (hpushes : ∀ k, (if t = none then j else s.job none) = some k → k.swaps = false → loop.pc.userCode = true)
    (hcalling : loop.callingPendingFunctors = true →
      loop.pc.inBatch = true ∨ ∃ k, (if t = none then j else s.job none) = some k ∧ k.swaps = true)
    (hwaking : ∀ u, u ∈ loop.waking ↔ (if some u = t then j else s.job (some u)) = some .pushed)
    (hn : loop.waking.Nodup) : Inv (s.go t j loop) where
  entered := he
  held := I.held
  fits u := by
    have := I.fits u
    grind
  reads u k read hk hr := by
    rw [go_job] at hk
    split at hk
    · exact hread k read hk hr
    · rename_i hne
      rw [go_loop]
      rcases halone with h | h
      · rw [h]
        exact I.reads u k read hk hr
      · exact absurd (I.alone h (by rw [I.reading hk hr]; rfl)) hne
  others u k hk := by
    rw [go_job] at hk
    split at hk
    · rename_i h
      exact hother k (h ▸ nofun) hk
    · exact I.others u k hk
  swaps k hk := hswaps k (by grind)
  pushes k hk := hpushes k (by grind)
  calling h := by
    have := hcalling h
    grind
  waking u := by
    rw [go_job]
    exact hwaking u
  nodup := hn

end Cppnetool.EventLoopMutex
