import Mathlib.Data.Fintype.Sets
import Cppnetool.EventLoopThread
import Cppnetool.Lib.Simulation
import Cppnetool.Mutex
/-!
# How `startLoop` waits for the worker

`startLoop` and `threadFunc` of `net/EventLoopThread.cc` with the steps of
`MutexLockGuard` and of `Condition`: the owner tests `loop_` and waits until it
is set, the worker sets it and notifies. The notification may come before the
owner waits, while it waits, or never be needed; the owner may wake up for no
reason.

With the locked block of the worker as one step this is
`EventLoopThread.machine` (`step_simulates`).
-/
open Lib

namespace Cppnetool.EventLoopThreadStart

/-- The worker, and the owner that starts it. -/
inductive Party
  | owner
  | worker
deriving DecidableEq

instance : Fintype Party := ⟨{.owner, .worker}, fun t => by cases t <;> decide⟩

/-- What a thread does next in its locked block, or at its ends. -/
inductive Job
  /-- The test of `loop_`, by the owner: at first, and after each `wait()`. -/
  | testing
  /-- It was `NULL`. -/
  | sleeping
  /-- The write of `loop_`, by the worker, and the `notify()` after it. -/
  | publishing
  | notifying
  /-- The end of the block. -/
  | leaving
deriving DecidableEq

structure St (C F T : Type) where
  base : EventLoopThread.St C F T := {}
  mutex : Mutex.St Party := {}
  job : Party → Option Job := fun _ => none

inductive Act (C F T : Type)
  /-- `thread_.start()`. -/
  | startLoop
  | mutex (a : Mutex.Act Party)
  | test
  | publish
  /-- A thread is past its block. -/
  | leave (t : Party)
  /-- Any other step of `EventLoopThread.machine`. -/
  | base (a : EventLoopThread.Act C F T)

variable {C F T : Type}

/-- A thread goes on to this job. -/
def St.go (s : St C F T) (t : Party) (j : Option Job) : St C F T := { s with job := Function.update s.job t j }

/-- The calls of the lock and of the condition, as the two functions make them. -/
def guarded (s : St C F T) : Mutex.Act Party → Prop
  | .acquire t | .setHolder t => s.job t = some .testing ∨ s.job t = some .publishing
  | .wait t => s.job t = some .sleeping
  | .spurious t | .reacquire t => s.job t = some .testing
  | .notify t _ => s.job t = some .notifying
  | .clearHolder t | .release t => s.job t = some .leaving
  | .notifyAll _ => False

/-- The step of `EventLoopThread.machine` is not one of the two functions'. The
worker takes its own steps after its block, and the owner after its. -/
def other (s : St C F T) : EventLoopThread.Act C F T → Prop
  | .startLoop | .notify | .startLoopReturns => False
  | .loop .advance => s.job .worker = none
  | .destroy => s.job .owner = none
  | .loop _ | .quit | .join => True

def enabled [DecidableEq T] (s : St C F T) : Act C F T → Prop
  | .startLoop => s.base.owner = .constructed
  | .mutex a => guarded s a ∧ Mutex.enabled s.mutex a
  | .test => s.mutex.place .owner = .inside ∧ s.job .owner = some .testing
  | .publish => s.mutex.place .worker = .inside ∧ s.job .worker = some .publishing
  | .leave t => s.mutex.place t = .outside ∧ s.job t = some .leaving
  | .base a => other s a ∧ (EventLoopThread.machine C F T).enabled s.base a

/-- What a call of the condition is followed by. -/
def follow (s : St C F T) : Mutex.Act Party → St C F T
  | .wait t => s.go t (some .testing)
  | .notify t _ => s.go t (some .leaving)
  | _ => s

def exec [DecidableEq T] (s : St C F T) : Act C F T → Option (St C F T)
  | .startLoop => do
    let base ← (EventLoopThread.machine C F T).exec s.base .startLoop
    return ({ s with base }.go .owner (some .testing)).go .worker (some .publishing)
  | .mutex a => do
    let mutex ← Mutex.exec s.mutex a
    return { follow s a with mutex }
  | .test => some (s.go .owner (some (if s.base.published then .leaving else .sleeping)))
  | .publish => do
    let base ← (EventLoopThread.machine C F T).exec s.base .notify
    return { s with base }.go .worker (some .notifying)
  | .leave .owner => do
    let base ← (EventLoopThread.machine C F T).exec s.base .startLoopReturns
    return { s with base }.go .owner none
  | .leave .worker => some (s.go .worker none)
  | .base a => do
    let base ← (EventLoopThread.machine C F T).exec s.base a
    return { s with base }

def machine (C F T : Type) [DecidableEq T] : Machine (St C F T) (Act C F T) where
  init := {}
  enabled := enabled
  exec := exec

/-- What `EventLoopThread.machine` sees of a step. -/
def act (_ : St C F T) : Act C F T → Option (EventLoopThread.Act C F T)
  | .startLoop => some .startLoop
  | .publish => some .notify
  | .leave .owner => some .startLoopReturns
  | .base a => some a
  | .mutex _ | .test | .leave .worker => none

instance decidableGuarded (s : St C F T) : ∀ a, Decidable (guarded s a)
  | .acquire _ | .setHolder _ => inferInstanceAs (Decidable (_ ∨ _))
  | .wait _ | .spurious _ | .reacquire _ | .notify _ _ | .clearHolder _ | .release _ =>
    inferInstanceAs (Decidable (_ = _))
  | .notifyAll _ => .isFalse id

instance decidableOther (s : St C F T) : ∀ a, Decidable (other s a)
  | .startLoop | .notify | .startLoopReturns => .isFalse id
  | .loop .advance | .destroy => inferInstanceAs (Decidable (_ = _))
  | .loop (.poll _) | .loop (.queueInLoop _) | .loop (.pushBack _ _) | .loop (.wakeup _) | .loop .quit
  | .loop (.setLoopCallback _) | .quit | .join => .isTrue trivial

instance [DecidableEq C] [DecidableEq T] (s : St C F T) : ∀ a, Decidable ((machine C F T).enabled s a)
  | .startLoop => inferInstanceAs (Decidable (_ = _))
  | .mutex a => inferInstanceAs (Decidable (guarded s a ∧ (Mutex.machine Party).enabled s.mutex a))
  | .test | .publish | .leave _ => inferInstanceAs (Decidable (_ = _ ∧ _ = _))
  | .base a => inferInstanceAs (Decidable (other s a ∧ (EventLoopThread.machine C F T).enabled s.base a))

/-! ## Where the two are -/

/-- Where a thread is with the mutex, and where with its job. -/
def Fits (p : Mutex.Place) : Party → Option Job → Prop
  | _, none => p = .outside
  | .owner, some .testing => p ≠ .releasing
  | .owner, some .sleeping => p = .inside
  | .worker, some .publishing => p = .outside ∨ p = .acquired ∨ p = .inside
  | .worker, some .notifying => p = .inside
  | _, some .leaving => p = .inside ∨ p = .releasing ∨ p = .outside
  | .owner, some .publishing | .owner, some .notifying | .worker, some .testing | .worker, some .sleeping => False

structure Inv (s : St C F T) : Prop where
  placed : EventLoopThread.Placed s.base
  held : Mutex.Held s.mutex
  fits : ∀ t, Fits (s.mutex.place t) t (s.job t)
  waits : s.job .owner ≠ none ↔ s.base.owner = .waiting
  starting : s.job .worker = some .publishing ↔ s.base.worker = .starting
  started : s.base.owner = .waiting → s.base.worker ≠ .absent
  absent : s.base.worker = .absent → s.job .worker = none
  found : s.job .owner = some .leaving → s.base.published = true
  null : s.job .owner = some .sleeping → s.base.published = false
  /-- The owner does not wait for a notification that has been. -/
  asleep : s.mutex.place .owner = .waiting → s.job .worker = some .publishing ∨ s.job .worker = some .notifying

theorem inv_init : Inv ({} : St C F T) where
  placed := EventLoopThread.placed_init
  held := Mutex.held_init
  fits _ := rfl
  waits := by simp
  starting := by simp
  started := nofun
  absent _ := rfl
  found := nofun
  null := nofun
  asleep := nofun

variable {s s' : St C F T} {t u : Party} {j : Option Job}

/-! ## What a step keeps -/

@[simp, grind =] theorem go_base : (s.go t j).base = s.base := rfl

@[simp, grind =] theorem go_mutex : (s.go t j).mutex = s.mutex := rfl

@[grind =] theorem go_job : (s.go t j).job u = if u = t then j else s.job u := Function.update_apply ..

theorem Inv.owner (I : Inv s) (h : s.job t = some .testing ∨ s.job t = some .sleeping) : t = .owner := by
  have hf := I.fits t
  cases t <;> grind [Fits]

theorem Inv.worker (I : Inv s) (h : s.job t = some .publishing ∨ s.job t = some .notifying) : t = .worker := by
  have hf := I.fits t
  cases t <;> grind [Fits]

/-- Only the owner waits, between two tests. -/
theorem Inv.waiting (I : Inv s) (h : s.mutex.place t = .waiting ∨ s.mutex.place t = .woken) :
    t = .owner ∧ s.job t = some .testing := by
  have hf := I.fits t
  cases hj : s.job t with
  | none => grind [Fits]
  | some k => cases t <;> cases k <;> grind [Fits]

/-- A thread takes the mutex, or gives it up. -/
theorem Inv.move (I : Inv s) {mutex : Mutex.St Party} (H : Mutex.Held mutex)
    (hf : ∀ u, Fits (mutex.place u) u (s.job u)) (ha : mutex.place .owner = .waiting → s.mutex.place .owner = .waiting) :
    Inv { s with mutex } :=
  { I with held := H, fits := hf, asleep := fun h => I.asleep (ha h) }

/-- The owner waits where it has found `loop_` `NULL` with the mutex: the
worker has not been in its block. -/
theorem step_wait (I : Inv s) {mutex : Mutex.St Party} (H : Mutex.Held mutex) (hj : s.job .owner = some .sleeping)
    (hp : ∀ u, mutex.place u = if u = .owner then .waiting else s.mutex.place u) :
    Inv { s.go .owner (some .testing) with mutex } := by
  have hpub := I.null hj
  have hw : s.job .worker = some .publishing := by
    refine I.starting.2 ?_
    have h := I.placed.published
    have := I.started (I.waits.1 (by rw [hj]; nofun))
    rw [hpub] at h
    grind
  refine ⟨I.placed, H, fun u => ?_, ?_, ?_, I.started, ?_, ?_, ?_, ?_⟩
  · have := I.fits u
    cases u <;> grind [Fits]
  · have := I.waits
    grind
  · have := I.starting
    grind
  · have := I.absent
    grind
  · grind
  · grind
  · exact fun _ => .inl hw

/-- Who is woken up is the owner; it is not in `wait()` after that. -/
theorem step_notify (I : Inv s) {mutex : Mutex.St Party} (H : Mutex.Held mutex) (hj : s.job .worker = some .notifying)
    (hp : ∀ u, mutex.place u = s.mutex.place u ∨ (s.mutex.place u = .waiting ∧ mutex.place u = .woken))
    (ha : mutex.place .owner ≠ .waiting) : Inv { s.go .worker (some .leaving) with mutex } := by
  refine ⟨I.placed, H, fun u => ?_, ?_, ?_, I.started, ?_, ?_, ?_, fun h => absurd h ha⟩
  · have hf := I.fits u
    rcases hp u with h | ⟨h, h'⟩
    · rw [h]
      cases u <;> grind [Fits]
    · obtain ⟨rfl, ht⟩ := I.waiting (.inl h)
      rw [h', go_job, if_neg nofun, ht]
      nofun
  · have := I.waits
    grind
  · have := I.starting
    grind
  · have := I.absent
    grind
  · have := I.found
    grind
  · have := I.null
    grind

theorem step_mutex (I : Inv s) {a : Mutex.Act Party} (hg : guarded s a) (ha : Mutex.enabled s.mutex a) :
    ∃ mutex, Mutex.exec s.mutex a = some mutex ∧ Inv { follow s a with mutex } := by
  obtain ⟨m, hx, hm⟩ := Mutex.step_held I.held ha
  refine ⟨m, hx, ?_⟩
  cases a with
  | acquire t | setHolder t | spurious t | reacquire t | clearHolder t =>
    cases hx
    refine I.move hm (fun u => ?_) ?_
    · have := I.fits u
      cases u <;> grind [Fits, Mutex.place_move, guarded, Mutex.enabled]
    · grind [Mutex.place_move]
  | release t =>
    obtain ⟨-, -, hx⟩ := Option.bind_eq_some_iff.1 hx
    cases hx
    refine I.move hm (fun u => ?_) ?_
    · have := I.fits u
      cases u <;> grind [Fits, Mutex.place_move, guarded, Mutex.enabled]
    · grind [Mutex.place_move]
  | wait t =>
    obtain ⟨-, -, hx⟩ := Option.bind_eq_some_iff.1 hx
    cases hx
    obtain rfl := I.owner (.inr hg)
    exact step_wait I hm hg fun u => Mutex.place_move ..
  | notify t u =>
    obtain rfl := I.worker (.inr hg)
    cases u with
    | none =>
      cases hx
      exact step_notify I hm hg (fun _ => .inl rfl) (ha.2 .owner)
    | some u =>
      cases hx
      have hw := ha.2
      obtain ⟨rfl, -⟩ := I.waiting (.inl hw)
      refine step_notify I hm hg (fun v => ?_) ?_ <;> grind [Mutex.place_move]
  | notifyAll t => exact hg.elim

theorem step_test (I : Inv s) (hp : s.mutex.place .owner = .inside) (hj : s.job .owner = some .testing) :
    Inv (s.go .owner (some (if s.base.published then .leaving else .sleeping))) := by
  refine ⟨I.placed, I.held, fun u => ?_, ?_, ?_, I.started, ?_, ?_, ?_, ?_⟩
  · have := I.fits u
    cases u <;> grind [Fits]
  · have := I.waits
    grind
  · have := I.starting
    grind
  · have := I.absent
    grind
  · grind
  · grind
  · have := I.asleep
    grind

variable [DecidableEq T]

theorem step_startLoop (I : Inv s) (ho : s.base.owner = .constructed) :
    ∃ s', exec s .startLoop = some s' ∧ Inv s' ∧
      Step (EventLoopThread.machine C F T) s.base (some .startLoop) s'.base := by
  have hs := I.placed.fresh ho
  set base : EventLoopThread.St C F T := { s.base with started := true, worker := .starting, owner := .waiting }
  have hx : (EventLoopThread.machine C F T).exec s.base .startLoop = some base := assert_bind hs
  have hw := I.placed.started.1 hs
  have hpub : s.base.published = false := by
    have := I.placed.published
    grind
  have hnone : s.job .owner = none := by
    have := I.waits
    grind
  refine ⟨({ s with base }.go .owner (some .testing)).go .worker (some .publishing), by rw [exec, hx]; rfl,
    ⟨EventLoopThread.step_placed (b := .startLoop) I.placed ho hx, I.held, fun u => ?_, ?_, ?_, ?_, ?_, ?_, ?_, ?_⟩,
    Step.some (b := EventLoopThread.Act.startLoop) ho hx⟩
  · have := I.fits u
    have := I.absent hw
    cases u <;> grind [Fits]
  · grind
  · grind
  · grind
  · nofun
  · grind
  · grind
  · grind

theorem step_publish (I : Inv s) (hp : s.mutex.place .worker = .inside) (hj : s.job .worker = some .publishing) :
    ∃ s', exec s .publish = some s' ∧ Inv s' ∧ Step (EventLoopThread.machine C F T) s.base (some .notify) s'.base := by
  have hw := I.starting.1 hj
  refine ⟨_, rfl, ⟨EventLoopThread.step_placed I.placed (b := .notify) hw rfl, I.held, fun u => ?_, ?_, ?_, ?_, ?_, ?_, ?_, ?_⟩,
    Step.some (b := EventLoopThread.Act.notify) hw rfl⟩
  · have := I.fits u
    cases u <;> grind [Fits]
  · have := I.waits
    grind
  · grind
  · nofun
  · nofun
  · exact fun _ => rfl
  · intro h
    have hf := I.fits .owner
    rw [go_job, if_neg nofun] at h
    rw [h] at hf
    have h1 := (I.held.owner .owner).2 (by rw [show s.mutex.place .owner = .inside from hf]; rfl)
    have h2 := (I.held.owner .worker).2 (by rw [hp]; rfl)
    cases h1.symm.trans h2
  · grind

theorem step_leave (I : Inv s) (hp : s.mutex.place t = .outside) (hj : s.job t = some .leaving) :
    ∃ s', exec s (.leave t) = some s' ∧ Inv s' ∧
      Step (EventLoopThread.machine C F T) s.base (act s (.leave t)) s'.base := by
  cases t with
  | owner =>
    have ho : (EventLoopThread.machine C F T).enabled s.base .startLoopReturns :=
      ⟨I.waits.1 (by rw [hj]; nofun), I.found hj⟩
    refine ⟨_, rfl, ⟨EventLoopThread.step_placed (b := .startLoopReturns) I.placed ho rfl, I.held, fun u => ?_, ?_, ?_, ?_,
      ?_, ?_, ?_, ?_⟩, Step.some (b := EventLoopThread.Act.startLoopReturns) ho rfl⟩
    · have := I.fits u
      cases u <;> grind [Fits]
    · grind
    · have := I.starting
      grind
    · nofun
    · have := I.absent
      grind
    · grind
    · grind
    · grind
  | worker =>
    refine ⟨_, rfl, ⟨I.placed, I.held, fun u => ?_, ?_, ?_, I.started, ?_, ?_, ?_, ?_⟩, .none rfl⟩
    · have := I.fits u
      cases u <;> grind [Fits]
    · have := I.waits
      grind
    · have := I.starting
      grind
    · grind
    · have := I.found
      grind
    · have := I.null
      grind
    · have := I.asleep
      grind

/-- What the other steps leave to the two functions. -/
theorem other_step {a : EventLoopThread.Act C F T} {base : EventLoopThread.St C F T} (P : EventLoopThread.Placed s.base)
    (ho : other s a) (ha : (EventLoopThread.machine C F T).enabled s.base a)
    (hx : (EventLoopThread.machine C F T).exec s.base a = some base) :
    base.published = s.base.published ∧ (base.worker = .starting ↔ s.base.worker = .starting) ∧
      (base.worker = .absent ↔ s.base.worker = .absent) ∧
      (base.owner = .waiting ↔ s.base.owner = .waiting) := by
  cases a with
  | startLoop | notify | startLoopReturns => exact ho.elim
  | loop a =>
    obtain ⟨-, loop, -, rfl⟩ := EventLoopThread.loop_cases hx
    have hw := P.published.1 (P.of_mayTake ha.2)
    have hf := EventLoopThread.follow_published hw loop.pc
    exact ⟨rfl, iff_of_false hf.2 hw.2, iff_of_false hf.1 hw.1, Iff.rfl⟩
  | destroy =>
    cases hx
    refine ⟨rfl, Iff.rfl, Iff.rfl, iff_of_false nofun ?_⟩
    rcases ha with h | h <;> rw [h] <;> nofun
  | quit =>
    obtain ⟨_, -, hx⟩ := Option.bind_eq_some_iff.1 hx
    obtain ⟨_, -, hx⟩ := Option.bind_eq_some_iff.1 hx
    cases hx
    exact ⟨rfl, Iff.rfl, Iff.rfl, iff_of_false nofun (by rw [show s.base.owner = .quitting from ha]; nofun)⟩
  | join =>
    obtain ⟨_, -, hx⟩ := Option.bind_eq_some_iff.1 hx
    obtain ⟨_, -, hx⟩ := Option.bind_eq_some_iff.1 hx
    cases hx
    exact ⟨rfl, Iff.rfl, Iff.rfl, iff_of_false nofun (by rw [ha.1]; nofun)⟩

theorem step_base (I : Inv s) {a : EventLoopThread.Act C F T} (ho : other s a)
    (ha : (EventLoopThread.machine C F T).enabled s.base a) {base : EventLoopThread.St C F T}
    (hx : (EventLoopThread.machine C F T).exec s.base a = some base) : Inv { s with base } := by
  obtain ⟨h1, h2, h3, h4⟩ := other_step I.placed ho ha hx
  refine ⟨EventLoopThread.step_placed I.placed ha hx, I.held, I.fits, I.waits.trans h4.symm, I.starting.trans h2.symm,
    fun h => ?_, fun h => I.absent (h3.1 h), fun h => h1.trans (I.found h), fun h => h1.trans (I.null h), I.asleep⟩
  exact fun h' => I.started (h4.1 h) (h3.1 h')

/-- Every step keeps the invariant, and is at most one step of
`EventLoopThread.machine`. -/
theorem step_simulates (I : Inv s) {a : Act C F T} (ha : enabled s a) (hx : exec s a = some s') :
    Inv s' ∧ Step (EventLoopThread.machine C F T) s.base (act s a) s'.base := by
  cases a with
  | startLoop =>
    obtain ⟨u, hu, h⟩ := step_startLoop I ha
    cases hu.symm.trans hx
    exact h
  | mutex a =>
    obtain ⟨mutex, hm, I'⟩ := step_mutex I ha.1 ha.2
    simp only [exec, hm] at hx
    cases hx
    refine ⟨I', .none ?_⟩
    cases a <;> rfl
  | test =>
    cases hx
    exact ⟨step_test I ha.1 ha.2, .none rfl⟩
  | publish =>
    obtain ⟨u, hu, h⟩ := step_publish I ha.1 ha.2
    cases hu.symm.trans hx
    exact h
  | leave t =>
    obtain ⟨u, hu, h⟩ := step_leave I ha.1 ha.2
    cases hu.symm.trans hx
    exact h
  | base a =>
    obtain ⟨base, hb, hx⟩ := Option.bind_eq_some_iff.1 hx
    cases hx
    exact ⟨step_base I ha.1 ha.2 hb, Step.some ha.2 hb⟩

end Cppnetool.EventLoopThreadStart
