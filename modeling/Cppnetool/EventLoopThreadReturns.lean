import Cppnetool.EventLoopThreadStart
import Cppnetool.Lib.Measure
/-!
# `startLoop` returns

However the owner and the worker take turns, `startLoop` comes to its end
(`startLoop_returns`): a notification is not lost, and what is left to do gets
less with every step, but for a thread that wakes up for no reason.
-/
open Lib

namespace Cppnetool.EventLoopThreadStart

variable {C F T : Type} [DecidableEq T] {s s' : St C F T}

/-! ## How long the two take -/

/-- The steps of the two functions; a thread that wakes up for no reason makes
none. -/
def Act.goesOn : Act C F T → Bool
  | .mutex (.spurious _) => false
  | .mutex _ | .test | .publish | .leave _ => true
  | .startLoop | .base _ => false

def Act.spurious : Act C F T → Bool
  | .mutex (.spurious _) => true
  | _ => false

/-- To get the mutex and write `holder_`, and to give it up and leave. -/
def toEnter : Mutex.Place → Nat
  | .outside => 3
  | .acquired => 2
  | _ => 1

def toLeave : Mutex.Place → Nat
  | .outside => 1
  | .releasing => 2
  | _ => 3

/-- The steps that a thread still takes, if it does not wake up for no reason. -/
def left (published : Bool) (p : Mutex.Place) : Option Job → Nat
  | none => 0
  | some .testing =>
    match p with
    | .waiting => 5
    | .woken => if published then 5 else 8
    | p => toEnter p + if published then 3 else 6
  | some .sleeping => 6
  | some .publishing => toEnter p + 4
  | some .notifying => 4
  | some .leaving => toLeave p

def St.left (s : St C F T) : Nat :=
  EventLoopThreadStart.left s.base.published (s.mutex.place .owner) (s.job .owner) +
    EventLoopThreadStart.left s.base.published (s.mutex.place .worker) (s.job .worker)

omit [DecidableEq T] in
theorem Inv.notifying (I : Inv s) (h : s.job .worker = some .notifying) : s.base.published = true := by
  refine I.placed.published.2 ⟨fun h' => ?_, fun h' => ?_⟩
  · rw [I.absent h'] at h
    cases h
  · rw [I.starting.2 h'] at h
    cases h

theorem left_published (p : Mutex.Place) (j : Option Job) : left true p j ≤ left false p j := by
  cases j with
  | none => exact Nat.le_refl _
  | some j => cases j <;> cases p <;> simp [left]

omit [DecidableEq T] in
theorem left_mutex (I : Inv s) {a : Mutex.Act Party} (hg : guarded s a) (ha : Mutex.enabled s.mutex a)
    {mutex : Mutex.St Party} (hx : Mutex.exec s.mutex a = some mutex) :
    (if (Act.mutex a : Act C F T).goesOn then 1 else 0) + ({ follow s a with mutex } : St C F T).left ≤
      s.left + if (Act.mutex a : Act C F T).spurious then 3 else 0 := by
  cases a with
  | acquire t | setHolder t | clearHolder t =>
    cases hx
    have := I.fits t
    cases t <;> grind [Act.goesOn, Act.spurious, St.left, left, toEnter, toLeave, Mutex.place_move, guarded, Mutex.enabled,
      follow, Fits]
  | release t =>
    obtain ⟨-, -, hx⟩ := Option.bind_eq_some_iff.1 hx
    cases hx
    cases t <;> grind [Act.goesOn, Act.spurious, St.left, left, toEnter, toLeave, Mutex.place_move, guarded, Mutex.enabled,
      follow]
  | wait t =>
    obtain ⟨-, -, hx⟩ := Option.bind_eq_some_iff.1 hx
    cases hx
    obtain rfl := I.owner (.inr hg)
    grind [Act.goesOn, Act.spurious, St.left, left, Mutex.place_move, guarded, follow]
  | notify t u =>
    obtain rfl := I.worker (.inr hg)
    have hpub := I.notifying hg
    have hp : s.mutex.place .worker = .inside := by
      have := I.fits .worker
      grind [Fits, guarded]
    cases u with
    | none =>
      cases hx
      grind [Act.goesOn, Act.spurious, St.left, left, toLeave, guarded, follow]
    | some u =>
      cases hx
      obtain ⟨rfl, ht⟩ := I.waiting (.inl ha.2)
      have hw : s.mutex.place .owner = .waiting := ha.2
      grind [Act.goesOn, Act.spurious, St.left, left, toLeave, Mutex.place_move, guarded, follow]
  | notifyAll t => exact hg.elim
  | spurious t =>
    cases hx
    obtain ⟨rfl, ht⟩ := I.waiting (.inl ha)
    grind [Act.goesOn, Act.spurious, St.left, left, Mutex.place_move, guarded, follow, Mutex.enabled]
  | reacquire t =>
    cases hx
    obtain ⟨rfl, -⟩ := I.waiting (.inr ha.1)
    grind [Act.goesOn, Act.spurious, St.left, left, toEnter, Mutex.place_move, guarded, follow, Mutex.enabled]

theorem left_step (I : Inv s) {a : Act C F T} (ha : enabled s a) (hx : exec s a = some s') (hne : a ≠ .startLoop) :
    (if a.goesOn then 1 else 0) + s'.left ≤ s.left + if a.spurious then 3 else 0 := by
  cases a with
  | startLoop => exact absurd rfl hne
  | mutex a =>
    obtain ⟨m, hm, hx⟩ := Option.bind_eq_some_iff.1 hx
    cases hx
    exact left_mutex I ha.1 ha.2 hm
  | test =>
    cases hx
    obtain ⟨hp, hj⟩ := ha
    grind [Act.goesOn, Act.spurious, St.left, left, toEnter, toLeave]
  | publish =>
    cases hx
    obtain ⟨hp, hj⟩ := ha
    have hpub : s.base.published = false := by
      have := I.starting.1 hj
      have := I.placed.published
      grind
    have := left_published (s.mutex.place .owner) (s.job .owner)
    grind [Act.goesOn, Act.spurious, St.left, left, toEnter]
  | leave t =>
    obtain ⟨hp, hj⟩ := ha
    cases t with
    | owner =>
      cases hx
      grind [Act.goesOn, Act.spurious, St.left, left, toEnter, toLeave]
    | worker =>
      cases hx
      grind [Act.goesOn, Act.spurious, St.left, left, toEnter, toLeave]
  | base a =>
    obtain ⟨base, hb, hx⟩ := Option.bind_eq_some_iff.1 hx
    cases hx
    have := (other_step I.placed ha.1 ha.2 hb).1
    simp only [Act.goesOn, Act.spurious, St.left, this]
    simp

/-- While `startLoop` runs, one of the two threads can go on. -/
theorem Inv.goesOn (I : Inv s) (ho : s.base.owner = .waiting) : ∃ a : Act C F T, a.goesOn = true ∧ enabled s a := by
  cases hm : s.mutex.owner with
  | some t =>
    have howns := (I.held.owner t).1 hm
    have hf := I.fits t
    cases hj : s.job t with
    | none =>
      rw [hj] at hf
      rw [show s.mutex.place t = .outside from hf] at howns
      cases howns
    | some j =>
      rw [hj] at hf
      cases j with
      | testing =>
        obtain rfl := I.owner (.inl hj)
        cases hp : s.mutex.place .owner with
        | acquired => exact ⟨.mutex (.setHolder .owner), rfl, .inl hj, hp⟩
        | inside => exact ⟨.test, rfl, hp, hj⟩
        | releasing => exact absurd hp hf
        | outside | waiting | woken =>
          rw [hp] at howns
          cases howns
      | sleeping =>
        obtain rfl := I.owner (.inr hj)
        exact ⟨.mutex (.wait .owner), rfl, hj, hf⟩
      | publishing =>
        obtain rfl := I.worker (.inl hj)
        rcases hf with h | h | h
        · rw [h] at howns
          cases howns
        · exact ⟨.mutex (.setHolder .worker), rfl, .inr hj, h⟩
        · exact ⟨.publish, rfl, h, hj⟩
      | notifying =>
        obtain rfl := I.worker (.inr hj)
        by_cases hw : s.mutex.place .owner = .waiting
        · exact ⟨.mutex (.notify .worker (some .owner)), rfl, hj, .inr hf, hw⟩
        · refine ⟨.mutex (.notify .worker none), rfl, hj, .inr hf, fun u hu => ?_⟩
          obtain ⟨rfl, -⟩ := I.waiting (.inl hu)
          exact hw hu
      | leaving =>
        have hf : s.mutex.place t = .inside ∨ s.mutex.place t = .releasing ∨ s.mutex.place t = .outside := by
          cases t <;> exact hf
        rcases hf with h | h | h
        · exact ⟨.mutex (.clearHolder t), rfl, hj, h⟩
        · exact ⟨.mutex (.release t), rfl, hj, h⟩
        · rw [h] at howns
          cases howns
  | none =>
    have hout (t : Party) : (s.mutex.place t).owns ≠ true := fun h => by
      have := (I.held.owner t).2 h
      rw [hm] at this
      cases this
    obtain ⟨j, hj⟩ := Option.ne_none_iff_exists'.1 (I.waits.2 ho)
    have hf := I.fits .owner
    have hnot := hout .owner
    rw [hj] at hf
    cases j with
    | leaving =>
      refine ⟨.leave .owner, rfl, ?_, hj⟩
      rcases hf with h | h | h <;> rw [h] at hnot <;> first | exact h | exact absurd rfl hnot
    | testing =>
      cases hp : s.mutex.place .owner with
      | outside => exact ⟨.mutex (.acquire .owner), rfl, .inl hj, hp, hm⟩
      | woken => exact ⟨.mutex (.reacquire .owner), rfl, hj, hp, hm⟩
      | waiting =>
        -- the notification is still to come
        have hw := hout .worker
        have hf := I.fits .worker
        rcases I.asleep hp with h | h
        · rw [h] at hf
          rcases hf with h' | h' | h'
          · exact ⟨.mutex (.acquire .worker), rfl, .inr h, h', hm⟩
          · rw [h'] at hw
            exact absurd rfl hw
          · rw [h'] at hw
            exact absurd rfl hw
        · rw [h] at hf
          rw [show s.mutex.place .worker = .inside from hf] at hw
          exact absurd rfl hw
      | acquired | inside | releasing =>
        rw [hp] at hnot
        exact absurd rfl hnot
    | sleeping =>
      rw [show s.mutex.place .owner = .inside from hf] at hnot
      exact absurd rfl hnot
    | publishing | notifying => exact hf.elim

/-! ## What a run is to the owner -/

/-- The owner never goes back. -/
theorem constructed_step {base base' : EventLoopThread.St C F T} {a : EventLoopThread.Act C F T}
    (hx : (EventLoopThread.machine C F T).exec base a = some base') (h : base'.owner = .constructed) :
    base.owner = .constructed := by
  cases a with
  | loop a =>
    obtain ⟨-, loop, -, rfl⟩ := EventLoopThread.loop_cases hx
    exact h
  | notify =>
    cases hx
    exact h
  | startLoopReturns | destroy =>
    cases hx
    cases h
  | startLoop =>
    obtain ⟨_, -, hx⟩ := Option.bind_eq_some_iff.1 hx
    cases hx
    cases h
  | quit | join =>
    obtain ⟨_, -, hx⟩ := Option.bind_eq_some_iff.1 hx
    obtain ⟨_, -, hx⟩ := Option.bind_eq_some_iff.1 hx
    cases hx
    cases h

/-- The same with `startLoop`, where it is still to be called. -/
def St.leftAll (s : St C F T) : Nat := s.left + if s.base.owner = .constructed then 16 else 0

theorem leftAll_step (I : Inv s) {a : Act C F T} (ha : enabled s a) (hx : exec s a = some s') :
    (if a.goesOn then 1 else 0) + s'.leftAll ≤ s.leftAll + if a.spurious then 3 else 0 := by
  by_cases hne : a = .startLoop
  · subst hne
    have ho : s.base.owner = .constructed := ha
    have hs := I.placed.fresh ho
    have hw := I.placed.started.1 hs
    have hpub := I.placed.published
    have hj : s.job .owner = none := by
      by_contra h
      rw [I.waits.1 h] at ho
      cases ho
    have hf1 := I.fits .owner
    have hf2 := I.fits .worker
    have hj' := I.absent hw
    obtain ⟨base, hb, hx⟩ := Option.bind_eq_some_iff.1 hx
    obtain ⟨_, -, hb⟩ := Option.bind_eq_some_iff.1 hb
    cases hb
    cases hx
    grind [St.leftAll, St.left, left, toEnter, Fits, Act.goesOn]
  · have hl := left_step I ha hx hne
    have hstep := (step_simulates I ha hx).2
    have ho : s'.base.owner = .constructed → s.base.owner = .constructed := by
      cases hb : act s a with
      | none =>
        rw [hb] at hstep
        rw [show s'.base = s.base from hstep]
        exact id
      | some b =>
        rw [hb] at hstep
        exact constructed_step hstep.2
    grind [St.leftAll]

/-- `startLoop` and the locked block of `threadFunc`, with the mutex and the
condition, are `EventLoopThread.machine`, where the block is one step and
`startLoop` returns when `loop_` is set. None of their steps fails, and in every
state that can be reached:
- the two have taken at most sixteen steps, and three more for each time that
  the owner has woken up for no reason;
- while `startLoop` runs, one of the two threads can go on;
- while the owner waits, the notification is still to come. -/
theorem startLoop_returns {tr : List (St C F T × Act C F T)} (h : Run (machine C F T) tr s) :
    Run (EventLoopThread.machine C F T) (seen St.base act tr) s.base ∧
    (∀ a, (∀ b, a ≠ .base b) → enabled s a → exec s a ≠ none) ∧
    tr.countP (fun p => p.2.goesOn) ≤ 16 + 3 * tr.countP (fun p => p.2.spurious) ∧
    (s.base.owner = .waiting → ∃ a : Act C F T, a.goesOn = true ∧ enabled s a) ∧
    (s.mutex.place .owner = .waiting → s.job .worker = some .publishing ∨ s.job .worker = some .notifying) := by
  obtain ⟨I, hrun⟩ := h.simulates Inv St.base act inv_init rfl fun s a s' I ha hx => step_simulates I ha hx
  refine ⟨hrun, fun a hb ha => ?_, ?_, I.goesOn, I.asleep⟩
  · have some_ne {o : Option (St C F T)} (h : ∃ s', o = some s') : o ≠ none := Option.ne_none_iff_exists'.2 h
    cases a with
    | startLoop =>
      obtain ⟨u, hu, -⟩ := step_startLoop I ha
      exact some_ne ⟨u, hu⟩
    | mutex a =>
      obtain ⟨mutex, hm, -⟩ := step_mutex I ha.1 ha.2
      exact some_ne ⟨{ follow s a with mutex }, by simp [exec, hm]⟩
    | test => exact some_ne ⟨_, rfl⟩
    | publish =>
      obtain ⟨u, hu, -⟩ := step_publish I ha.1 ha.2
      exact some_ne ⟨u, hu⟩
    | leave t =>
      obtain ⟨u, hu, -⟩ := step_leave I ha.1 ha.2
      exact some_ne ⟨u, hu⟩
    | base b => exact absurd rfl (hb b)
  · have : total (fun _ (a : Act C F T) => if a.goesOn then 1 else 0) tr + s.leftAll ≤
        16 + total (fun _ (a : Act C F T) => if a.spurious then 3 else 0) tr :=
      h.cost_le Inv (fun _ _ => True) St.leftAll
        (fun s a s' I ha _ hx => ⟨(step_simulates I ha hx).1, leftAll_step I ha hx⟩) (fun _ _ => trivial) inv_init
    rw [total_if (fun _ (a : Act C F T) => a.goesOn), total_if (fun _ (a : Act C F T) => a.spurious), Nat.one_mul] at this
    exact Nat.le_trans (Nat.le_add_right _ _) this

/-- The owner waits, wakes up for no reason, finds `NULL` and waits again. -/
theorem startLoop_returns_spurious : ∃ tr s, Run (machine Unit Unit Unit) tr s ∧ s.mutex.place .owner = .waiting ∧
    tr.countP (fun p => p.2.spurious) = 1 ∧ s.base.owner = .waiting ∧
    Run (EventLoopThread.machine Unit Unit Unit) (seen St.base act tr) s.base ∧
    tr.countP (fun p => p.2.goesOn) ≤ 16 + 3 * tr.countP (fun p => p.2.spurious) ∧
    (∃ a : Act Unit Unit Unit, a.goesOn = true ∧ enabled s a) ∧
    (s.job .worker = some .publishing ∨ s.job .worker = some .notifying) := by
  obtain ⟨r, hr, h1, h2, h3⟩ : ∃ r ∈ (machine Unit Unit Unit).play (machine Unit Unit Unit).init
      [.startLoop, .mutex (.acquire .owner), .mutex (.setHolder .owner), .test, .mutex (.wait .owner),
        .mutex (.spurious .owner), .mutex (.reacquire .owner), .test, .mutex (.wait .owner), .mutex (.acquire .worker)],
      r.2.mutex.place .owner = .waiting ∧ r.1.countP (fun p => p.2.spurious) = 1 ∧ r.2.base.owner = .waiting := by
    decide +kernel
  have hrun := Machine.play_steps hr
  obtain ⟨hbase, -, hcount, hgo, hasleep⟩ := startLoop_returns hrun
  exact ⟨r.1, r.2, hrun, h1, h2, h3, hbase, hcount, hgo h3, hasleep h1⟩

end Cppnetool.EventLoopThreadStart
