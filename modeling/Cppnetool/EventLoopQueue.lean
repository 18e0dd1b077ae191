import Cppnetool.EventLoop
/-!
# The functor queue

`doPendingFunctors` swaps the pending functors out under the mutex and runs
them without it, while any thread and the functors themselves go on pushing.
What has been started, what is left of the batch and what is pending are
together what has been pushed, in the order of the pushes (`functors_fifo`).
-/
open Lib

namespace Cppnetool.EventLoop

variable {C F T : Type} {s s' t : St C F T} {tr pre mid : List (St C F T × Act C F T)} {a : Act C F T}

/-- The functors that the steps of a run push, in the order of the locked blocks. -/
def pushedBy (tr : List (St C F T × Act C F T)) : List F := tr.flatMap fun p => p.2.pushes.toList

/-- The functors that the steps of a run start. -/
def startedBy (tr : List (St C F T × Act C F T)) : List F := tr.flatMap fun p => (p.2.starts p.1).toList

/-- In the loop over the functors of a batch. -/
def Pc.inBatch : Pc C F → Bool
  | functors _ _ _ => true
  | _ => false

/-! ## One step -/

theorem advance_log (hx : advance s = some s') :
    s'.executed = s.executed ++ s.pc.starts.toList ∧ s'.pushed = s.pushed := by
  unfold advance at hx
  split at hx <;> rename_i hpc <;> rw [hpc]
  case h_1 =>
    obtain ⟨_, -, hx⟩ := Option.bind_eq_some_iff.1 hx
    cases hx
    simp [Pc.starts]
  case h_2 => split at hx <;> cases hx <;> simp [Pc.starts]
  case h_3 => cases hx
  all_goals
    cases hx
    simp [Pc.starts]

theorem queueInLoop_log (s : St C F T) (f : F) :
    (queueInLoop s f).executed = s.executed ∧ (queueInLoop s f).pushed = s.pushed ++ [f] := by
  simp only [queueInLoop]
  split <;> exact ⟨rfl, rfl⟩

/-- In a batch, `advance` takes the next functor from it, or ends it. -/
theorem advance_batch (hp : s.pc.inBatch = true) (hx : advance s = some s') :
    s'.executed ++ s'.pc.todo = s.executed ++ s.pc.todo := by
  match hpc : s.pc with
  | .functors rest current [] =>
    simp only [advance, hpc] at hx
    cases hx
    rfl
  | .functors rest current (f :: todo) =>
    simp only [advance, hpc] at hx
    cases hx
    simp [Pc.todo]
  | .outside | .test | .poll | .dispatch _ | .handling _ _ | .woken _ | .loopCallback => rw [hpc] at hp; cases hp

variable [DecidableEq T]

/-- `executed` and `pushed` record what the steps start and push. -/
theorem step_log (hx : (machine C F T).exec s a = some s') :
    s'.executed = s.executed ++ (a.starts s).toList ∧ s'.pushed = s.pushed ++ a.pushes.toList := by
  cases a with
  | advance =>
    obtain ⟨h1, h2⟩ := advance_log hx
    exact ⟨h1, by rw [h2]; simp [Act.pushes]⟩
  | queueInLoop f =>
    cases hx
    obtain ⟨h1, h2⟩ := queueInLoop_log s f
    exact ⟨by rw [h1]; simp [Act.starts], h2⟩
  | pushBack t f => cases hx; exact ⟨by simp [Act.starts, push], rfl⟩
  | wakeup t | quit | setLoopCallback on | poll activeChannels =>
    cases hx
    simp [Act.starts, Act.pushes]

/-- While a batch runs, what it has started and what it has left stay together
the functors it began with. -/
theorem step_batch (hp : s.pc.inBatch = true) (he : (machine C F T).enabled s a)
    (hx : (machine C F T).exec s a = some s') : s'.executed ++ s'.pc.todo = s.executed ++ s.pc.todo := by
  cases a with
  | advance => exact advance_batch hp hx
  | queueInLoop f =>
    cases hx
    rw [(queueInLoop_log s f).1, queueInLoop_pc]
  | poll activeChannels =>
    have hpoll := he.1
    cases hpc : s.pc with
    | poll => rw [hpc] at hp; cases hp
    | _ => rw [hpc] at hpoll; cases hpoll
  | pushBack t f | wakeup t | quit | setLoopCallback on => cases hx; rfl

/-! ## Runs -/

theorem run_log (h : Run (machine C F T) tr s) : s.executed = startedBy tr ∧ s.pushed = pushedBy tr := by
  refine Steps.inv_trace (fun tr s => s.executed = startedBy tr ∧ s.pushed = pushedBy tr) ⟨rfl, rfl⟩ ?_ h
  rintro tr t a u - ⟨h1, h2⟩ - hx
  obtain ⟨hs, hp⟩ := step_log hx
  rw [hs, hp, h1, h2]
  simp [startedBy, pushedBy]

/-- The queue is first in, first out. -/
theorem run_queue (h : Run (machine C F T) tr s) : Entered s ∧ s.executed ++ s.queue = s.pushed := by
  refine h.inv (fun s => Entered s ∧ s.executed ++ s.queue = s.pushed) ⟨iff_of_true rfl rfl, rfl⟩ ?_
  rintro s a s' ⟨hE, hq⟩ he hx
  obtain ⟨_, hx', hE', hstep⟩ := step_queue hE he
  cases hx'.symm.trans hx
  obtain ⟨hs, hp⟩ := step_log hx
  refine ⟨hE', ?_⟩
  rw [hs, hp, ← hq, List.append_assoc, ← hstep, List.append_assoc]

/-- No step fails. In every run the functors started, the rest of the running
batch and the pending functors are the functors pushed, in order; and from the
swap on, until the loop thread has left the batch, the functors started and
the rest of the batch are those pushed before the swap. -/
theorem functors_fifo (C F T : Type) [DecidableEq T] :
    (machine C F T).Safe ∧ ∀ tr s, Run (machine C F T) tr s →
      startedBy tr ++ s.pc.todo ++ s.pendingFunctors = pushedBy tr ∧
      ∀ pre t rest mid, tr = pre ++ (t, .advance) :: mid → t.pc = .woken rest →
        (∀ p ∈ mid, p.1.pc.inBatch = true) → startedBy tr ++ s.pc.todo = pushedBy pre := by
  constructor
  · refine Machine.safe_of_inv Entered (iff_of_true rfl rfl) ?_
    intro s a hE he
    obtain ⟨s', hx, hE', -⟩ := step_queue hE he
    exact ⟨s', hx, hE'⟩
  · intro tr s h
    obtain ⟨hs, hp⟩ := run_log h
    refine ⟨?_, ?_⟩
    · rw [← hs, ← hp, List.append_assoc]
      exact (run_queue h).2
    · rintro pre t rest mid rfl hpc hmid
      obtain ⟨t₀, hpre, hbatch⟩ := Steps.split h
      cases hbatch with
      | cons he hx hmids =>
        rename_i t₁
        -- at the swap the batch is everything pending
        have h₁ : t₁.executed ++ t₁.pc.todo = t.pushed := by
          have := (run_queue hpre).2
          simp only [St.queue, hpc, Pc.todo, List.nil_append] at this
          simp only [machine, advance, hpc] at hx
          cases hx
          exact this
        obtain ⟨hend, -⟩ := hmids.keeps (fun u => u.executed ++ u.pc.todo = t.pushed)
          (fun u b u' hm hu hb hub => (step_batch (hmid (u, b) hm) hb hub).trans hu) h₁
        rw [← hs, hend, (run_log hpre).2]

/-- A batch of two: the first functor queues a third and another thread pushes
a fourth; after the batch these two are pending. -/
theorem functors_fifo_batch : ∃ tr s, Run (machine Unit Nat Unit) tr s ∧ startedBy tr = [1, 2] ∧
    s.pendingFunctors = [3, 4] ∧ startedBy tr ++ s.pc.todo ++ s.pendingFunctors = pushedBy tr := by
  obtain ⟨r, hr, hs, hp⟩ : ∃ r ∈ (machine Unit Nat Unit).play {}
      [.advance, .advance, .pushBack () 1, .wakeup (), .poll [.wakeup], .advance, .pushBack () 2, .advance,
        .advance, .queueInLoop 3, .wakeup (), .pushBack () 4, .advance, .advance],
      startedBy r.1 = [1, 2] ∧ r.2.pendingFunctors = [3, 4] := by decide +kernel
  have hrun := Machine.play_steps hr
  exact ⟨r.1, r.2, hrun, hs, hp, ((functors_fifo Unit Nat Unit).2 r.1 r.2 hrun).1⟩

end Cppnetool.EventLoop
