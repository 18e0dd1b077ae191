import Cppnetool.EventLoop
/-!
# Wakeups

Only the read handler of the wakeup channel drains `pendingFunctors_`, so a
loop that enters `poll` with functors pending relies on the eventfd.
`queueInLoop` in the loop thread writes to it only while a batch of functors is
being run.
-/
open Lib

namespace Cppnetool.EventLoop

variable {C F T : Type} {s s' : St C F T} {tr : List (St C F T × Act C F T)}

/-- The eventfd is readable, or another thread is about to make it so. -/
def Awake (s : St C F T) : Prop := 0 < s.wakeupFd ∨ s.waking ≠ []

instance [DecidableEq T] (s : St C F T) : Decidable (Awake s) := inferInstanceAs (Decidable (_ ∨ _))

/-- A push in the loop thread falls into a running batch, or the loop is awake
already. -/
def PushesAwake (s : St C F T) : Act C F T → Prop
  | .queueInLoop _ => s.callingPendingFunctors = true ∨ Awake s
  | _ => True

instance [DecidableEq T] (s : St C F T) : ∀ a, Decidable (PushesAwake s a)
  | .queueInLoop _ => inferInstanceAs (Decidable (_ ∨ _))
  | .pushBack _ _ => .isTrue trivial
  | .wakeup _ => .isTrue trivial
  | .quit => .isTrue trivial
  | .setLoopCallback _ => .isTrue trivial
  | .poll _ => .isTrue trivial
  | .advance => .isTrue trivial

/-- The loop thread has read the eventfd and is about to take the functors. -/
def Pc.taking : Pc C F → Prop
  | woken _ => True
  | _ => False

/-- What is pending will be taken. -/
def Noticed (s : St C F T) : Prop := s.pendingFunctors ≠ [] → Awake s ∨ s.pc.taking

theorem advance_noticed (h : Noticed s) (hx : advance s = some s') : Noticed s' := by
  intro hp
  unfold advance at hx
  split at hx <;> rename_i hpc <;> simp only [Noticed, hpc, Pc.taking, or_false] at h
  case h_1 =>
    obtain ⟨-, -, hx⟩ := Option.bind_eq_some_iff.1 hx
    cases hx
    exact .inl (h hp)
  case h_2 =>
    split at hx
    · cases hx; exact .inl (h hp)
    · cases hx; exact .inl (h hp)
  case h_3 => cases hx
  case h_4 => cases hx; exact .inr trivial
  case h_8 => cases hx; exact absurd rfl hp
  all_goals
    cases hx
    exact .inl (h hp)

/-- A push in the loop thread is noticed exactly when it is `PushesAwake`. -/
theorem queueInLoop_awake {f : F} : Awake (queueInLoop s f) ↔ PushesAwake s (.queueInLoop f) := by
  simp only [queueInLoop, PushesAwake]
  split
  · rename_i hc
    exact iff_of_true (.inl (Nat.succ_pos _)) (.inl hc)
  · rename_i hc
    exact ⟨.inr, fun h => h.resolve_left hc⟩

variable [DecidableEq T]

theorem step_noticed {a : Act C F T} (h : Noticed s) (he : (machine C F T).enabled s a) (hg : PushesAwake s a)
    (hx : (machine C F T).exec s a = some s') : Noticed s' := by
  cases a with
  | queueInLoop f => cases hx; exact fun _ => .inl (queueInLoop_awake.2 hg)
  | pushBack t f => cases hx; exact fun _ => .inl (.inr (List.cons_ne_nil _ _))
  | wakeup t => cases hx; exact fun _ => .inl (.inl (Nat.succ_pos _))
  | quit => cases hx; exact h
  | setLoopCallback on => cases hx; exact h
  | poll activeChannels =>
    cases hx
    intro hp
    refine .inl ((h hp).resolve_right ?_)
    intro ht
    have hpoll := he.1
    cases hpc : s.pc with
    | woken rest => rw [hpc] at hpoll; cases hpoll
    | _ => rw [hpc] at ht; exact ht
  | advance => exact advance_noticed h hx

/-- In a run in which the loop thread pushes functors only where `PushesAwake`
allows it, whenever it is about to enter `poll` with functors pending, the
eventfd is readable or another thread is about to write to it. -/
theorem no_lost_wakeup {tr : List (St C F T × Act C F T)} (h : Run (machine C F T) tr s)
    (hG : Meets PushesAwake tr) {t : St C F T} (ht : Visited tr s t) (hpc : t.pc = .poll)
    (hp : t.pendingFunctors ≠ []) : 0 < t.wakeupFd ∨ t.waking ≠ [] := by
  obtain ⟨pre, hr, hpre⟩ := Steps.visited h ht
  have hn : Noticed t := Run.inv_if Noticed PushesAwake (fun h => absurd rfl h)
    (fun s a s' hs he hg hx => step_noticed hs he hg hx) hr fun p hp => hG p (hpre.subset hp)
  -- in `poll` the loop thread is not about to take anything
  apply (hn hp).resolve_right
  intro h
  rw [hpc] at h
  exact h

/-- A functor queued by a functor and one queued by another thread, and the
loop back at `poll`. -/
theorem no_lost_wakeup_batch : ∃ tr s, Run (machine Unit Nat Unit) tr s ∧ s.pc = .poll ∧
    s.pendingFunctors = [2] ∧ (0 < s.wakeupFd ∨ s.waking ≠ []) := by
  obtain ⟨r, hr, hpc, hp, hG⟩ : ∃ r ∈ (machine Unit Nat Unit).play {}
      [.advance, .advance, .pushBack () 1, .wakeup (), .poll [.wakeup], .advance, .advance, .advance,
        .queueInLoop 2, .advance, .advance, .advance],
      r.2.pc = .poll ∧ r.2.pendingFunctors = [2] ∧ Meets PushesAwake r.1 := by decide
  have hrun := Machine.play_steps hr
  exact ⟨r.1, r.2, hrun, hpc, hp, no_lost_wakeup hrun hG (.inr rfl) hpc (by rw [hp]; decide)⟩

/-- The callback of a channel queues a functor while no batch runs, as
`TcpConnection::handleWrite` does with its write-complete callback: the loop
enters `poll` and nothing wakes it. -/
theorem lost_wakeup_handler : ∃ tr s, Run (machine Unit Nat Unit) tr s ∧ s.pc = .poll ∧
    s.pendingFunctors = [1] ∧ s.wakeupFd = 0 ∧ s.waking = [] := by
  obtain ⟨r, hr, h⟩ : ∃ r ∈ (machine Unit Nat Unit).play {}
      [.advance, .advance, .poll [.channel ()], .advance, .queueInLoop 1, .advance, .advance, .advance],
      r.2.pc = .poll ∧ r.2.pendingFunctors = [1] ∧ r.2.wakeupFd = 0 ∧ r.2.waking = [] := by decide
  exact ⟨r.1, r.2, Machine.play_steps hr, h⟩

end Cppnetool.EventLoop
