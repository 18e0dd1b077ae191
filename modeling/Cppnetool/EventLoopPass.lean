import Cppnetool.EventLoopQueue
import Cppnetool.Lib.Measure
/-!
# One pass of the loop

From where `poll` returns to the condition of the `while`. A batch is what was
pending where it was swapped out: what the functors and the other threads push
meanwhile waits for a later pass, and so the pass comes to its end
(`pass_ends`). Where `poll` has reported the wakeup channel, the pass runs all
that was pushed before it.
-/
open Lib

namespace Cppnetool.EventLoop

variable {C F T : Type}

/-- Between the return of `poll` and the condition of the `while`. -/
def Pc.inPass : Pc C F → Bool
  | dispatch _ | handling _ _ | woken _ | functors _ _ _ | loopCallback => true
  | outside | test | poll => false

def Active.isWakeup : Active C → Bool
  | wakeup => true
  | channel _ => false

/-- The steps for a channel, but for the functors. -/
def Active.cost : Active C → Nat
  | wakeup => 3
  | channel _ => 2

def costs (rest : List (Active C)) : Nat := (rest.map Active.cost).sum

/-- A batch is still to be swapped out in this pass. -/
def Pc.toSwap : Pc C F → Bool
  | dispatch rest | handling _ rest | functors rest _ _ => rest.any Active.isWakeup
  | woken _ => true
  | outside | test | poll | loopCallback => false

/-- The steps to the end of the pass, with those for the functors of the batch. -/
def Pc.left (callback : Bool) : Pc C F → Nat
  | dispatch rest => costs rest + 1 + callback.toNat
  | handling _ rest => costs rest + 2 + callback.toNat
  | woken rest => costs rest + 3 + callback.toNat
  | functors rest _ todo => costs rest + 2 + todo.length + callback.toNat
  | loopCallback => 1
  | outside | test | poll => 0

/-- The same with those for the functors of the batch to come. -/
def St.left (s : St C F T) : Nat :=
  s.pc.left s.loopCallback + bif s.pc.toSwap then s.pendingFunctors.length else 0

/-- A push before the last batch of the pass, and a loop callback set in it. -/
def delays (s : St C F T) : Act C F T → Bool
  | .queueInLoop _ | .pushBack _ _ => s.pc.toSwap
  | .setLoopCallback on => on
  | .wakeup _ | .quit | .poll _ | .advance => false

def Act.advances : Act C F T → Bool
  | .advance => true
  | _ => false

variable {s s' t : St C F T} {a : Act C F T} {tr pre post : List (St C F T × Act C F T)} {active : List (Active C)}

/-! ## The end of a pass -/

@[simp] theorem costs_nil : costs ([] : List (Active C)) = 0 := rfl

@[simp] theorem costs_cons (e : Active C) (rest : List (Active C)) : costs (e :: rest) = e.cost + costs rest := by
  simp [costs]

theorem inPass_polling {pc : Pc C F} (h : pc.inPass = true) : pc.polling = false := by
  cases pc <;> first | rfl | cases h

/-- In a pass the loop thread can go on, and comes a step closer to its end. -/
theorem advance_left (hp : s.pc.inPass = true) : ∃ s', advance s = some s' ∧ 1 + s'.left = s.left := by
  cases hpc : s.pc with
  | dispatch rest =>
    cases rest with
    | nil =>
      refine ⟨_, by simp only [advance, hpc]; rfl, ?_⟩
      cases hc : s.loopCallback <;> simp [St.left, hpc, hc, Pc.left, Pc.toSwap]
    | cons e rest =>
      cases e with
      | wakeup =>
        refine ⟨_, by simp only [advance, hpc]; rfl, ?_⟩
        simp only [St.left, hpc, Pc.left, Pc.toSwap, costs_cons, Active.cost, List.any_cons, Active.isWakeup, Bool.true_or]
        omega
      | channel c =>
        refine ⟨_, by simp only [advance, hpc]; rfl, ?_⟩
        simp only [St.left, hpc, Pc.left, Pc.toSwap, costs_cons, Active.cost, List.any_cons, Active.isWakeup,
          Bool.false_or]
        omega
  | handling c rest =>
    refine ⟨_, by simp only [advance, hpc]; rfl, ?_⟩
    simp only [St.left, hpc, Pc.left, Pc.toSwap]
    omega
  | woken rest =>
    refine ⟨_, by simp only [advance, hpc]; rfl, ?_⟩
    simp only [St.left, hpc, Pc.left, Pc.toSwap, List.length_nil, Bool.cond_self, cond_true]
    omega
  | functors rest current todo =>
    cases todo with
    | nil =>
      refine ⟨_, by simp only [advance, hpc]; rfl, ?_⟩
      simp only [St.left, hpc, Pc.left, Pc.toSwap, List.length_nil]
      omega
    | cons f todo =>
      refine ⟨_, by simp only [advance, hpc]; rfl, ?_⟩
      simp only [St.left, hpc, Pc.left, Pc.toSwap, List.length_cons]
      omega
  | loopCallback =>
    refine ⟨_, by simp only [advance, hpc]; rfl, ?_⟩
    simp [St.left, hpc, Pc.left, Pc.toSwap]
  | outside | test | poll =>
    rw [hpc] at hp
    cases hp

theorem push_left (s : St C F T) (f : F) : (push s f).left ≤ s.left + if s.pc.toSwap then 1 else 0 := by
  simp only [St.left, push, List.length_append, List.length_singleton]
  cases s.pc.toSwap <;> simp [Nat.add_assoc]

theorem queueInLoop_left (s : St C F T) (f : F) : (queueInLoop s f).left = (push s f).left := by
  simp only [queueInLoop]
  split <;> rfl

theorem callback_left (pc : Pc C F) (on callback : Bool) : pc.left on ≤ pc.left callback + if on then 1 else 0 := by
  cases on <;> cases callback <;> cases pc <;> simp [Pc.left]

variable [DecidableEq T]

/-- Only the loop thread brings the end closer, and only what is pushed before
the batch, or a callback that is set, takes it away. -/
theorem step_left (hp : s.pc.inPass = true) (ha : (machine C F T).enabled s a) (hx : (machine C F T).exec s a = some s') :
    (if a.advances then 1 else 0) + s'.left ≤ s.left + if delays s a then 1 else 0 := by
  cases a with
  | advance =>
    obtain ⟨u, hu, hl⟩ := advance_left hp
    cases hu.symm.trans hx
    exact Nat.le_of_eq hl
  | queueInLoop f =>
    cases hx
    rw [queueInLoop_left, if_neg nofun, Nat.zero_add]
    exact push_left s f
  | pushBack t f =>
    cases hx
    rw [if_neg nofun, Nat.zero_add]
    exact push_left s f
  | wakeup t | quit =>
    cases hx
    exact Nat.le_of_eq (Nat.zero_add _)
  | setLoopCallback on =>
    cases hx
    have := callback_left s.pc on s.loopCallback
    simp only [Act.advances, delays, St.left]
    grind
  | poll active =>
    have hp' := ha.1
    rw [inPass_polling hp] at hp'
    cases hp'

/-! ## What a pass runs -/

/-- These functors are run in the pass, or have been. -/
def Serves (fs : List F) (s : St C F T) : Prop :=
  s.pc.toSwap = true ∨ fs <+: s.executed ++ s.pc.todo

/-- What has been pushed is known in its order. -/
structure Logged (s : St C F T) : Prop where
  entered : Entered s
  queue : s.pushed = s.executed ++ s.queue

omit [DecidableEq T] in
theorem logged_init : Logged ({} : St C F T) where
  entered := iff_of_true rfl rfl
  queue := rfl

theorem step_logged (L : Logged s) (ha : (machine C F T).enabled s a) (hx : (machine C F T).exec s a = some s') :
    Logged s' := by
  obtain ⟨u, hu, he, hq⟩ := step_queue L.entered ha
  cases hu.symm.trans hx
  obtain ⟨h1, h2⟩ := step_log hx
  refine ⟨he, ?_⟩
  rw [h1, h2, L.queue, List.append_assoc, hq, List.append_assoc]

theorem steps_logged {u : St C F T} (h : Steps (machine C F T) u tr s) (L : Logged u) : Logged s :=
  h.inv_if Logged (fun _ _ => True) (fun _ _ _ L ha _ hx => step_logged L ha hx) (fun _ _ => trivial) L

omit [DecidableEq T] in
/-- But for the swap, the functors of the pass stay the same, and so does what
is still to be swapped out. -/
theorem advance_keeps (hp : s.pc.inPass = true) (hw : ∀ rest, s.pc ≠ .woken rest) (hx : advance s = some s') :
    s'.pc.toSwap = s.pc.toSwap ∧ s'.executed ++ s'.pc.todo = s.executed ++ s.pc.todo := by
  cases hpc : s.pc with
  | dispatch rest =>
    rcases rest with _ | ⟨e | c, rest⟩
    · simp only [advance, hpc] at hx
      cases hx
      dsimp only
      split <;> exact ⟨rfl, rfl⟩
    · simp only [advance, hpc] at hx
      cases hx
      exact ⟨rfl, rfl⟩
    · simp only [advance, hpc] at hx
      cases hx
      exact ⟨rfl, rfl⟩
  | handling c rest =>
    simp only [advance, hpc] at hx
    cases hx
    exact ⟨rfl, rfl⟩
  | woken rest => exact absurd hpc (hw rest)
  | functors rest current todo =>
    have hb := advance_batch (by rw [hpc]; rfl) hx
    rw [hpc] at hb
    refine ⟨?_, hb⟩
    cases todo <;>
    · simp only [advance, hpc] at hx
      cases hx
      rfl
  | loopCallback =>
    simp only [advance, hpc] at hx
    cases hx
    exact ⟨rfl, rfl⟩
  | outside | test | poll =>
    rw [hpc] at hp
    cases hp

omit [DecidableEq T] in
/-- The batch that is swapped out holds all that is pushed and not started. -/
theorem advance_serves {fs : List F} (L : Logged s) (hp : s.pc.inPass = true) (hfs : fs <+: s.pushed)
    (hS : Serves fs s) (hx : advance s = some s') : Serves fs s' := by
  by_cases hw : ∃ rest, s.pc = .woken rest
  · obtain ⟨rest, hpc⟩ := hw
    simp only [advance, hpc] at hx
    cases hx
    rw [L.queue, St.queue, hpc] at hfs
    exact .inr hfs
  · obtain ⟨ht, he⟩ := advance_keeps hp (fun rest h => hw ⟨rest, h⟩) hx
    rw [Serves, ht, he]
    exact hS

theorem step_serves {fs : List F} (L : Logged s) (hp : s.pc.inPass = true) (hfs : fs <+: s.pushed) (hS : Serves fs s)
    (ha : (machine C F T).enabled s a) (hx : (machine C F T).exec s a = some s') : Serves fs s' := by
  cases a with
  | advance => exact advance_serves L hp hfs hS hx
  | queueInLoop f =>
    cases hx
    rw [Serves, queueInLoop_pc, (queueInLoop_log s f).1]
    exact hS
  | pushBack t f | wakeup t | quit | setLoopCallback on =>
    cases hx
    exact hS
  | poll active =>
    have hp' := ha.1
    rw [inPass_polling hp] at hp'
    cases hp'

/-! ## What a pass leaves -/

theorem any_isWakeup_eq_false : active.any Active.isWakeup = false ↔ .wakeup ∉ active := by
  rw [List.any_eq_false]
  refine ⟨fun h hw => h _ hw rfl, fun h e he hw => ?_⟩
  cases e with
  | wakeup => exact h he
  | channel c => cases hw

/-- Where no batch is to come, only the functors of the last one are started. -/
theorem step_swapped (hp : s.pc.inPass = true) (hs : s.pc.toSwap = false) (ha : (machine C F T).enabled s a)
    (hx : (machine C F T).exec s a = some s') :
    s'.pc.toSwap = false ∧ s'.executed ++ s'.pc.todo = s.executed ++ s.pc.todo := by
  cases a with
  | advance =>
    have hw : ∀ rest, s.pc ≠ .woken rest := by
      intro rest hpc
      rw [hpc] at hs
      cases hs
    obtain ⟨ht, he⟩ := advance_keeps hp hw hx
    exact ⟨ht.trans hs, he⟩
  | queueInLoop f =>
    cases hx
    rw [queueInLoop_pc, (queueInLoop_log s f).1]
    exact ⟨hs, rfl⟩
  | pushBack t f | wakeup t | quit | setLoopCallback on =>
    cases hx
    exact ⟨hs, rfl⟩
  | poll active =>
    have hp' := ha.1
    rw [inPass_polling hp] at hp'
    cases hp'

theorem steps_swapped {u : St C F T} (h : Steps (machine C F T) u tr s) (hp : Meets (fun s _ => s.pc.inPass = true) tr)
    (hs : u.pc.toSwap = false) : s.executed ++ s.pc.todo = u.executed ++ u.pc.todo :=
  (h.inv_if (fun s => s.pc.toSwap = false ∧ s.executed ++ s.pc.todo = u.executed ++ u.pc.todo)
    (fun s _ => s.pc.inPass = true) (fun _ _ _ ⟨hs, he⟩ ha hp hx => by
      obtain ⟨hs', he'⟩ := step_swapped hp hs ha hx
      exact ⟨hs', he'.trans he⟩) hp ⟨hs, rfl⟩).2

/-- From the last swap of a pass on, what was pushed before it is what the pass
starts, and what is pushed after it is pending. -/
theorem waits {u : St C F T} {rest : List (Active C)} (h : Steps (machine C F T) u ((u, .advance) :: tr) s) (L : Logged u)
    (hp : Meets (fun s _ => s.pc.inPass = true) tr) (hpc : u.pc = .woken rest) (hrest : .wakeup ∉ rest) :
    s.executed ++ s.pc.todo = u.pushed ∧ s.pushed = u.pushed ++ s.pendingFunctors := by
  have L' : Logged s := steps_logged h L
  cases h with
  | cons ha hx h =>
    simp only [machine, advance, hpc] at hx
    cases hx
    have he := steps_swapped h hp (any_isWakeup_eq_false.2 hrest)
    have hu : u.pushed = u.executed ++ u.pendingFunctors := by
      rw [L.queue, St.queue, hpc]
      rfl
    rw [hu]
    refine ⟨he, ?_⟩
    rw [L'.queue, St.queue, ← List.append_assoc, he]
    rfl

/-- A pass that has not come to its end can go on, and takes no more steps of
the loop thread than there is to do where `poll` returns, and one for each push
before the last batch of the pass and for each callback that is set: what is
pushed after it does not hold the pass up. Where `poll` has reported the wakeup
channel, all that was pushed before has been started when the pass is over; and
where it has not, no functor is started. From where the last batch is swapped
out, the pass starts what was pushed before, and what is pushed later stays
pending. -/
theorem pass_ends (h : Run (machine C F T) (pre ++ (t, .poll active) :: post) s)
    (hp : Meets (fun s _ => s.pc.inPass = true) post) :
    (s.pc.inPass = true → ∃ s', advance s = some s') ∧
    post.countP (fun p => p.2.advances) + s.left ≤
      costs active + t.pendingFunctors.length + 2 + post.countP (fun p => delays p.1 p.2) ∧
    (.wakeup ∈ active → s.pc = .test → t.pushed <+: s.executed) ∧
    (.wakeup ∉ active → s.executed = t.executed) ∧
    ∀ mid u rest later, post = mid ++ (u, .advance) :: later → u.pc = .woken rest → .wakeup ∉ rest →
      s.executed ++ s.pc.todo = u.pushed ∧ s.pushed = u.pushed ++ s.pendingFunctors := by
  refine ⟨fun h => (advance_left h).imp fun _ => And.left, ?_⟩
  obtain ⟨t', hpre, hpost⟩ := h.split
  cases hpost with
  | cons ha hx hpost =>
    have L : Logged t := steps_logged hpre logged_init
    cases hx
    refine ⟨?_, ?_, ?_, ?_⟩
    · have := hpost.cost_le (fun _ => True) (fun s _ => s.pc.inPass = true) St.left
        (fun s a s' _ ha hp hx => ⟨trivial, step_left hp ha hx⟩) hp trivial
      rw [total_if (fun _ (a : Act C F T) => a.advances), total_if delays, Nat.one_mul, Nat.one_mul] at this
      have hleft : ({ t with pc := .dispatch active } : St C F T).left ≤ costs active + t.pendingFunctors.length + 2 := by
        simp only [St.left, Pc.left]
        cases t.loopCallback <;> cases (Pc.dispatch active : Pc C F).toSwap <;> simp <;> omega
      omega
    · intro hw htest
      have hswap : (Pc.dispatch active : Pc C F).toSwap = true := List.any_eq_true.2 ⟨.wakeup, hw, rfl⟩
      obtain ⟨-, -, hS⟩ := hpost.inv_if (fun s => Logged s ∧ t.pushed <+: s.pushed ∧ Serves t.pushed s)
        (fun s _ => s.pc.inPass = true)
        (fun s a s' ⟨L, hfs, hS⟩ ha hp hx => ⟨step_logged L ha hx,
          hfs.trans ((step_log hx).2 ▸ List.prefix_append _ _), step_serves L hp hfs hS ha hx⟩)
        hp ⟨step_logged L ha rfl, List.prefix_refl _, .inl hswap⟩
      rcases hS with h | h
      · rw [htest] at h
        cases h
      · simpa [htest, Pc.todo] using h
    · intro hw
      have he : s.executed ++ s.pc.todo = t.executed ++ [] := steps_swapped hpost hp (any_isWakeup_eq_false.2 hw)
      rw [List.append_nil] at he
      have hle : t.executed <+: s.executed := hpost.inv_if (fun s => t.executed <+: s.executed) (fun _ _ => True)
        (fun _ _ _ h _ _ hx => h.trans ((step_log hx).1 ▸ List.prefix_append _ _)) (fun _ _ => trivial) (List.prefix_refl _)
      have hge : s.executed <+: t.executed := ⟨_, he⟩
      exact hge.eq_of_length_le hle.length_le
    · rintro mid u rest later rfl hpc hrest
      obtain ⟨u', hmid, hlater⟩ := hpost.split
      have hu : u' = u := by
        cases hlater
        rfl
      subst hu
      exact waits hlater (steps_logged hmid (step_logged L ha rfl)) (fun p hp' => hp p (by simp [hp'])) hpc hrest

set_option synthInstance.maxSize 200 in
/-- A functor queues another one while it runs, and a thread queues a third: the
pass runs the one that was pending, and these two wait. -/
theorem pass_ends_requeue : ∃ pre t active post s, Run (machine Unit Nat Unit) (pre ++ (t, .poll active) :: post) s ∧
    s.pc = .test ∧ .wakeup ∈ active ∧ t.pushed = [5] ∧ s.executed = [5] ∧
    post.countP (fun p => p.2.advances) = 5 ∧ post.countP (fun p => delays p.1 p.2) = 0 ∧
    post.countP (fun p => p.2.advances) + s.left ≤
      costs active + t.pendingFunctors.length + 2 + post.countP (fun p => delays p.1 p.2) ∧
    t.pushed <+: s.executed ∧ s.pushed = [5] ++ s.pendingFunctors ∧ s.pendingFunctors = [6, 7] := by
  obtain ⟨r, hr, ha, m, hm, hm', v, hv, q, hq, hp, htest, hrest⟩ :
      ∃ r ∈ (machine Unit Nat Unit).play (machine Unit Nat Unit).init [.advance, .advance, .pushBack () 5, .wakeup ()],
      (machine Unit Nat Unit).enabled r.2 (.poll [.wakeup]) ∧
      ∃ m ∈ (machine Unit Nat Unit).play { r.2 with pc := .dispatch [.wakeup] } [.advance],
      (machine Unit Nat Unit).enabled m.2 .advance ∧ ∃ v ∈ (machine Unit Nat Unit).exec m.2 .advance,
      ∃ q ∈ (machine Unit Nat Unit).play v [.advance, .queueInLoop 6, .pushBack () 7, .advance, .advance],
      Meets (fun s _ => s.pc.inPass = true) (m.1 ++ (m.2, .advance) :: q.1) ∧ q.2.pc = .test ∧ m.2.pc = .woken [] ∧
        r.2.pushed = [5] ∧ m.2.pushed = [5] ∧ q.2.executed = [5] ∧ q.2.pendingFunctors = [6, 7] ∧
        (m.1 ++ (m.2, .advance) :: q.1).countP (fun p => p.2.advances) = 5 ∧
        (m.1 ++ (m.2, .advance) :: q.1).countP (fun p => delays p.1 p.2) = 0 := by decide +kernel
  obtain ⟨hpc, hpushed, hm5, h2, h3, h4, h5⟩ := hrest
  have hrun := (Machine.play_steps hr).append
    (.cons ha rfl ((Machine.play_steps hm).append (.cons hm' hv (Machine.play_steps hq))))
  obtain ⟨-, hcount, hdone, -, hwaits⟩ := pass_ends hrun hp
  have hlast := (hwaits m.1 m.2 [] q.1 rfl hpc (by simp)).2
  rw [hm5] at hlast
  exact ⟨r.1, r.2, [.wakeup], _, q.2, hrun, htest, by simp, hpushed, h2, h4, h5, hcount, hdone (by simp) htest, hlast,
    h3⟩

end Cppnetool.EventLoop
