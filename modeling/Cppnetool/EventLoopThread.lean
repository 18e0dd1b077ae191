import Cppnetool.EventLoop
/-!
# `EventLoopThread`

`net/EventLoopThread.cc`: a worker that runs an `EventLoop` of its own, and the
owner that starts it and in the end quits and joins it. `loop()` sets `quit_`
to false when it is entered, and the owner has the pointer before that: a
`quit()` that comes first is overwritten (`quit_heard_iff`).

The loop object lives on the worker's stack. Once `loop()` has returned it is
gone, and a call through the pointer fails.
-/
open Lib

namespace Cppnetool.EventLoopThread

variable {C F T : Type}

/-- Where the worker is in `threadFunc`. -/
inductive Worker
  /-- `thread_.start()` has not been called. -/
  | absent
  /-- Before the locked block. -/
  | starting
  /-- After it, and before `loop()`. -/
  | published
  | inLoop
  | exited
deriving DecidableEq

inductive Owner
  | constructed
  /-- In `startLoop`. -/
  | waiting
  /-- `startLoop` has returned. -/
  | running
  /-- In the destructor, before `loop_->quit()`. -/
  | quitting
  /-- After it, in `thread_.join()`. -/
  | joining
  | destroyed
deriving DecidableEq

structure St (C F T : Type) where
  worker : Worker := .absent
  owner : Owner := .constructed
  /-- `thread_.started_` and `thread_.joined_`. -/
  started : Bool := false
  joined : Bool := false
  exiting : Bool := false
  /-- `loop_` is not `NULL`. -/
  published : Bool := false
  loop : EventLoop.St C F T := {}
  /-- `quit()` has been executed. -/
  asked : Bool := false

inductive Act (C F T : Type)
  /-- `startLoop` up to its wait. -/
  | startLoop
  /-- The locked block of `threadFunc`. -/
  | notify
  /-- `startLoop` finds `loop_` set and returns. -/
  | startLoopReturns
  /-- A step of the loop, or a call of one of its functions. -/
  | loop (a : EventLoop.Act C F T)
  /-- The destructor up to `loop_->quit()`. -/
  | destroy
  | quit
  | join
deriving DecidableEq

/-- The owner has given the pointer on. -/
def Owner.returned : Owner → Bool
  | constructed | waiting => false
  | running | quitting | joining | destroyed => true

/-- Who takes the steps of the loop: the worker its own, any thread the calls
that are made from outside. -/
def mayTake (s : St C F T) : EventLoop.Act C F T → Prop
  | .advance => s.worker = .published ∨ s.worker = .inLoop
  | .poll _ => s.worker = .inLoop
  | .queueInLoop _ => s.worker = .inLoop
  | .setLoopCallback _ => s.worker = .inLoop
  | .pushBack _ _ => s.owner.returned = true ∧ s.published = true
  | .wakeup _ => s.owner.returned = true ∧ s.published = true
  | .quit => s.owner.returned = true ∧ s.published = true ∨ s.worker = .inLoop ∧ s.loop.pc.userCode = true

def isQuit : EventLoop.Act C F T → Bool
  | .quit => true
  | _ => false

/-- `threadFunc` around `loop()`. -/
def Worker.follow (worker : Worker) (pc : EventLoop.Pc C F) : Worker :=
  match pc with
  | .outside => if worker = inLoop then exited else worker
  | _ => inLoop

def machine (C F T : Type) [DecidableEq T] : Machine (St C F T) (Act C F T) where
  init := {}
  enabled s
    | .startLoop => s.owner = .constructed
    | .notify => s.worker = .starting
    | .startLoopReturns => s.owner = .waiting ∧ s.published = true
    | .loop a => (EventLoop.machine C F T).enabled s.loop a ∧ mayTake s a
    | .destroy => s.owner = .constructed ∨ s.owner = .running
    | .quit => s.owner = .quitting
    | .join => s.owner = .joining ∧ s.worker = .exited
  exec s
    | .startLoop => do
      assert (s.started = false)
      return { s with started := true, worker := .starting, owner := .waiting }
    | .notify => some { s with worker := .published, published := true }
    | .startLoopReturns => some { s with owner := .running }
    | .loop a => do
      assert (s.worker ≠ .exited)
      let loop ← (EventLoop.machine C F T).exec s.loop a
      return { s with loop := loop, worker := s.worker.follow loop.pc, asked := s.asked || isQuit a }
    | .destroy => some { s with exiting := true, owner := .quitting }
    | .quit => do
      assert (s.published = true)
      assert (s.worker ≠ .exited)
      return { s with loop := { s.loop with quit := true }, asked := true, owner := .joining }
    | .join => do
      assert (s.started = true)
      assert (s.joined = false)
      return { s with joined := true, owner := .destroyed }

instance (s : St C F T) : ∀ a, Decidable (mayTake s a)
  | .advance => inferInstanceAs (Decidable (_ ∨ _))
  | .poll _ | .queueInLoop _ | .setLoopCallback _ => inferInstanceAs (Decidable (_ = _))
  | .pushBack _ _ | .wakeup _ => inferInstanceAs (Decidable (_ ∧ _))
  | .quit => inferInstanceAs (Decidable (_ ∧ _ ∨ _ ∧ _))

instance [DecidableEq C] [DecidableEq T] (s : St C F T) : ∀ b, Decidable ((machine C F T).enabled s b)
  | .startLoop => inferInstanceAs (Decidable (s.owner = .constructed))
  | .notify => inferInstanceAs (Decidable (s.worker = .starting))
  | .startLoopReturns => inferInstanceAs (Decidable (s.owner = .waiting ∧ s.published = true))
  | .loop a => inferInstanceAs (Decidable ((EventLoop.machine C F T).enabled s.loop a ∧ mayTake s a))
  | .destroy => inferInstanceAs (Decidable (s.owner = .constructed ∨ s.owner = .running))
  | .quit => inferInstanceAs (Decidable (s.owner = .quitting))
  | .join => inferInstanceAs (Decidable (s.owner = .joining ∧ s.worker = .exited))

/-! ## Where worker and owner are -/

structure Placed (s : St C F T) : Prop where
  entered : EventLoop.Entered s.loop
  inLoop : s.worker = .inLoop ↔ s.loop.pc ≠ .outside
  published : s.published = true ↔ s.worker ≠ .absent ∧ s.worker ≠ .starting
  started : s.started = false ↔ s.worker = .absent
  fresh : s.owner = .constructed → s.started = false
  joined : s.joined = true → s.owner = .destroyed
  asked : s.asked = true → s.published = true
  joining : s.owner = .joining → s.asked = true

variable {s s' t : St C F T} {a : EventLoop.Act C F T} {pc : EventLoop.Pc C F}

theorem placed_init : Placed ({} : St C F T) where
  entered := iff_of_true rfl rfl
  inLoop := by simp
  published := by simp
  started := by simp
  fresh := by simp
  joined := by simp
  asked := by simp
  joining := by simp

theorem follow_inLoop (w : Worker) (pc : EventLoop.Pc C F) : w.follow pc = .inLoop ↔ pc ≠ .outside := by
  cases pc <;> cases w <;> simp [Worker.follow]

/-- The worker never goes back before the locked block. -/
theorem follow_published {w : Worker} (h : w ≠ .absent ∧ w ≠ .starting) (pc : EventLoop.Pc C F) :
    w.follow pc ≠ .absent ∧ w.follow pc ≠ .starting := by
  cases pc <;> cases w <;> simp_all [Worker.follow]

theorem Placed.of_mayTake (P : Placed s) (h : mayTake s a) : s.published = true := by
  have hin : s.worker = .inLoop → s.published = true := fun h => P.published.2 (by rw [h]; decide)
  cases a with
  | advance => exact h.elim (fun h => P.published.2 (by rw [h]; decide)) hin
  | poll _ | queueInLoop _ | setLoopCallback _ => exact hin h
  | pushBack _ _ | wakeup _ => exact h.2
  | quit => exact h.elim (fun h => h.2) fun h => hin h.1

variable [DecidableEq T]

/-- A step of the loop on a loop object that lives. -/
theorem loop_cases (hx : (machine C F T).exec s (.loop a) = some s') :
    s.worker ≠ .exited ∧ ∃ loop, (EventLoop.machine C F T).exec s.loop a = some loop ∧
      s' = { s with loop := loop, worker := s.worker.follow loop.pc, asked := s.asked || isQuit a } := by
  obtain ⟨_, hw, hx⟩ := Option.bind_eq_some_iff.1 hx
  obtain ⟨loop, hl, hx⟩ := Option.bind_eq_some_iff.1 hx
  exact ⟨assert_eq_some.1 hw, loop, hl, (Option.some.inj hx).symm⟩

theorem step_placed (P : Placed s) {b : Act C F T} (he : (machine C F T).enabled s b)
    (hx : (machine C F T).exec s b = some s') : Placed s' := by
  cases b with
  | startLoop =>
    obtain ⟨_, -, hx⟩ := Option.bind_eq_some_iff.1 hx
    cases hx
    have hw : s.worker = .absent := P.started.1 (P.fresh he)
    have hpc : s.loop.pc = .outside := by
      by_contra h
      exact absurd (hw.symm.trans (P.inLoop.2 h)) (by decide)
    have hpub : s.published = false := by
      rw [← Bool.not_eq_true, P.published, hw]
      decide
    exact ⟨P.entered, by simp [hpc], by simp [hpub], by simp, by simp,
      fun h => absurd ((P.joined h).symm.trans he) (by decide), P.asked, by simp⟩
  | notify =>
    cases hx
    have hw : s.worker = .starting := he
    have hpc : s.loop.pc = .outside := by
      by_contra h
      exact absurd (hw.symm.trans (P.inLoop.2 h)) (by decide)
    exact ⟨P.entered, by simp [hpc], by simp, by simpa [hw] using P.started, P.fresh, P.joined, fun _ => rfl,
      P.joining⟩
  | startLoopReturns =>
    cases hx
    exact ⟨P.entered, P.inLoop, P.published, P.started, by simp,
      fun h => absurd ((P.joined h).symm.trans he.1) (by decide), P.asked, by simp⟩
  | loop a =>
    obtain ⟨-, loop, hl, rfl⟩ := loop_cases hx
    obtain ⟨_, hl', hE, -⟩ := EventLoop.step_queue P.entered he.1
    cases hl'.symm.trans hl
    have hpub := P.of_mayTake he.2
    have hw := P.published.1 hpub
    have hstarted : s.started ≠ false := fun h => hw.1 (P.started.1 h)
    refine ⟨hE, follow_inLoop _ _, iff_of_true hpub (follow_published hw _),
      iff_of_false hstarted (follow_published hw _).1, P.fresh, P.joined, fun _ => hpub, fun h => ?_⟩
    rw [P.joining h, Bool.true_or]
  | destroy =>
    cases hx
    refine ⟨P.entered, P.inLoop, P.published, P.started, by simp, fun h => ?_, P.asked, by simp⟩
    rcases he with he | he
    · exact absurd ((P.joined h).symm.trans he) (by decide)
    · exact absurd ((P.joined h).symm.trans he) (by decide)
  | quit =>
    obtain ⟨_, hpub, hx⟩ := Option.bind_eq_some_iff.1 hx
    obtain ⟨_, -, hx⟩ := Option.bind_eq_some_iff.1 hx
    cases hx
    exact ⟨P.entered, P.inLoop, P.published, P.started, by simp,
      fun h => absurd ((P.joined h).symm.trans he) (by decide), fun _ => assert_eq_some.1 hpub,
      fun _ => rfl⟩
  | join =>
    obtain ⟨_, -, hx⟩ := Option.bind_eq_some_iff.1 hx
    obtain ⟨_, -, hx⟩ := Option.bind_eq_some_iff.1 hx
    cases hx
    exact ⟨P.entered, P.inLoop, P.published, P.started, by simp, fun _ => rfl, P.asked, by simp⟩

/-! ## A request to quit -/

/-- The step executes `quit()`. -/
def Act.quits : Act C F T → Bool
  | quit => true
  | loop a => isQuit a
  | _ => false

/-- A `quit()` is executed when the worker has entered `loop()`. -/
def QuitsInLoop (s : St C F T) (b : Act C F T) : Prop := b.quits = true → s.worker = .inLoop

instance (s : St C F T) (b : Act C F T) : Decidable (QuitsInLoop s b) := inferInstanceAs (Decidable (_ → _))

/-- The worker reads `quit_` at the condition of the `while`. -/
def Reads (s : St C F T) : Act C F T → Prop
  | .loop .advance => s.loop.pc = .test
  | _ => False

/-- If `quit()` has been executed, the worker never reads `quit_` as false. -/
def Heard (s : St C F T) : Prop :=
  s.asked = true → ∀ tr u, Steps (machine C F T) s tr u → ∀ p ∈ tr, Reads p.1 p.2 → p.1.loop.quit = true

/-- What makes it so: `quit_` is set while the worker is in `loop()`. -/
structure Told (s : St C F T) : Prop where
  placed : Placed s
  told : s.asked = true → s.worker = .inLoop ∧ s.loop.quit = true ∨ s.worker = .exited

/-- Steps of a loop that has been entered leave `quit_` alone, unless they set it. -/
theorem loop_quit {l l' : EventLoop.St C F T} (hpc : l.pc ≠ .outside)
    (hx : (EventLoop.machine C F T).exec l a = some l') : l'.quit = (l.quit || isQuit a) := by
  cases a with
  | advance =>
    rw [EventLoop.advance_quit hx hpc]
    simp [isQuit]
  | queueInLoop f =>
    cases hx
    simp only [EventLoop.queueInLoop, isQuit, Bool.or_false]
    split <;> rfl
  | quit => cases hx; simp [isQuit]
  | pushBack t f | wakeup t | setLoopCallback on | poll activeChannels => cases hx; simp [isQuit, EventLoop.push]

theorem step_told (h : Told s) {b : Act C F T} (he : (machine C F T).enabled s b) (hg : QuitsInLoop s b)
    (hx : (machine C F T).exec s b = some s') : Told s' := by
  refine ⟨step_placed h.placed he hx, ?_⟩
  cases b with
  | startLoop =>
    obtain ⟨_, -, hx⟩ := Option.bind_eq_some_iff.1 hx
    cases hx
    intro ha
    have hw := h.placed.started.1 (h.placed.fresh he)
    exact absurd hw (h.placed.published.1 (h.placed.asked ha)).1
  | notify =>
    cases hx
    intro ha
    exact absurd he (h.placed.published.1 (h.placed.asked ha)).2
  | startLoopReturns => cases hx; exact h.told
  | loop a =>
    obtain ⟨hne, loop, hl, rfl⟩ := loop_cases hx
    intro ha
    -- either the request came before, or this step makes it
    have hin : s.worker = .inLoop ∧ (s.loop.quit || isQuit a) = true := by
      rcases Bool.or_eq_true_iff.1 ha with ha | ha
      · obtain ⟨hw, hq⟩ := (h.told ha).resolve_right hne
        exact ⟨hw, by rw [hq, Bool.true_or]⟩
      · exact ⟨hg ha, by rw [ha, Bool.or_true]⟩
    have hquit := loop_quit (h.placed.inLoop.1 hin.1) hl
    by_cases hpc : loop.pc = .outside
    · right
      change s.worker.follow loop.pc = _
      rw [hpc, Worker.follow, if_pos hin.1]
    · exact .inl ⟨(follow_inLoop _ _).2 hpc, hquit.trans hin.2⟩
  | destroy => cases hx; exact h.told
  | quit =>
    obtain ⟨_, -, hx⟩ := Option.bind_eq_some_iff.1 hx
    obtain ⟨_, -, hx⟩ := Option.bind_eq_some_iff.1 hx
    cases hx
    exact fun _ => .inl ⟨hg rfl, rfl⟩
  | join =>
    obtain ⟨_, -, hx⟩ := Option.bind_eq_some_iff.1 hx
    obtain ⟨_, -, hx⟩ := Option.bind_eq_some_iff.1 hx
    cases hx
    exact h.told

/-- A request that has been heard stays executed, and later ones are heard too. -/
theorem Told.asked_step (h : Told s) (ha : s.asked = true) {b : Act C F T} (he : (machine C F T).enabled s b)
    (hx : (machine C F T).exec s b = some s') : QuitsInLoop s b ∧ s'.asked = true := by
  have hin : s.worker ≠ .exited → s.worker = .inLoop := fun hne => ((h.told ha).resolve_right hne).1
  cases b with
  | loop a =>
    obtain ⟨hne, loop, -, rfl⟩ := loop_cases hx
    exact ⟨fun _ => hin hne, by dsimp only; rw [ha, Bool.true_or]⟩
  | quit =>
    obtain ⟨_, -, hx⟩ := Option.bind_eq_some_iff.1 hx
    obtain ⟨_, hne, hx⟩ := Option.bind_eq_some_iff.1 hx
    cases hx
    exact ⟨fun _ => hin (assert_eq_some.1 hne), rfl⟩
  | startLoop =>
    obtain ⟨_, -, hx⟩ := Option.bind_eq_some_iff.1 hx
    cases hx
    exact ⟨(by intro h; cases h), ha⟩
  | join =>
    obtain ⟨_, -, hx⟩ := Option.bind_eq_some_iff.1 hx
    obtain ⟨_, -, hx⟩ := Option.bind_eq_some_iff.1 hx
    cases hx
    exact ⟨(by intro h; cases h), ha⟩
  | notify | startLoopReturns | destroy =>
    cases hx
    exact ⟨(by intro h; cases h), ha⟩

theorem Told.heard (h : Told s) : Heard s := by
  intro hasked tr u hs p hp hr
  obtain ⟨-, hall⟩ := hs.keeps (fun s => Told s ∧ s.asked = true) (fun s b s' _ hs he hx => by
    obtain ⟨hg, ha'⟩ := hs.1.asked_step hs.2 he hx
    exact ⟨step_told hs.1 he hg hx, ha'⟩) ⟨h, hasked⟩
  obtain ⟨ht, ha⟩ := hall p hp
  match hb : p.2 with
  | .loop .advance =>
    rw [hb] at hr
    have hin : p.1.worker = .inLoop := ht.placed.inLoop.2 (by rw [show p.1.loop.pc = .test from hr]; simp)
    rcases ht.told ha with h | h
    · exact h.2
    · exact absurd (hin.symm.trans h) (by decide)
  | .startLoop | .notify | .startLoopReturns | .destroy | .quit | .join | .loop (.poll _) | .loop (.queueInLoop _)
  | .loop (.setLoopCallback _) | .loop (.pushBack _ _) | .loop (.wakeup _) | .loop .quit =>
    rw [hb] at hr
    exact hr.elim

/-- With a request executed and the worker about to enter `loop()`, the next
two steps of the worker are to set `quit_` to false and to read it. -/
theorem Placed.not_heard (P : Placed s) (ha : s.asked = true) (hw : s.worker = .published) : ¬ Heard s := by
  have hpc : s.loop.pc = .outside := by
    by_contra h
    exact absurd (hw.symm.trans (P.inLoop.2 h)) (by decide)
  have hlooping : s.loop.looping = false := P.entered.2 hpc
  set l₁ : EventLoop.St C F T := { s.loop with looping := true, quit := false, pc := .test } with hl₁
  set s₁ : St C F T := { s with loop := l₁, worker := .inLoop, asked := s.asked || false } with hs₁
  set s₂ : St C F T := { s₁ with loop := { l₁ with pc := .poll }, asked := s₁.asked || false } with hs₂
  have h₁ : Steps (machine C F T) s [(s, .loop .advance)] s₁ := by
    refine .cons ⟨?_, .inl hw⟩ ?_ (.nil s₁)
    · change s.loop.pc.polling = false
      rw [hpc]
      rfl
    · simp only [machine, EventLoop.machine, EventLoop.advance, hpc]
      rw [assert_bind (by rw [hw]; decide), assert_bind hlooping]
      rfl
  have h₂ : Steps (machine C F T) s [(s, .loop .advance), (s₁, .loop .advance)] s₂ :=
    h₁.snoc ⟨rfl, .inr rfl⟩ rfl
  intro h
  exact absurd (h ha _ _ h₂ (s₁, .loop .advance) (by simp) rfl) (by simp [hs₁, hl₁])

theorem not_heard (P : Placed s) {b : Act C F T} (he : (machine C F T).enabled s b) (hg : ¬ QuitsInLoop s b)
    (hx : (machine C F T).exec s b = some s') : ¬ Heard s' := by
  have P' := step_placed P he hx
  obtain ⟨hq, hnin⟩ := Classical.not_imp.1 hg
  -- the object lives and is published, so the worker is just before `loop()`
  have hw (hne : s.worker ≠ .exited) (hpub : s.published = true) : s.worker = .published := by
    have := P.published.1 hpub
    cases hw : s.worker <;> simp_all
  cases b with
  | loop a =>
    obtain ⟨hne, loop, hl, rfl⟩ := loop_cases hx
    have hw := hw hne (P.of_mayTake he.2)
    refine P'.not_heard (by dsimp only; rw [show isQuit a = true from hq, Bool.or_true]) ?_
    cases a with
    | quit =>
      cases hl
      have hpc : s.loop.pc = .outside := by
        by_contra h
        exact hnin (P.inLoop.2 h)
      change s.worker.follow s.loop.pc = _
      rw [hpc, hw]
      rfl
    | _ => cases hq
  | quit =>
    obtain ⟨_, hpub, hx⟩ := Option.bind_eq_some_iff.1 hx
    obtain ⟨_, hne, hx⟩ := Option.bind_eq_some_iff.1 hx
    cases hx
    exact P'.not_heard rfl (hw (assert_eq_some.1 hne) (assert_eq_some.1 hpub))
  | _ => cases hq

/-! ## Leaving the loop -/

/-- The owner joins, and the worker is in `loop()` with `quit_` set. -/
structure Leaving (pc : EventLoop.Pc C F) (s : St C F T) : Prop where
  worker : s.worker = .inLoop
  pc_eq : s.loop.pc = pc
  inside : pc ≠ .outside
  quit : s.loop.quit = true
  owner : s.owner = .joining
  started : s.started = true ∧ s.joined = false

/-- From the one place the worker comes to the other. -/
def Leads (T : Type) [DecidableEq T] (pc pc' : EventLoop.Pc C F) : Prop :=
  ∀ s : St C F T, Leaving pc s → ∃ tr u, Steps (machine C F T) s tr u ∧ Leaving pc' u

theorem Leads.trans {pc₁ pc₂ pc₃ : EventLoop.Pc C F} (h : Leads T pc₁ pc₂) (h' : Leads T pc₂ pc₃) :
    Leads T pc₁ pc₃ := by
  intro s hs
  obtain ⟨tr, u, hu, hlu⟩ := h s hs
  obtain ⟨tr', v, hv, hlv⟩ := h' u hlu
  exact ⟨tr ++ tr', v, hu.append hv, hlv⟩

theorem Leads.refl (pc : EventLoop.Pc C F) : Leads T pc pc := fun s h => ⟨[], s, .nil s, h⟩

/-- A step of the worker inside the loop. -/
theorem Leaving.advance (h : Leaving pc s) (hpoll : pc.polling = false) {l : EventLoop.St C F T}
    (hx : EventLoop.advance s.loop = some l) (hl : l.pc ≠ .outside) :
    ∃ tr u, Steps (machine C F T) s tr u ∧ Leaving l.pc u := by
  have hquit := (EventLoop.advance_quit hx (h.pc_eq ▸ h.inside)).trans h.quit
  set u : St C F T := { s with loop := l, worker := s.worker.follow l.pc, asked := s.asked || false } with hu
  refine ⟨[(s, .loop .advance)], u, .cons ⟨?_, .inr h.worker⟩ ?_ (.nil u), ?_⟩
  · change s.loop.pc.polling = false
    rw [h.pc_eq, hpoll]
  · simp only [machine, EventLoop.machine, hx]
    rw [assert_bind (by rw [h.worker]; decide)]
    rfl
  · exact ⟨(follow_inLoop _ _).2 hl, rfl, hl, hquit, h.owner, h.started⟩

theorem leads_functors (rest : List (EventLoop.Active C)) (current : Option F) (todo : List F) :
    Leads T (.functors rest current todo) (.dispatch rest) := by
  induction todo generalizing current with
  | nil =>
    intro s h
    obtain ⟨tr, u, hs, hu⟩ := h.advance rfl (by rw [EventLoop.advance, h.pc_eq]) (by simp)
    exact ⟨tr, u, hs, hu⟩
  | cons f todo ih =>
    intro s h
    obtain ⟨tr, u, hs, hu⟩ := h.advance rfl (by rw [EventLoop.advance, h.pc_eq]) (by simp)
    obtain ⟨tr', v, hv, hlv⟩ := ih (some f) u hu
    exact ⟨tr ++ tr', v, hs.append hv, hlv⟩

/-- The rest of the channels are handled, and the condition is reached. -/
theorem leads_test (rest : List (EventLoop.Active C)) : Leads (F := F) T (.dispatch rest) .test := by
  induction rest with
  | nil =>
    intro s h
    by_cases hc : s.loop.loopCallback = true
    · obtain ⟨tr, u, hs, hu⟩ :=
        h.advance rfl (by rw [EventLoop.advance, h.pc_eq]) (by dsimp only; rw [if_pos hc]; simp)
      rw [if_pos hc] at hu
      obtain ⟨tr', v, hv, hlv⟩ := hu.advance rfl (by rw [EventLoop.advance, hu.pc_eq]) (by simp)
      exact ⟨tr ++ tr', v, hs.append hv, hlv⟩
    · obtain ⟨tr, u, hs, hu⟩ :=
        h.advance rfl (by rw [EventLoop.advance, h.pc_eq]) (by dsimp only; rw [if_neg hc]; simp)
      rw [if_neg hc] at hu
      exact ⟨tr, u, hs, hu⟩
  | cons e rest ih =>
    intro s h
    cases e with
    | wakeup =>
      obtain ⟨tr, u, hs, hu⟩ := h.advance rfl (by rw [EventLoop.advance, h.pc_eq]) (by simp)
      obtain ⟨tr', v, hv, hlv⟩ := hu.advance rfl (by rw [EventLoop.advance, hu.pc_eq]) (by simp)
      obtain ⟨tr'', w, hw, hlw⟩ := ((leads_functors rest none _).trans ih) v hlv
      exact ⟨_, w, (hs.append hv).append hw, hlw⟩
    | channel c =>
      obtain ⟨tr, u, hs, hu⟩ := h.advance rfl (by rw [EventLoop.advance, h.pc_eq]) (by simp)
      obtain ⟨tr', v, hv, hlv⟩ := hu.advance rfl (by rw [EventLoop.advance, hu.pc_eq]) (by simp)
      obtain ⟨tr'', w, hw, hlw⟩ := ih v hlv
      exact ⟨_, w, (hs.append hv).append hw, hlw⟩

theorem leads_any (hpc : pc ≠ .outside) : Leads T pc .test := by
  cases pc with
  | outside => exact absurd rfl hpc
  | test => exact .refl _
  | poll =>
    intro s h
    -- `poll` returns, at the latest after its timeout
    have hs : Steps (machine C F T) s [(s, .loop (.poll []))]
        { s with loop := { s.loop with pc := .dispatch [] }, worker := .inLoop, asked := s.asked || false } := by
      refine .cons ⟨⟨by rw [h.pc_eq]; rfl, fun hm => absurd hm List.not_mem_nil⟩, h.worker⟩ ?_ (.nil _)
      simp only [machine, EventLoop.machine]
      rw [assert_bind (by rw [h.worker]; decide)]
      rfl
    obtain ⟨tr, u, hu, hlu⟩ := leads_test [] _ (show Leaving (.dispatch []) { s with
      loop := { s.loop with pc := .dispatch [] }, worker := .inLoop, asked := s.asked || false } from
      ⟨rfl, rfl, by simp, h.quit, h.owner, h.started⟩)
    exact ⟨_, u, hs.append hu, hlu⟩
  | dispatch rest => exact leads_test rest
  | handling c rest =>
    intro s h
    obtain ⟨tr, u, hs, hu⟩ := h.advance rfl (by rw [EventLoop.advance, h.pc_eq]) (by simp)
    obtain ⟨tr', v, hv, hlv⟩ := leads_test rest u hu
    exact ⟨_, v, hs.append hv, hlv⟩
  | woken rest =>
    intro s h
    obtain ⟨tr, u, hs, hu⟩ := h.advance rfl (by rw [EventLoop.advance, h.pc_eq]) (by simp)
    obtain ⟨tr', v, hv, hlv⟩ := ((leads_functors rest none _).trans (leads_test rest)) u hu
    exact ⟨_, v, hs.append hv, hlv⟩
  | functors rest current todo => exact (leads_functors rest current todo).trans (leads_test rest)
  | loopCallback =>
    intro s h
    obtain ⟨tr, u, hs, hu⟩ := h.advance rfl (by rw [EventLoop.advance, h.pc_eq]) (by simp)
    exact ⟨tr, u, hs, hu⟩

/-- The destructor's `join` can return. -/
theorem Told.join_returns (h : Told s) (hj : s.owner = .joining) :
    ∃ tr u, Steps (machine C F T) s tr u ∧ u.owner = .destroyed := by
  have hstarted : s.started = true := by
    by_contra hn
    have := h.placed.started.1 (Bool.not_eq_true _ ▸ hn)
    exact (h.placed.published.1 (h.placed.asked (h.placed.joining hj))).1 this
  have hjoined : s.joined = false := by
    by_contra hn
    exact absurd (hj.symm.trans (h.placed.joined (Bool.not_eq_false _ ▸ hn))) (by decide)
  have finish : ∀ v : St C F T,
      v.worker = .exited → v.owner = .joining → v.started = true → v.joined = false →
      Steps (machine C F T) v [(v, .join)] { v with joined := true, owner := .destroyed } := by
    intro v hw ho hs hjn
    refine .cons ⟨ho, hw⟩ ?_ (.nil _)
    simp only [machine]
    rw [assert_bind hs, assert_bind hjn]
    rfl
  rcases h.told (h.placed.joining hj) with ⟨hw, hq⟩ | hw
  · have hpc := h.placed.inLoop.1 hw
    obtain ⟨tr, u, hs, hu⟩ := leads_any hpc s ⟨hw, rfl, hpc, hq, hj, hstarted, hjoined⟩
    -- the condition is false, and `loop()` returns
    set l : EventLoop.St C F T := { u.loop with looping := false, pc := .outside }
    set v : St C F T := { u with loop := l, worker := .exited, asked := u.asked || false }
    have hv : Steps (machine C F T) u [(u, .loop .advance)] v := by
      refine .cons ⟨?_, .inr hu.worker⟩ ?_ (.nil v)
      · change u.loop.pc.polling = false
        rw [hu.pc_eq]
        rfl
      · simp only [machine, EventLoop.machine, EventLoop.advance, hu.pc_eq]
        rw [assert_bind (by rw [hu.worker]; decide), if_pos hu.quit, some_bind, hu.worker]
        rfl
    exact ⟨_, _, (hs.append hv).append (finish v rfl hu.owner hu.started.1 hu.started.2), rfl⟩
  · exact ⟨_, _, finish s hw hj hstarted hjoined, rfl⟩

/-- Every request to quit is heard, in every state of a run and however it goes
on from there, exactly when each is executed after the worker has entered
`loop()`; and then the owner's `join` can return. -/
theorem quit_heard_iff {tr : List (St C F T × Act C F T)} (h : Run (machine C F T) tr s) :
    ((∀ t, Visited tr s t → Heard t) ↔ Meets QuitsInLoop tr) ∧
      (Meets QuitsInLoop tr → s.owner = .joining →
        ∃ tr' u, Steps (machine C F T) s tr' u ∧ u.owner = .destroyed) := by
  have told_init : Told ({} : St C F T) := ⟨placed_init, by simp⟩
  constructor
  · exact h.throughout_iff Told Heard QuitsInLoop told_init (fun _ h => h.heard)
      (fun _ _ _ ht he hg hx => step_told ht he hg hx) (fun _ _ _ ht he hg hx => not_heard ht.placed he hg hx)
  · intro hG
    exact (Run.inv_if Told QuitsInLoop told_init (fun _ _ _ ht he hg hx => step_told ht he hg hx) h hG).join_returns

/-- The destructor runs while the worker is in `poll`. -/
theorem quit_heard_iff_poll : ∃ tr s, Run (machine Unit Unit Unit) tr s ∧ s.owner = .joining ∧
    s.loop.pc = .poll ∧ (∀ t, Visited tr s t → Heard t) ∧
    ∃ tr' u, Steps (machine Unit Unit Unit) s tr' u ∧ u.owner = .destroyed := by
  obtain ⟨r, hr, hj, hp, hG⟩ : ∃ r ∈ (machine Unit Unit Unit).play {}
      [.startLoop, .notify, .startLoopReturns, .loop .advance, .loop .advance, .destroy, .quit],
      r.2.owner = .joining ∧ r.2.loop.pc = .poll ∧ Meets QuitsInLoop r.1 := by decide +kernel
  have hrun := Machine.play_steps hr
  obtain ⟨hiff, hjoin⟩ := quit_heard_iff hrun
  exact ⟨r.1, r.2, hrun, hj, hp, hiff.2 hG, hjoin hG hj⟩

/-- `startLoop` returns and the destructor runs before the worker enters
`loop()`: the worker reads `quit_` as false and waits in `poll`, with the owner
in `join`. -/
theorem quit_lost : ∃ tr s, Run (machine Unit Unit Unit) tr s ∧
    (∃ p ∈ tr[4]?, p.2 = .quit) ∧
    (∃ p ∈ tr[6]?, Reads p.1 p.2 ∧ p.1.asked = true ∧ p.1.loop.quit = false) ∧
    s.loop.pc = .poll ∧ s.owner = .joining := by
  obtain ⟨r, hr, hq, ⟨p, hp, hb, hpc, ha, hf⟩, hpoll, hj⟩ : ∃ r ∈ (machine Unit Unit Unit).play {}
      [.startLoop, .notify, .startLoopReturns, .destroy, .quit, .loop .advance, .loop .advance],
      (∃ p ∈ r.1[4]?, p.2 = .quit) ∧
        (∃ p ∈ r.1[6]?, p.2 = .loop .advance ∧ p.1.loop.pc = .test ∧ p.1.asked = true ∧ p.1.loop.quit = false) ∧
        r.2.loop.pc = .poll ∧ r.2.owner = .joining := by decide +kernel
  exact ⟨r.1, r.2, Machine.play_steps hr, hq, ⟨p, hp, by rw [hb]; exact hpc, ha, hf⟩, hpoll, hj⟩

end Cppnetool.EventLoopThread
