import Cppnetool.EventLoopMutex
import Cppnetool.Lib.Measure
/-!
# A push and a swap are atomic

What the threads do to the functor queue step by step is `EventLoop.machine`
(`queue_atomic`), in which a push and a swap are one step each: with the mutex,
no other thread reads or writes the vector in between.
-/
open Lib

namespace Cppnetool.EventLoopMutex

variable {C F T : Type} [DecidableEq T]
variable {s s' : St C F T} {a : Act C F T} {t u : Option T} {j : Option (Job F)} {loop : EventLoop.St C F T}

/-! ## What a step is to the loop -/

omit [DecidableEq T] in
theorem woken_pc {pc : EventLoop.Pc C F} (h : woken pc = true) : ∃ rest, pc = .woken rest := by
  cases pc with
  | woken rest => exact ⟨rest, rfl⟩
  | _ => cases h

theorem step_queueInLoop (I : Inv s) {f : F} (ha : enabled s (.queueInLoop t f)) :
    Inv (s.go t (some (.push f)) s.loop) ∧ abs (s.go t (some (.push f)) s.loop) = abs s := by
  obtain ⟨hj, hu⟩ := ha
  have hf := I.fits t
  rw [hj] at hf
  refine ⟨I.go I.entered (.inr (.inl ⟨hf, .inl rfl⟩)) (by grind [Job.reads]) (.inl rfl) (by grind [Job.swaps]) ?_ ?_ ?_ ?_
    I.nodup, ?_⟩
  · have := I.swaps
    grind [Job.swaps]
  · have := I.pushes
    grind
  · have := I.calling
    grind
  · have := I.waking
    grind
  · rw [abs, abs, go_job, go_loop]
    split
    · rename_i h
      rw [h, hj]
      rfl
    · rfl

theorem step_doPendingFunctors (I : Inv s) (ha : enabled s .doPendingFunctors) :
    ∃ s', exec s .doPendingFunctors = some s' ∧ Inv s' ∧ abs s' = abs s := by
  obtain ⟨hj, hw⟩ := ha
  obtain ⟨rest, hpc⟩ := woken_pc hw
  have hc : s.loop.callingPendingFunctors = false := by
    by_contra h
    rcases I.calling (eq_true_of_ne_false h) with h | ⟨j, h, -⟩
    · rw [hpc] at h
      cases h
    · rw [hj] at h
      cases h
  have hf := I.fits none
  rw [hj] at hf
  refine ⟨_, rfl, I.go I.entered (.inr (.inl ⟨hf, .inl rfl⟩)) (by grind [Job.reads]) (.inl rfl) (by grind) ?_ ?_ ?_ ?_
    I.nodup, ?_⟩
  · grind
  · grind [Job.swaps]
  · grind [Job.swaps]
  · have := I.waking
    grind
  · rw [abs, abs, go_job, go_loop, if_pos rfl, hj]
    show ({ s.loop with callingPendingFunctors := false } : EventLoop.St C F T) = s.loop
    rw [← hc]

theorem step_mutex (I : Inv s) {a : Mutex.Act (Option T)} (hg : guarded s a) (ha : Mutex.enabled s.mutex a) :
    ∃ mutex, Mutex.exec s.mutex a = some mutex ∧ Inv { s with mutex } := by
  obtain ⟨m, hx, hm⟩ := Mutex.step_held I.held ha
  refine ⟨m, hx, { I with held := hm, fits := fun t => ?_ }⟩
  have hf := I.fits t
  dsimp only
  rcases Mutex.place_step ha hx t with h | ⟨rfl, h⟩ | ⟨rfl, h⟩ | ⟨rfl, -⟩ | ⟨h, -⟩ | ⟨h, -⟩ | ⟨rfl, h⟩ | ⟨rfl, h⟩
  · rwa [h]
  · obtain ⟨j, hj, hb⟩ := hg
    rw [hj, h]
    exact .inr (.inr (.inl ⟨rfl, hb⟩))
  · obtain ⟨j, hj, hb⟩ := hg
    rw [hj, h]
    exact .inl rfl
  · exact hg.elim
  · exact absurd h hf.awake.1
  · exact absurd h hf.awake.2
  · obtain ⟨j, hj, hb⟩ := hg
    rw [hj, h]
    exact .inr (.inr (.inr ⟨rfl, hb⟩))
  · obtain ⟨j, hj, hb⟩ := hg
    rw [hj, h]
    exact .inr (.inl ⟨rfl, .inr hb⟩)

theorem step_read (I : Inv s) (ha : enabled s (.read t)) :
    ∃ s', exec s (.read t) = some s' ∧ Inv s' ∧ abs s' = abs s := by
  obtain ⟨hp, k, hk, hb⟩ := ha
  refine ⟨s.go t (some (k.read s.loop.pendingFunctors)) s.loop, by simp [exec, hk], ?_⟩
  have hread : ∀ l, (k.read s.loop.pendingFunctors).reads = some l → l = s.loop.pendingFunctors := by
    cases k <;> grind [Job.read, Job.reads, Job.before]
  have hswaps : (k.read s.loop.pendingFunctors).swaps = k.swaps := by
    cases k <;> rfl
  have hpushed : some (k.read s.loop.pendingFunctors) ≠ some .pushed := by
    cases k <;> grind [Job.read, Job.before]
  refine ⟨I.go I.entered (.inl hp) (by grind) (.inl rfl) ?_ ?_ ?_ ?_ ?_ I.nodup, ?_⟩
  · have := I.others
    cases t <;> grind
  · have := I.swaps
    grind
  · have := I.pushes
    grind
  · have := I.calling
    grind
  · have := I.waking
    cases k <;> grind [Job.before]
  · rw [abs, abs, go_job, go_loop]
    split
    · rename_i h
      rw [h, hk]
      cases k with
      | push _ | swap => rfl
      | _ => cases hb
    · rfl

/-- What another thread does to the vector and to the eventfd is seen as it is
done, wherever the loop's thread is. -/
theorem view_pushBack (loop : EventLoop.St C F T) (j : Option (Job F)) (t : T) (f : F) :
    (EventLoop.machine C F T).exec (view loop j) (.pushBack t f) =
      some (view { loop with
        pendingFunctors := loop.pendingFunctors ++ [f], pushed := loop.pushed ++ [f], waking := t :: loop.waking } j) := by
  cases j with
  | none => rfl
  | some k =>
    cases k with
    | pushed =>
      simp only [view]
      split <;> rfl
    | _ => rfl

theorem view_wakeup (loop : EventLoop.St C F T) (j : Option (Job F)) (t : T) :
    (EventLoop.machine C F T).exec (view loop j) (.wakeup t) =
      some (view { loop with wakeupFd := loop.wakeupFd + 1, waking := loop.waking.erase t } j) := by
  cases j with
  | none => rfl
  | some k =>
    cases k with
    | pushed =>
      simp only [view]
      split <;> rfl
    | _ => rfl

theorem view_quit (loop : EventLoop.St C F T) (j : Option (Job F)) :
    (EventLoop.machine C F T).exec (view loop j) .quit = some (view { loop with quit := true } j) := by
  cases j with
  | none => rfl
  | some k =>
    cases k with
    | pushed =>
      simp only [view]
      split <;> rfl
    | _ => rfl

omit [DecidableEq T] in
@[simp] theorem view_waking (loop : EventLoop.St C F T) (j : Option (Job F)) : (view loop j).waking = loop.waking := by
  cases j with
  | none => rfl
  | some k =>
    cases k with
    | pushed =>
      simp only [view]
      split <;> rfl
    | _ => rfl

theorem step_push (I : Inv s) {f : F} (hp : s.mutex.place t = .inside)
    (hk : s.job t = some (.pushing f s.loop.pendingFunctors)) :
    Inv (write s t (.pushing f s.loop.pendingFunctors)) ∧
      Step (EventLoop.machine C F T) (abs s) (act s (.write t)) (abs (write s t (.pushing f s.loop.pendingFunctors))) := by
  constructor
  · refine I.go I.entered (.inl hp) (by grind [Job.reads]) (.inr hp) (by grind [Job.swaps]) ?_ ?_ ?_ ?_ ?_
    · have := I.swaps
      grind [Job.swaps]
    · have := I.pushes
      grind [Job.swaps]
    · have := I.calling
      grind [Job.swaps]
    · have := I.waking
      cases t <;> grind
    · have := I.nodup
      have := I.waking
      cases t <;> grind
  · cases t with
    | none =>
      rw [show act s (.write none) = some (.queueInLoop f) by simp [act, hk]]
      refine .some ?_ ?_
      · rw [abs, hk]
        exact I.pushes _ hk rfl
      · rw [abs, hk]
        rfl
    | some t =>
      rw [show act s (.write (some t)) = some (.pushBack t f) by simp [act, hk]]
      refine .some ?_ ?_
      · show t ∉ (abs s).waking
        rw [abs, view_waking, I.waking, hk]
        nofun
      · rw [abs, view_pushBack]
        rfl

theorem step_swap (I : Inv s) (hp : s.mutex.place t = .inside)
    (hk : s.job t = some (.swapping s.loop.pendingFunctors)) :
    Inv (write s t (.swapping s.loop.pendingFunctors)) ∧
      Step (EventLoop.machine C F T) (abs s) (act s (.write t)) (abs (write s t (.swapping s.loop.pendingFunctors))) := by
  cases t with
  | some t => cases I.others t _ hk
  | none =>
    obtain ⟨hw, hc⟩ := I.swaps _ hk rfl
    obtain ⟨rest, hpc⟩ := woken_pc hw
    constructor
    · refine I.go I.entered (.inl hp) (by grind [Job.reads]) (.inr hp) (by grind) ?_ ?_ ?_ ?_ I.nodup
      · grind
      · grind [Job.swaps]
      · grind [Job.swaps]
      · have := I.waking
        grind
    · rw [show act s (.write none) = some .advance by simp [act, hk]]
      refine .some ?_ ?_
      · show (abs s).pc.polling = false
        rw [abs, hk]
        show s.loop.pc.polling = false
        rw [hpc]
        rfl
      · rw [abs, hk]
        show EventLoop.advance _ = _
        simp only [EventLoop.advance, view, hpc]
        simp [abs, write, go_job, view, enter, hpc, hc]

theorem step_wakeup (I : Inv s) (ha : enabled s (.wakeup t)) :
    Inv (wakeup s t) ∧ Step (EventLoop.machine C F T) (abs s) (act s (.wakeup t)) (abs (wakeup s t)) := by
  obtain ⟨hp, hk⟩ := ha
  cases t with
  | none =>
    have inv (fd : Nat) : Inv (s.go none none { s.loop with wakeupFd := fd }) := by
      refine I.go I.entered hp (by grind) (.inl rfl) (by grind) (by grind) (by grind) ?_ ?_ I.nodup
      · have := I.calling
        grind [Job.swaps]
      · have := I.waking
        grind
    constructor
    · rw [wakeup]
      split
      · exact inv _
      · exact inv s.loop.wakeupFd
    · refine .none ?_
      rw [abs, abs, wakeup, go_job, if_pos rfl, hk]
      rfl
  | some t =>
    constructor
    · refine I.go I.entered hp (by grind) (.inl rfl) (by grind) ?_ ?_ ?_ ?_ ?_
      · have := I.swaps
        grind
      · have := I.pushes
        grind
      · have := I.calling
        grind
      · have := I.waking
        have := I.nodup
        grind
      · exact I.nodup.erase t
    · refine Step.some (b := EventLoop.Act.wakeup t) ?_ ?_
      · show t ∈ (abs s).waking
        rw [abs, view_waking, I.waking, hk]
      · rw [abs, view_wakeup]
        rfl

theorem step_runFunctors (I : Inv s) (ha : enabled s .runFunctors) :
    ∃ s', exec s .runFunctors = some s' ∧ Inv s' ∧ abs s' = abs s := by
  obtain ⟨hp, functors, hk⟩ := ha
  obtain ⟨hw, hc⟩ := I.swaps _ hk rfl
  obtain ⟨rest, hpc⟩ := woken_pc hw
  refine ⟨s.go none none { s.loop with pc := enter s.loop.pc functors }, by simp [exec, hk], ?_, ?_⟩
  · have hl : s.loop.looping ≠ false := fun h => by
      have := I.entered.1 h
      rw [hpc] at this
      cases this
    refine I.go (iff_of_false hl ?_) hp (by grind) (.inl rfl) (by grind) (by grind) (by grind) ?_ ?_ I.nodup
    · rw [hpc]
      nofun
    · rw [hpc]
      exact fun _ => .inl rfl
    · have := I.waking
      grind
  · rw [abs, abs, go_job, if_pos rfl, hk]
    rfl

omit [DecidableEq T] in
theorem advance_other {l l' : EventLoop.St C F T} (hw : woken l.pc = false)
    (hc : l.callingPendingFunctors = true → l.pc.inBatch = true) (hx : EventLoop.advance l = some l') :
    l'.waking = l.waking ∧ l'.pendingFunctors = l.pendingFunctors ∧
      (l'.callingPendingFunctors = true → l'.pc.inBatch = true) := by
  unfold EventLoop.advance at hx
  split at hx <;> rename_i hpc <;> rw [hpc] at hw hc
  case h_1 =>
    obtain ⟨-, -, hx⟩ := Option.bind_eq_some_iff.1 hx
    cases hx
    exact ⟨rfl, rfl, fun h => absurd (hc h) nofun⟩
  case h_2 => split at hx <;> cases hx <;> exact ⟨rfl, rfl, fun h => absurd (hc h) nofun⟩
  case h_3 => cases hx
  case h_8 => cases hw
  case h_9 =>
    cases hx
    exact ⟨rfl, rfl, fun _ => rfl⟩
  case h_10 =>
    cases hx
    exact ⟨rfl, rfl, nofun⟩
  all_goals
    cases hx
    exact ⟨rfl, rfl, fun h => absurd (hc h) nofun⟩

/-- A step of the loop that has nothing to do with the queue. -/
theorem other_step {l l' : EventLoop.St C F T} {a : EventLoop.Act C F T} (ho : other a = true)
    (hw : woken l.pc = false) (hc : l.callingPendingFunctors = true → l.pc.inBatch = true)
    (ha : (EventLoop.machine C F T).enabled l a) (hx : (EventLoop.machine C F T).exec l a = some l') :
    l'.waking = l.waking ∧ l'.pendingFunctors = l.pendingFunctors ∧
      (l'.callingPendingFunctors = true → l'.pc.inBatch = true) := by
  cases a with
  | advance => exact advance_other hw hc hx
  | poll active =>
    cases hx
    refine ⟨rfl, rfl, fun h => ?_⟩
    have hb := hc h
    have hp := ha.1
    cases hpc : l.pc <;> simp_all [EventLoop.Pc.polling, EventLoop.Pc.inBatch]
  | quit | setLoopCallback _ =>
    cases hx
    exact ⟨rfl, rfl, hc⟩
  | queueInLoop _ | pushBack _ _ | wakeup _ => cases ho

theorem step_loop (I : Inv s) {a : EventLoop.Act C F T} (ha : enabled s (.loop a)) :
    ∃ s', exec s (.loop a) = some s' ∧ Inv s' ∧ Step (EventLoop.machine C F T) (abs s) (some a) (abs s') := by
  by_cases hq : a = .quit
  · subst hq
    refine ⟨_, rfl, ⟨I.entered, I.held, I.fits, I.reads, I.others, I.swaps, I.pushes, I.calling, I.waking, I.nodup⟩,
      .some trivial ?_⟩
    rw [abs, view_quit]
    rfl
  · obtain ⟨hj, ho, hw, ha⟩ : s.job none = none ∧ other a = true ∧ woken s.loop.pc = false ∧
        (EventLoop.machine C F T).enabled s.loop a := by
      cases a <;> first | exact ha | exact absurd rfl hq
    obtain ⟨loop, hx, he, -⟩ := EventLoop.step_queue I.entered ha
    obtain ⟨h1, h2, h3⟩ := other_step ho hw (fun h => (I.calling h).resolve_right fun ⟨_, h, _⟩ => by
      rw [hj] at h
      cases h) ha hx
    have ho : abs s = s.loop := by rw [abs, hj]; rfl
    have ho' : abs { s with loop } = loop := by rw [abs, hj]; rfl
    refine ⟨{ s with loop }, by simp [exec, hx], ⟨he, I.held, I.fits, ?_, I.others, ?_, ?_, fun h => .inl (h3 h), ?_, ?_⟩,
      .some ?_ ?_⟩
    · rw [h2]
      exact I.reads
    · intro j h
      rw [hj] at h
      cases h
    · intro j h
      rw [hj] at h
      cases h
    · rw [h1]
      exact I.waking
    · rw [h1]
      exact I.nodup
    · rwa [ho]
    · rw [ho, ho', hx]

/-- Every step keeps the invariant, and is at most one step of the loop. -/
theorem step_refines (I : Inv s) (ha : enabled s a) :
    ∃ s', exec s a = some s' ∧ Inv s' ∧ Step (EventLoop.machine C F T) (abs s) (act s a) (abs s') := by
  cases a with
  | queueInLoop t f =>
    obtain ⟨I', h⟩ := step_queueInLoop I ha
    exact ⟨_, rfl, I', .none h⟩
  | doPendingFunctors =>
    obtain ⟨s', hx, I', h⟩ := step_doPendingFunctors I ha
    exact ⟨s', hx, I', .none h⟩
  | mutex a =>
    obtain ⟨mutex, hx, I'⟩ := step_mutex I ha.1 ha.2
    exact ⟨{ s with mutex }, by simp [exec, hx], I', .none rfl⟩
  | read t =>
    obtain ⟨s', hx, I', h⟩ := step_read I ha
    exact ⟨s', hx, I', .none h⟩
  | write t =>
    obtain ⟨hp, j, hj, hr⟩ := ha
    obtain ⟨read, hr⟩ := Option.isSome_iff_exists.1 hr
    obtain rfl := I.reads t j read hj hr
    refine ⟨write s t j, by simp [exec, hj], ?_⟩
    cases j with
    | pushing f _ =>
      cases hr
      exact step_push I hp hj
    | swapping _ =>
      cases hr
      exact step_swap I hp hj
    | push _ | pushed | swap | swapped _ => cases hr
  | wakeup t => exact ⟨_, rfl, step_wakeup I ha⟩
  | runFunctors =>
    obtain ⟨s', hx, I', h⟩ := step_runFunctors I ha
    exact ⟨s', hx, I', .none h⟩
  | loop a => exact step_loop I ha

/-! ## How long a call takes -/

/-- The thread whose call of the two is begun by a step, and the one whose call
it carries on. -/
def Act.calls : Act C F T → Option (Option T)
  | .queueInLoop t _ => some t
  | .doPendingFunctors => some none
  | .mutex _ | .read _ | .write _ | .wakeup _ | .runFunctors | .loop _ => none

def Act.goesOn : Act C F T → Option (Option T)
  | .mutex (.acquire t) | .mutex (.setHolder t) | .mutex (.clearHolder t) | .mutex (.release t) => some t
  | .read t | .write t | .wakeup t => some t
  | .runFunctors => some none
  | .queueInLoop _ _ | .doPendingFunctors | .mutex _ | .loop _ => none

/-- The steps that a call still takes. -/
def left : Mutex.Place → Option (Job F) → Nat
  | _, none => 0
  | .outside, some (.push _) | .outside, some .swap => 7
  | .acquired, some _ => 6
  | .inside, some (.push _) | .inside, some .swap => 5
  | _, some (.pushing _ _) | _, some (.swapping _) => 4
  | .inside, some _ => 3
  | .releasing, some _ => 2
  | _, some _ => 1

theorem left_step (I : Inv s) (ha : enabled s a) (hx : exec s a = some s') (t : Option T) :
    (if a.goesOn = some t then 1 else 0) + left (s'.mutex.place t) (s'.job t) =
      left (s.mutex.place t) (s.job t) + (if a.calls = some t then 7 else 0) := by
  have hf := I.fits t
  cases a with
  | queueInLoop u f =>
    cases hx
    obtain ⟨hj, -⟩ := ha
    grind [Act.goesOn, Act.calls, left, Fits]
  | doPendingFunctors =>
    cases hx
    obtain ⟨hj, -⟩ := ha
    grind [Act.goesOn, Act.calls, left, Fits]
  | mutex a =>
    obtain ⟨hg, ha⟩ := ha
    obtain ⟨m, hm, hx⟩ := Option.bind_eq_some_iff.1 hx
    cases hx
    cases a with
    | acquire u | setHolder u | clearHolder u =>
      cases hm
      obtain ⟨j, hj, hb⟩ := hg
      cases j <;> grind [Act.goesOn, Act.calls, left, Mutex.place_move, Mutex.enabled, Job.before, Job.after]
    | release u =>
      obtain ⟨-, -, hm⟩ := Option.bind_eq_some_iff.1 hm
      cases hm
      obtain ⟨j, hj, hb⟩ := hg
      cases j <;> grind [Act.goesOn, Act.calls, left, Mutex.place_move, Mutex.enabled, Job.before, Job.after]
    | _ => exact hg.elim
  | read u =>
    obtain ⟨hp, k, hk, hb⟩ := ha
    obtain ⟨k', hk', hx⟩ := Option.bind_eq_some_iff.1 hx
    cases hk.symm.trans hk'
    cases hx
    cases k <;> grind [Act.goesOn, Act.calls, left, Job.read, Job.before]
  | write u =>
    obtain ⟨hp, k, hk, hr⟩ := ha
    obtain ⟨k', hk', hx⟩ := Option.bind_eq_some_iff.1 hx
    cases hk.symm.trans hk'
    cases hx
    cases k <;> grind [Act.goesOn, Act.calls, left, write, Job.reads]
  | wakeup u =>
    cases hx
    obtain ⟨hp, hk⟩ := ha
    cases u <;> grind [Act.goesOn, Act.calls, left, wakeup]
  | runFunctors =>
    obtain ⟨hp, functors, hk⟩ := ha
    obtain ⟨k', hk', hx⟩ := Option.bind_eq_some_iff.1 hx
    cases hk.symm.trans hk'
    cases hx
    grind [Act.goesOn, Act.calls, left]
  | loop a =>
    obtain ⟨loop, -, hx⟩ := Option.bind_eq_some_iff.1 hx
    cases hx
    simp [Act.goesOn, Act.calls]

/-- While a thread is in one of the two, a thread that is can go on. -/
theorem Inv.goesOn (I : Inv s) (ht : s.job t ≠ none) : ∃ a u, a.goesOn = some u ∧ enabled s a := by
  cases ho : s.mutex.owner with
  | none =>
    obtain ⟨j, hj⟩ := Option.ne_none_iff_exists'.1 ht
    have hp : s.mutex.place t = .outside := by
      have hf := I.fits t
      have hn : (s.mutex.place t).owns ≠ true := fun h => by
        have := (I.held.owner t).2 h
        rw [ho] at this
        cases this
      rw [hj] at hf
      grind [Fits, Mutex.Place.owns]
    by_cases hb : j.before = true
    · exact ⟨.mutex (.acquire t), t, rfl, ⟨j, hj, hb⟩, hp, ho⟩
    · cases j with
      | push _ | swap => exact absurd rfl hb
      | pushing _ _ | swapping _ =>
        have := I.reading hj rfl
        rw [hp] at this
        cases this
      | pushed => exact ⟨.wakeup t, t, rfl, hp, hj⟩
      | swapped functors =>
        cases t with
        | none => exact ⟨.runFunctors, none, rfl, hp, functors, hj⟩
        | some t => cases I.others t _ hj
  | some u =>
    have howns := (I.held.owner u).1 ho
    have hf := I.fits u
    cases hj : s.job u with
    | none =>
      rw [hj] at hf
      rw [show s.mutex.place u = .outside from hf] at howns
      cases howns
    | some j =>
      rw [hj] at hf
      rcases hf with h | ⟨h, -⟩ | ⟨h, hb⟩ | ⟨h, hb⟩
      · cases j with
        | push _ | swap => exact ⟨.read u, u, rfl, h, _, hj, rfl⟩
        | pushing _ _ | swapping _ => exact ⟨.write u, u, rfl, h, _, hj, rfl⟩
        | pushed | swapped _ => exact ⟨.mutex (.clearHolder u), u, rfl, ⟨_, hj, rfl⟩, h⟩
      · rw [h] at howns
        cases howns
      · exact ⟨.mutex (.setHolder u), u, rfl, ⟨j, hj, hb⟩, h⟩
      · exact ⟨.mutex (.release u), u, rfl, ⟨j, hj, hb⟩, h⟩

/-! ## What a run is to the loop -/

/-- `queueInLoop` and `doPendingFunctors`, with the mutex and with the vector
read and written apart, are the atomic push and swap of `EventLoop.machine`.
Nothing fails, and in every state that can be reached:
- the steps so far are a run of `EventLoop.machine`, in which a push is where the
  vector is written, and so is a swap;
- no two threads are in their locked blocks, and a thread has the mutex only in
  one of the two functions: a functor is run without it;
- each call takes seven steps of its thread, and while a thread is in a call
  some thread can take one of them. -/
theorem queue_atomic : (machine C F T).Safe ∧ ∀ tr s, Run (machine C F T) tr s →
    Run (EventLoop.machine C F T) (seen abs act tr) (abs s) ∧
    (∀ t u, s.mutex.place t = .inside → s.mutex.place u = .inside → t = u) ∧
    (∀ t, s.mutex.owner = some t → s.job t ≠ none) ∧
    (∀ t, tr.countP (fun p => p.2.goesOn = some t) + left (s.mutex.place t) (s.job t) =
      7 * tr.countP (fun p => p.2.calls = some t)) ∧
    ∀ t, s.job t ≠ none → ∃ a u, a.goesOn = some u ∧ enabled s a := by
  refine ⟨Machine.safe_of_inv Inv inv_init fun s a I ha => ?_, fun tr s h => ?_⟩
  · obtain ⟨s', hx, I', -⟩ := step_refines I ha
    exact ⟨s', hx, I'⟩
  have step {s a s'} (I : Inv s) (ha : enabled s a) (hx : exec s a = some s') :
      Inv s' ∧ Step (EventLoop.machine C F T) (abs s) (act s a) (abs s') := by
    obtain ⟨s'', hx', h⟩ := step_refines I ha
    cases hx.symm.trans hx'
    exact h
  obtain ⟨I, hrun⟩ := h.simulates Inv abs act inv_init rfl fun s a s' I ha hx => step I ha hx
  refine ⟨hrun, fun t u ht hu => (I.alone ht (by rw [hu]; rfl)).symm, fun t ht hj => ?_, fun t => ?_, fun t ht => I.goesOn ht⟩
  · have hf := I.fits t
    rw [hj] at hf
    have := (I.held.owner t).1 ht
    rw [show s.mutex.place t = .outside from hf] at this
    cases this
  · have := h.cost_eq Inv (fun s => left (s.mutex.place t) (s.job t))
      (fun s a s' I ha hx => ⟨(step I ha hx).1, left_step I ha hx t⟩) inv_init
    have h1 := total_if (fun _ (a : Act C F T) => a.goesOn = some t) 1 tr
    have h2 := total_if (fun _ (a : Act C F T) => a.calls = some t) 7 tr
    simp only [decide_eq_true_eq] at h1 h2
    rw [h1, h2, Nat.one_mul] at this
    rw [this]
    exact Nat.zero_add _

/-- The loop's thread has read the vector to swap it; another thread waits for
the mutex. -/
theorem queue_atomic_swap : ∃ tr s, Run (machine Unit Nat Unit) tr s ∧ s.mutex.owner = some none ∧
    s.job none = some (.swapping [5]) ∧ s.job (some ()) = some (.push 7) ∧
    Run (EventLoop.machine Unit Nat Unit) (seen abs act tr) (abs s) ∧
    ∃ a u, a.goesOn = some u ∧ enabled s a := by
  obtain ⟨r, hr, h1, h2, h3⟩ : ∃ r ∈ (machine Unit Nat Unit).play (machine Unit Nat Unit).init
      [.loop .advance, .loop .advance, .queueInLoop (some ()) 5, .mutex (.acquire (some ())),
        .mutex (.setHolder (some ())), .read (some ()), .write (some ()), .mutex (.clearHolder (some ())),
        .mutex (.release (some ())), .wakeup (some ()), .loop (.poll [.wakeup]), .loop .advance, .doPendingFunctors,
        .mutex (.acquire none), .queueInLoop (some ()) 7, .mutex (.setHolder none), .read none],
      r.2.mutex.owner = some none ∧ r.2.job none = some (.swapping [5]) ∧ r.2.job (some ()) = some (.push 7) := by
    decide +kernel
  have hrun := Machine.play_steps hr
  obtain ⟨hsim, -, -, -, hgo⟩ := queue_atomic.2 r.1 r.2 hrun
  exact ⟨r.1, r.2, hrun, h1, h2, h3, hsim, hgo none (by rw [h2]; nofun)⟩

end Cppnetool.EventLoopMutex
