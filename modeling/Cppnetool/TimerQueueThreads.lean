import Cppnetool.TimerQueueCancel
import Cppnetool.TimerQueuePace
import Cppnetool.TimerQueueTarget
/-!
# Timers of other threads

`addTimer` and `cancel` of `net/TimerQueue.cc` with `runInLoop`: in the loop
thread they call `addTimerInLoop` and `cancelInLoop` at once, in another thread
they queue them, and the loop runs what is queued in its order, between two
batches of timers.

In another thread `addTimer` reads the sequence of its timer only when the
timer is queued, and by then the loop may have called and deleted it. But for
that read no step fails, and what is run is a run of `TimerQueue.machine`
(`cancel_queued_final`). A cancellation that has been queued is final: the timer
has been inserted before, or is gone, and no batch is running.
-/
open Lib

namespace Cppnetool.TimerThreads

open TimerQueue

/-- What is bound and given to `queueInLoop`. -/
inductive Functor
  | addTimerInLoop (a : Addr)
  | cancelInLoop (id : TimerId)
deriving DecidableEq

/-- A call of `addTimer` in another thread is known by the id of its timer. -/
structure St where
  sys : Sys
  pendingFunctors : List Functor := []
  /-- The calls that have made their timer, and are to queue it. -/
  adding : List TimerId := []
  /-- The calls that have queued it, and are to read its sequence and return. -/
  returning : List TimerId := []
  /-- The ids that `addTimer` has returned. -/
  given : List TimerId := []

inductive Act
  /-- `addTimer` in the loop thread, which reads the clock. -/
  | addTimer (a : Addr) (when : Int) (interval : Interval) (clock : Int)
  /-- The three steps of `addTimer` in another one. -/
  | newTimer (a : Addr) (when : Int) (interval : Interval)
  | queueInLoop (id : TimerId)
  | sequence (id : TimerId)
  | cancel (id : TimerId)
  | cancelElsewhere (id : TimerId)
  /-- The loop runs the next functor. -/
  | functor (clock : Int)
  | handleRead (now : Int)
  | run
  | reset (clock : Int)
deriving DecidableEq

/-- The step of the queue that a functor takes. -/
def Functor.act (clock : Int) : Functor → TimerQueue.Act
  | addTimerInLoop a => .addTimerInLoop a clock
  | cancelInLoop id => .cancelInLoop id

/-- The steps of the queue that a step takes, one after the other. -/
def acts (s : St) : Act → List TimerQueue.Act
  | .addTimer a w interval clock => [.addTimer a w interval, .addTimerInLoop a clock]
  | .newTimer a w interval => [.addTimer a w interval]
  | .cancel id => [.cancelInLoop id]
  | .queueInLoop _ | .sequence _ | .cancelElsewhere _ => []
  | .functor clock => (s.pendingFunctors.head?.map (Functor.act clock)).toList
  | .handleRead now => [.handleRead now]
  | .run => [.run]
  | .reset clock => [.reset clock]

/-- `TimerId(timer, timer->sequence())`. -/
def timerId (s : TimerQueue.St) (timer : Addr) : Option TimerId := do
  let t ← s.heap timer
  return ⟨timer, t.sequence⟩

/-- Functors are run between two batches. -/
def enabled (s : St) : Act → Prop
  | .addTimer a _ _ _ => (0 < a ∧ a < UINTPTR_MAX ∧ s.sys.heap a = none) ∧ s.sys.phase.free
  | .newTimer a _ _ => 0 < a ∧ a < UINTPTR_MAX ∧ s.sys.heap a = none
  | .queueInLoop id => id ∈ s.adding
  | .sequence id => id ∈ s.returning
  | .cancel id => (id ∈ s.given ∨ id = {}) ∧ s.sys.phase.free
  | .cancelElsewhere id => id ∈ s.given ∨ id = {}
  | .functor _ => s.pendingFunctors ≠ [] ∧ s.sys.phase = .idle
  | .handleRead _ => s.sys.phase = .idle
  | .run => s.sys.phase.next ≠ none
  | .reset _ => s.sys.phase ≠ .idle ∧ s.sys.phase.next = none

/-- What a step does beside the queue, which is in state `sys` after it. -/
def beside (s : St) (sys : Sys) : Act → Option St
  | .addTimer a _ _ _ => do
    let id ← timerId sys.toSt a
    return { s with sys, given := s.given ++ [id] }
  | .newTimer a _ _ => some { s with sys, adding := s.adding ++ [⟨a, s.sys.numCreated + 1⟩] }
  | .queueInLoop id => some
    { s with
      sys
      adding := s.adding.erase id
      returning := s.returning ++ [id]
      pendingFunctors := s.pendingFunctors ++ [.addTimerInLoop id.timer] }
  | .sequence id => do
    let read ← timerId sys.toSt id.timer
    -- a timer made where this one has been deleted is another object
    assert (read = id)
    return { s with sys, returning := s.returning.erase id, given := s.given ++ [read] }
  | .cancelElsewhere id => some { s with sys, pendingFunctors := s.pendingFunctors ++ [.cancelInLoop id] }
  | .functor _ => some { s with sys, pendingFunctors := s.pendingFunctors.tail }
  | .cancel _ | .handleRead _ | .run | .reset _ => some { s with sys }

/-- `calling0` is what the uninitialized `callingExpiredTimers_` starts as. -/
def machine (calling0 : Bool) : Machine St Act where
  init := { sys := (TimerQueue.machine calling0).init }
  enabled := enabled
  exec s a := do
    let sys ← (acts s a).foldlM (TimerQueue.machine calling0).exec s.sys
    beside s sys a

instance (calling0 : Bool) (s : St) : ∀ a, Decidable ((machine calling0).enabled s a)
  | .addTimer a _ _ _ => inferInstanceAs (Decidable ((0 < a ∧ a < UINTPTR_MAX ∧ s.sys.heap a = none) ∧ s.sys.phase.free))
  | .newTimer a _ _ => inferInstanceAs (Decidable (0 < a ∧ a < UINTPTR_MAX ∧ s.sys.heap a = none))
  | .queueInLoop id => inferInstanceAs (Decidable (id ∈ s.adding))
  | .sequence id => inferInstanceAs (Decidable (id ∈ s.returning))
  | .cancel id => inferInstanceAs (Decidable ((id ∈ s.given ∨ id = {}) ∧ s.sys.phase.free))
  | .cancelElsewhere id => inferInstanceAs (Decidable (id ∈ s.given ∨ id = {}))
  | .functor _ => inferInstanceAs (Decidable (s.pendingFunctors ≠ [] ∧ s.sys.phase = .idle))
  | .handleRead _ => inferInstanceAs (Decidable (s.sys.phase = .idle))
  | .run => inferInstanceAs (Decidable (s.sys.phase.next ≠ none))
  | .reset _ => inferInstanceAs (Decidable (s.sys.phase ≠ .idle ∧ s.sys.phase.next = none))

/-! ## What is queued -/

def Functor.adds : Functor → Option Addr
  | addTimerInLoop a => some a
  | cancelInLoop _ => none

/-- A cancellation comes after the insertion of its timer. -/
def After (s : Sys) : Functor → Functor → Prop
  | .cancelInLoop id, .addTimerInLoop a => ¬ SeqAt s.toSt a id.sequence
  | _, _ => True

/-- The ids of the timers made, by the calls that have them. -/
def St.ids (s : St) : List TimerId := s.adding ++ (s.returning ++ s.given)

/-- What holds between the queue and the calls in other threads. -/
structure Inv (calling0 : Bool) (s : St) : Prop where
  reached : ∃ tr, Run (TimerQueue.machine calling0) tr s.sys
  ids : s.ids.Perm s.sys.issued
  queued : s.sys.queued.Perm (s.adding.map TimerId.timer ++ s.pendingFunctors.filterMap Functor.adds)
  made : ∀ id ∈ s.adding, SeqAt s.sys.toSt id.timer id.sequence
  ordered : s.pendingFunctors.Pairwise (After s.sys)
  cancels : ∀ id, .cancelInLoop id ∈ s.pendingFunctors → id ∈ s.given ∨ id = {}

variable {calling0 : Bool} {s s' t : St} {a : Act} {id : TimerId} {sys : Sys} {b : TimerQueue.Act}
  {tr pre post : List (St × Act)}

theorem inv_init : Inv calling0 (machine calling0).init where
  reached := ⟨[], .nil _⟩
  ids := .refl _
  queued := .refl _
  made _ h := by cases h
  ordered := .nil
  cancels _ h := by cases h

/-! ## One step of the queue -/

/-- The addresses that wait for their functor after a step. -/
def queuedAfter (queued : List Addr) : TimerQueue.Act → List Addr
  | .addTimer a _ _ => queued ++ [a]
  | .addTimerInLoop a _ => queued.erase a
  | .cancelInLoop _ | .handleRead _ | .run | .reset _ => queued

/-- The id of the timer that a step makes. -/
def makes (s : Sys) : TimerQueue.Act → List TimerId
  | .addTimer a _ _ => [⟨a, s.numCreated + 1⟩]
  | .addTimerInLoop _ _ | .cancelInLoop _ | .handleRead _ | .run | .reset _ => []

section Queue
variable {u u' : Sys} (S : Sound u) (he : (TimerQueue.machine calling0).enabled u b)
  (hx : (TimerQueue.machine calling0).exec u b = some u')
include S he hx

theorem exec_queued : u'.queued = queuedAfter u.queued b ∧ u'.issued = u.issued ++ makes u b := by
  cases b with
  | addTimer a w i =>
    cases hx
    exact ⟨rfl, rfl⟩
  | addTimerInLoop a clock | cancelInLoop id | handleRead now =>
    obtain ⟨_, -, rfl⟩ := Option.map_eq_some_iff.1 hx
    exact ⟨rfl, (List.append_nil _).symm⟩
  | run =>
    obtain ⟨now, done, e, todo, hp⟩ := Phase.next_ne_none he
    cases (run_spec calling0 S hp).1.symm.trans hx
    exact ⟨rfl, (List.append_nil _).symm⟩
  | reset clock =>
    obtain ⟨now, done, hp⟩ := Phase.next_none he.1 he.2
    simp only [TimerQueue.machine, hp] at hx
    obtain ⟨_, -, rfl⟩ := Option.map_eq_some_iff.1 hx
    exact ⟨rfl, (List.append_nil _).symm⟩

/-- A timer that is at an address was there before, if it is not new. -/
theorem seqAt_back {a : Addr} {q : Nat} (hq : q ≤ u.numCreated) (h : SeqAt u'.toSt a q) : SeqAt u.toSt a q := by
  obtain ⟨v, hv, hs⟩ := h
  by_cases hreset : b.isReset = true
  · cases b with
    | reset clock =>
      obtain ⟨now, done, -, -, -, -, hb⟩ := S.reset_leaves he hx
      rw [hb a] at hv
      split at hv
      · obtain ⟨u, hu, hv⟩ := Option.bind_eq_some_iff.1 hv
        rw [settled] at hv
        split at hv
        · cases hv
          exact ⟨u, hu, hs⟩
        · cases hv
      · exact ⟨v, hv, hs⟩
    | _ => cases hreset
  · exact ⟨v, S.timer_back he hx (Bool.not_eq_true _ ▸ hreset) hq hv hs, hs⟩

/-- A timer that waits for its functor stays where it is. -/
theorem queued_stays {a : Addr} (ha : a ∈ u.queued) : u'.heap a = u.heap a := by
  cases b with
  | addTimer b w i =>
    cases hx
    refine Function.update_of_ne ?_ _ _
    rintro rfl
    exact (S.rep.held a).1 (List.mem_append_left _ ha) he.2.2
  | addTimerInLoop b clock =>
    obtain ⟨t, fd, -, hx', -⟩ := addTimerInLoop_spec S.rep he.1 clock
    simp only [TimerQueue.machine, hx'] at hx
    cases hx
    rfl
  | cancelInLoop id =>
    rcases cancelInLoop_spec S.rep id with ⟨t, -, -, hw, hc, -⟩ | ⟨-, hc⟩
    · simp only [TimerQueue.machine, hc] at hx
      cases hx
      refine Function.update_of_ne ?_ _ _
      rintro rfl
      exact S.rep.not_waiting_of_queued ha hw
    · simp only [TimerQueue.machine, hc] at hx
      cases hx
      split <;> rfl
  | handleRead now =>
    obtain ⟨active', hx', -⟩ := handleRead_spec (S.rep_idle he) now
    simp only [TimerQueue.machine, hx'] at hx
    cases hx
    rfl
  | run =>
    obtain ⟨now, done, e, todo, hp⟩ := Phase.next_ne_none he
    cases (run_spec calling0 S hp).1.symm.trans hx
    rfl
  | reset clock =>
    obtain ⟨now, done, hp, -, -, -, hb⟩ := S.reset_leaves he hx
    refine (hb a).trans (if_neg fun hd => ?_)
    refine (List.nodup_append.1 S.rep.nodup).2.2 a ha a (List.mem_append_right _ ?_) rfl
    rwa [hp, Phase.batch, List.append_nil]

end Queue

/-- The timer of an id is at its address until it is deleted. -/
theorem seqAt_iff {u : Sys} (S : Sound u) (hid : id ∈ u.issued) :
    SeqAt u.toSt id.timer id.sequence ↔ id.sequence ∉ u.deleted := by
  obtain ⟨⟨h1, h2⟩, hat⟩ := S.issued id hid
  constructor
  · rintro ⟨t, ht, hq⟩
    exact hq ▸ (S.rep.objects.seq _ t ht).2.2
  · intro hdel
    obtain ⟨a, t, ht, hq⟩ := (S.rep.objects.all id.sequence h1 h2).resolve_left hdel
    obtain rfl := hat a t ht hq
    exact ⟨t, ht, hq⟩

theorem perm_append_right_comm {α : Type} (l₁ l₂ l₃ : List α) : (l₁ ++ l₂ ++ l₃).Perm (l₁ ++ l₃ ++ l₂) := by
  rw [List.append_assoc, List.append_assoc]
  exact List.perm_append_comm.append_left l₁

theorem timerId_eq_some_iff {u : TimerQueue.St} : timerId u id.timer = some id ↔ SeqAt u id.timer id.sequence := by
  unfold timerId SeqAt
  cases h : u.heap id.timer with
  | none => simp
  | some t =>
    obtain ⟨timer, sequence⟩ := id
    simp

/-! ## The ids of the calls -/

theorem St.mem_ids_of_adding (h : id ∈ s.adding) : id ∈ s.ids := List.mem_append_left _ h

theorem St.mem_ids_of_returning (h : id ∈ s.returning) : id ∈ s.ids :=
  List.mem_append_right _ (List.mem_append_left _ h)

theorem St.mem_ids_of_given (h : id ∈ s.given) : id ∈ s.ids := List.mem_append_right _ (List.mem_append_right _ h)

section Inv
variable (I : Inv calling0 s)
include I

theorem Inv.sound : Sound s.sys := I.reached.elim fun _ h => run_sound_all h

theorem Inv.mem_issued (h : id ∈ s.ids) : id ∈ s.sys.issued := I.ids.subset h

/-- The sequence of an id that `cancel` takes. -/
theorem Inv.given_le (h : id ∈ s.given ∨ id = {}) : id.sequence ≤ s.sys.numCreated := by
  rcases h with h | rfl
  · exact (I.sound.issued id (I.mem_issued (St.mem_ids_of_given h))).1.2
  · exact Nat.zero_le _

/-- A call that has not returned has another timer than those that have. -/
theorem Inv.not_given (h : id ∈ s.given ∨ id = {}) {id' : TimerId} (h' : id' ∈ s.adding) :
    ¬ SeqAt s.sys.toSt id'.timer id.sequence := by
  rintro ⟨t, ht, hq⟩
  obtain ⟨t', ht', hq'⟩ := I.made id' h'
  cases ht.symm.trans ht'
  have heq : id'.sequence = id.sequence := hq'.symm.trans hq
  rcases h with h | rfl
  · obtain ⟨tr, hr⟩ := I.reached
    have hn := ((I.ids.map TimerId.sequence).nodup_iff).2 (issued_nodup hr)
    rw [St.ids, List.map_append, List.nodup_append] at hn
    refine hn.2.2 _ (List.mem_map_of_mem h') _ (List.mem_map_of_mem (List.mem_append_right _ h)) heq
  · have h1 := (I.sound.issued id' (I.mem_issued (St.mem_ids_of_adding h'))).1.1
    rw [heq] at h1
    cases h1

/-! ## One step -/

/-- What is behind in the order stays behind. -/
theorem Inv.after (he : (TimerQueue.machine calling0).enabled s.sys b)
    (hx : (TimerQueue.machine calling0).exec s.sys b = some sys) : s.pendingFunctors.Pairwise (After sys) := by
  refine I.ordered.imp_of_mem ?_
  intro f g hf _ h
  cases f with
  | addTimerInLoop a => trivial
  | cancelInLoop id =>
    cases g with
    | cancelInLoop _ => trivial
    | addTimerInLoop a => exact fun hs => h (seqAt_back I.sound he hx (I.given_le (I.cancels id hf)) hs)

/-- The timer of a call is at its address while it is not inserted. -/
theorem Inv.made_stays (he : (TimerQueue.machine calling0).enabled s.sys b)
    (hx : (TimerQueue.machine calling0).exec s.sys b = some sys) (h : id ∈ s.adding) :
    SeqAt sys.toSt id.timer id.sequence := by
  obtain ⟨t, ht, hq⟩ := I.made id h
  have hqueued : id.timer ∈ s.sys.queued :=
    I.queued.mem_iff.2 (List.mem_append_left _ (List.mem_map_of_mem h))
  exact ⟨t, (queued_stays I.sound he hx hqueued).trans ht, hq⟩

theorem Inv.snoc (he : (TimerQueue.machine calling0).enabled s.sys b)
    (hx : (TimerQueue.machine calling0).exec s.sys b = some sys) :
    ∃ tr, Run (TimerQueue.machine calling0) tr sys :=
  I.reached.imp' (· ++ [(s.sys, b)]) fun _ h => Steps.snoc h he hx

/-- A step of the queue that makes no timer. It may be that of a functor, and
then this one is no longer pending. -/
theorem Inv.step (he : (TimerQueue.machine calling0).enabled s.sys b)
    (hx : (TimerQueue.machine calling0).exec s.sys b = some sys) (hb : makes s.sys b = []) {fs : List Functor}
    (hfs : fs.Sublist s.pendingFunctors)
    (hq : (queuedAfter s.sys.queued b).Perm (s.adding.map TimerId.timer ++ fs.filterMap Functor.adds)) :
    Inv calling0 { s with sys, pendingFunctors := fs } := by
  obtain ⟨hqueued, hissued⟩ := exec_queued I.sound he hx
  rw [hb, List.append_nil] at hissued
  exact
    { reached := I.snoc he hx
      ids := hissued ▸ I.ids
      queued := hqueued ▸ hq
      made := fun _ h => I.made_stays he hx h
      ordered := (I.after he hx).sublist hfs
      cancels := fun id h => I.cancels id (hfs.subset h) }

/-- `new Timer`. -/
theorem Inv.new {a : Addr} {w : Int} {i : Interval} (he : (TimerQueue.machine calling0).enabled s.sys (.addTimer a w i))
    (hx : (TimerQueue.machine calling0).exec s.sys (.addTimer a w i) = some sys) :
    Inv calling0 { s with sys, adding := s.adding ++ [⟨a, s.sys.numCreated + 1⟩] } := by
  obtain ⟨hqueued, hissued⟩ := exec_queued I.sound he hx
  refine
    { reached := I.snoc he hx
      ids := ?_
      queued := ?_
      made := fun id h => ?_
      ordered := I.after he hx
      cancels := I.cancels }
  · rw [hissued]
    exact (perm_append_right_comm _ _ _).trans (I.ids.append_right _)
  · rw [hqueued, List.map_append]
    exact (I.queued.append_right _).trans (perm_append_right_comm _ _ _)
  · rcases List.mem_append.1 h with h | h
    · exact I.made_stays he hx h
    · cases List.mem_singleton.1 h
      cases hx
      exact ⟨_, Function.update_self _ _ _, rfl⟩

/-- The functor that runs next finds its timer where it expects it. -/
theorem Inv.functor {f : Functor} {fs : List Functor} (hf : s.pendingFunctors = f :: fs) (hp : s.sys.phase = .idle)
    (clock : Int) :
    (TimerQueue.machine calling0).enabled s.sys (f.act clock) ∧ makes s.sys (f.act clock) = [] ∧
      (queuedAfter s.sys.queued (f.act clock)).Perm (s.adding.map TimerId.timer ++ fs.filterMap Functor.adds) := by
  have hq := I.queued
  rw [hf] at hq
  cases f with
  | addTimerInLoop a =>
    have hq : s.sys.queued.Perm (s.adding.map TimerId.timer ++ a :: fs.filterMap Functor.adds) := hq
    have hq := hq.trans List.perm_middle
    refine ⟨⟨hq.mem_iff.2 List.mem_cons_self, by rw [hp]; trivial⟩, rfl, ?_⟩
    exact (hq.erase a).trans (by rw [List.erase_cons_head])
  | cancelInLoop id =>
    refine ⟨⟨?_, by rw [hp]; trivial⟩, rfl, hq⟩
    exact (I.cancels id (hf ▸ List.mem_cons_self)).imp_left fun h => I.mem_issued (St.mem_ids_of_given h)

/-- The read fails where the loop has deleted the timer. -/
theorem Inv.sequence (h : id ∈ s.returning) :
    (machine calling0).exec s (.sequence id) =
      if id.sequence ∈ s.sys.deleted then none
      else some { s with returning := s.returning.erase id, given := s.given ++ [id] } := by
  have hat := seqAt_iff I.sound (I.mem_issued (St.mem_ids_of_returning h))
  have hx : (machine calling0).exec s (.sequence id) = beside s s.sys (.sequence id) := rfl
  rw [hx, beside]
  split
  · rename_i hdel
    have hne : timerId s.sys.toSt id.timer ≠ some id := fun e => hat.1 (timerId_eq_some_iff.1 e) hdel
    cases hr : timerId s.sys.toSt id.timer with
    | none => rfl
    | some read =>
      rw [hr] at hne
      simp [assert, show read ≠ id from fun e => hne (congrArg some e)]
  · rename_i hdel
    rw [timerId_eq_some_iff.2 (hat.2 hdel)]
    simp [assert]

/-- The call queues its timer. -/
theorem Inv.queueInLoop (h : id ∈ s.adding) : Inv calling0
    { s with
      adding := s.adding.erase id
      returning := s.returning ++ [id]
      pendingFunctors := s.pendingFunctors ++ [.addTimerInLoop id.timer] } where
  reached := I.reached
  ids := by
    refine List.Perm.trans ?_ I.ids
    refine List.Perm.trans ?_ ((List.perm_cons_erase h).symm.append_right (s.returning ++ s.given))
    simp only [St.ids, List.append_assoc, List.cons_append]
    exact (List.perm_middle.append_left _).trans List.perm_middle
  queued := by
    have hm := (List.perm_cons_erase h).map TimerId.timer
    refine I.queued.trans ((hm.append_right _).trans ?_)
    rw [List.filterMap_append, ← List.append_assoc]
    exact (List.perm_append_singleton _ _).symm
  made id' h' := I.made id' (List.mem_of_mem_erase h')
  ordered := by
    refine List.pairwise_append.2 ⟨I.ordered, List.pairwise_singleton _ _, fun f hf g hg => ?_⟩
    rw [List.mem_singleton.1 hg]
    cases f with
    | addTimerInLoop _ => trivial
    | cancelInLoop id' => exact I.not_given (I.cancels id' hf) h
  cancels id' h' := by
    rcases List.mem_append.1 h' with h' | h'
    · exact I.cancels id' h'
    · cases List.mem_singleton.1 h'

/-- And returns with its id. -/
theorem Inv.returns (h : id ∈ s.returning) :
    Inv calling0 { s with returning := s.returning.erase id, given := s.given ++ [id] } where
  reached := I.reached
  ids := by
    refine List.Perm.trans ?_ I.ids
    refine List.Perm.append_left _ ?_
    refine List.Perm.trans ?_ ((List.perm_cons_erase h).symm.append_right s.given)
    rw [← List.append_assoc]
    exact List.perm_append_singleton _ _
  queued := I.queued
  made := I.made
  ordered := I.ordered
  cancels id' h' := (I.cancels id' h').imp_left (List.mem_append_left _)

theorem Inv.cancelElsewhere (h : id ∈ s.given ∨ id = {}) :
    Inv calling0 { s with pendingFunctors := s.pendingFunctors ++ [.cancelInLoop id] } where
  reached := I.reached
  ids := I.ids
  queued := by
    rw [List.filterMap_append]
    exact I.queued.trans (by rw [show [Functor.cancelInLoop id].filterMap Functor.adds = [] from rfl, List.append_nil])
  made := I.made
  ordered := by
    refine List.pairwise_append.2 ⟨I.ordered, List.pairwise_singleton _ _, fun f hf g hg => ?_⟩
    rw [List.mem_singleton.1 hg]
    cases f <;> trivial
  cancels id' h' := by
    rcases List.mem_append.1 h' with h' | h'
    · exact I.cancels id' h'
    · cases List.mem_singleton.1 h'
      exact h

/-- `addTimer` in the loop thread. -/
theorem Inv.addTimer {a : Addr} {w clock : Int} {i : Interval}
    (ha : (machine calling0).enabled s (.addTimer a w i clock)) :
    ∃ s', (machine calling0).exec s (.addTimer a w i clock) = some s' ∧ Inv calling0 s' ∧
      ∃ tr, Steps (TimerQueue.machine calling0) s.sys tr s'.sys := by
  obtain ⟨ha, hfree⟩ := ha
  have he : (TimerQueue.machine calling0).enabled s.sys (.addTimer a w i) := ha
  obtain ⟨sys, hx, -⟩ := step_sound I.sound he
  have I₁ := I.new he hx
  set id : TimerId := ⟨a, s.sys.numCreated + 1⟩
  have hqueued : sys.queued = s.sys.queued ++ [a] := (exec_queued I.sound he hx).1
  have he' : (TimerQueue.machine calling0).enabled sys (.addTimerInLoop a clock) := by
    refine ⟨by rw [hqueued]; simp, ?_⟩
    cases hx
    exact hfree
  obtain ⟨sys', hx', -⟩ := step_sound I₁.sound he'
  obtain ⟨hqueued', hissued'⟩ := exec_queued I₁.sound he' hx'
  have hat : SeqAt sys'.toSt id.timer id.sequence := I₁.made_stays he' hx' (List.mem_append_right _ List.mem_cons_self)
  have hnot : a ∉ s.sys.queued := fun h => (I.sound.rep.held a).1 (List.mem_append_left _ h) ha.2.2
  refine ⟨{ s with sys := sys', given := s.given ++ [id] }, ?_, ?_, _, .cons he hx (.cons he' hx' (.nil sys'))⟩
  · have hread : timerId sys'.toSt a = some id := timerId_eq_some_iff.2 hat
    simp [machine, acts, hx, hx', beside, hread]
  · exact
      { reached := I₁.snoc he' hx'
        ids := by
          rw [hissued', makes, List.append_nil]
          refine List.Perm.trans ?_ I₁.ids
          simp only [St.ids, ← List.append_assoc]
          exact (perm_append_right_comm _ _ _).trans ((perm_append_right_comm _ _ _).append_right _)
        queued := by
          rw [hqueued', queuedAfter, hqueued, List.erase_append_right _ hnot, List.erase_cons_head, List.append_nil]
          exact I.queued
        made := fun id' h => I₁.made_stays he' hx' (List.mem_append_left _ h)
        ordered := I₁.after he' hx'
        cancels := fun id' h => (I.cancels id' h).imp_left (List.mem_append_left _) }

end Inv

/-! ## Each step -/

/-- No step fails but the read of a timer that is deleted, and each is one of
the queue, or two, or none. -/
theorem step_goes (I : Inv calling0 s) (ha : (machine calling0).enabled s a)
    (hd : ∀ id, a = .sequence id → id.sequence ∉ s.sys.deleted) :
    ∃ s', (machine calling0).exec s a = some s' ∧ Inv calling0 s' ∧
      ∃ tr, Steps (TimerQueue.machine calling0) s.sys tr s'.sys := by
  -- one step of the queue
  have one {b : TimerQueue.Act} (hb : acts s a = [b]) (he : (TimerQueue.machine calling0).enabled s.sys b)
      (I' : (TimerQueue.machine calling0).enabled s.sys b → ∀ sys, (TimerQueue.machine calling0).exec s.sys b = some sys →
        ∃ s', beside s sys a = some s' ∧ Inv calling0 s' ∧ s'.sys = sys) :
      ∃ s', (machine calling0).exec s a = some s' ∧ Inv calling0 s' ∧
        ∃ tr, Steps (TimerQueue.machine calling0) s.sys tr s'.sys := by
    obtain ⟨sys, hx, -⟩ := step_sound I.sound he
    obtain ⟨s', hx', I', rfl⟩ := I' he sys hx
    exact ⟨s', by simp [machine, hb, hx, hx'], I', _, .cons he hx (.nil _)⟩
  cases a with
  | addTimer a w i clock => exact I.addTimer ha
  | newTimer a w i => exact one rfl ha fun he sys hx => ⟨_, rfl, I.new he hx, rfl⟩
  | queueInLoop id => exact ⟨_, rfl, I.queueInLoop ha, [], .nil _⟩
  | sequence id => exact ⟨_, (I.sequence ha).trans (if_neg (hd id rfl)), I.returns ha, [], .nil _⟩
  | cancel id =>
    have he : (TimerQueue.machine calling0).enabled s.sys (.cancelInLoop id) :=
      ⟨ha.1.imp_left fun h => I.mem_issued (St.mem_ids_of_given h), ha.2⟩
    exact one rfl he fun he sys hx => ⟨_, rfl, I.step he hx rfl (.refl _) I.queued, rfl⟩
  | cancelElsewhere id => exact ⟨_, rfl, I.cancelElsewhere ha, [], .nil _⟩
  | functor clock =>
    obtain ⟨hne, hp⟩ := ha
    cases hf : s.pendingFunctors with
    | nil => exact absurd hf hne
    | cons f fs =>
      obtain ⟨he, hb, hq⟩ := I.functor hf hp clock
      refine one (by simp [acts, hf]) he fun he sys hx => ⟨_, rfl, ?_, rfl⟩
      rw [hf, List.tail_cons]
      exact I.step he hx hb (by rw [hf]; exact List.sublist_cons_self _ _) hq
  | handleRead now => exact one rfl ha fun he sys hx => ⟨_, rfl, I.step he hx rfl (.refl _) I.queued, rfl⟩
  | run => exact one rfl ha fun he sys hx => ⟨_, rfl, I.step he hx rfl (.refl _) I.queued, rfl⟩
  | reset clock => exact one rfl ha fun he sys hx => ⟨_, rfl, I.step he hx rfl (.refl _) I.queued, rfl⟩

theorem exec_eq_none_iff (I : Inv calling0 s) (ha : (machine calling0).enabled s a) :
    (machine calling0).exec s a = none ↔ ∃ id, a = .sequence id ∧ id.sequence ∈ s.sys.deleted := by
  constructor
  · intro hn
    by_contra hd
    obtain ⟨s', hx, -⟩ := step_goes I ha fun id h hdel => hd ⟨id, h, hdel⟩
    rw [hn] at hx
    cases hx
  · rintro ⟨id, rfl, hdel⟩
    exact (I.sequence ha).trans (if_pos hdel)

theorem step_inv (I : Inv calling0 s) (ha : (machine calling0).enabled s a) (hx : (machine calling0).exec s a = some s') :
    Inv calling0 s' ∧ ∃ tr, Steps (TimerQueue.machine calling0) s.sys tr s'.sys := by
  obtain ⟨s'', hx', h⟩ := step_goes I ha fun id h hdel => by
    rw [(exec_eq_none_iff I ha).2 ⟨id, h, hdel⟩] at hx
    cases hx
  cases hx.symm.trans hx'
  exact h

theorem run_inv (h : Run (machine calling0) tr s) : Inv calling0 s :=
  h.inv (Inv calling0) inv_init fun _ _ _ I ha hx => (step_inv I ha hx).1

/-! ## A cancellation that is queued -/

/-- The timer is not due where the functor runs. -/
theorem Inv.not_due {fs : List Functor} (I : Inv calling0 s) (hf : s.pendingFunctors = .cancelInLoop id :: fs)
    (hp : s.sys.phase = .idle) : ¬ Due s.sys id := by
  rintro ⟨h, hs⟩
  have hc := I.cancels id (hf ▸ List.mem_cons_self)
  rcases h with h | h
  · rcases List.mem_append.1 (I.queued.mem_iff.1 h) with h | h
    · obtain ⟨id', h', ht⟩ := List.mem_map.1 h
      exact I.not_given hc h' (ht ▸ hs)
    · have ho := I.ordered
      obtain ⟨g, hg, hadd⟩ := List.mem_filterMap.1 h
      cases g with
      | cancelInLoop _ => cases hadd
      | addTimerInLoop a =>
        cases hadd
        rw [hf] at ho hg
        rcases List.mem_cons.1 hg with hg | hg
        · cases hg
        · exact (List.pairwise_cons.1 ho).1 _ hg hs
  · rw [hp] at h
    cases h

theorem steps_final {u v : Sys} {tr : List (Sys × TimerQueue.Act)} (hs : Steps (TimerQueue.machine calling0) u tr v)
    (S : Sound u) (hf : Final u id) : Final v id :=
  (hs.inv_if (fun s => Sound s ∧ Final s id) (fun _ _ => True) (fun s b s' ⟨S, hf⟩ he _ hx => by
    obtain ⟨s'', hx', S', hk⟩ := step_sound S he
    cases hx'.symm.trans hx
    exact ⟨S', hk id hf⟩) (fun _ _ => trivial) ⟨S, hf⟩).2

/-- The functor that cancels makes its timer final. -/
theorem Inv.final_of_functor (I : Inv calling0 s) (hhead : s.pendingFunctors.head? = some (.cancelInLoop id))
    (hid : id ∈ s.given) {clock : Int} (ha : (machine calling0).enabled s (.functor clock))
    (hx : (machine calling0).exec s (.functor clock) = some s') : Final s'.sys id := by
  obtain ⟨fs, hf⟩ := List.head?_eq_some_iff.1 hhead
  obtain ⟨he, -⟩ := I.functor hf ha.2 clock
  obtain ⟨sys, hsys, -⟩ := step_sound I.sound he
  have hx' : (machine calling0).exec s (.functor clock) = some { s with sys, pendingFunctors := fs } := by
    have hacts : acts s (.functor clock) = [(Functor.cancelInLoop id).act clock] := by simp [acts, hf]
    simp [machine, hacts, hsys, beside, hf]
  cases hx.symm.trans hx'
  exact I.sound.final_of_cancel (I.mem_issued (St.mem_ids_of_given hid)) (I.not_due hf ha.2) hsys

theorem not_starts_zero {u : Sys} (S : Sound u) : ¬ Starts u 0 := by
  rintro ⟨e, -, t, ht, hq⟩
  have h1 := (S.rep.objects.seq _ t ht).1
  rw [hq] at h1
  cases h1

/-- With timers added and cancelled in any thread, a step fails only in one way:
`addTimer`, in another thread than the loop's, reads the sequence of a timer
that the loop has deleted by then. Each timer made has its id with the call that
makes it, until that returns it. What the queue takes is a run of
`TimerQueue.machine`. And from where a cancellation that another thread has
queued is run, its timer is not called again, whatever batch it was in and
however late the cancellation comes. -/
theorem cancel_queued_final (h : Run (machine calling0) tr s) :
    (∀ a, (machine calling0).enabled s a →
      ((machine calling0).exec s a = none ↔ ∃ id, a = .sequence id ∧ id.sequence ∈ s.sys.deleted)) ∧
    (s.adding ++ (s.returning ++ s.given)).Perm s.sys.issued ∧
    (∃ tr', Run (TimerQueue.machine calling0) tr' s.sys) ∧
    ∀ pre v clock post id, tr = pre ++ (v, .functor clock) :: post →
      v.pendingFunctors.head? = some (.cancelInLoop id) → ∀ p ∈ post, p.2 = .run → ¬ Starts p.1.sys id.sequence := by
  have I := run_inv h
  refine ⟨fun a ha => exec_eq_none_iff I ha, I.ids, I.reached, ?_⟩
  rintro pre v clock post id rfl hhead p hp -
  obtain ⟨v', hpre, hpost⟩ := h.split
  cases hpost with
  | @cons _ v₁ _ _ _ ha hx hpost =>
    have I := run_inv hpre
    obtain ⟨I₁, -⟩ := step_inv I ha hx
    rcases I.cancels id (List.mem_of_mem_head? hhead) with hid | rfl
    · obtain ⟨-, hall⟩ := hpost.keeps (fun s => Inv calling0 s ∧ Final s.sys id)
        (fun s a s' _ ⟨I, hf⟩ ha hx => by
          obtain ⟨I', tr, hs⟩ := step_inv I ha hx
          exact ⟨I', steps_final hs I.sound hf⟩) ⟨I₁, I.final_of_functor hhead hid ha hx⟩
      obtain ⟨Ip, hf⟩ := hall p hp
      exact Ip.sound.not_starts hf
    · obtain ⟨-, hall⟩ := hpost.keeps (Inv calling0) (fun s a s' _ I ha hx => (step_inv I ha hx).1) I₁
      exact not_starts_zero (hall p hp).sound

/-- A thread adds a repeating timer and cancels it, while the loop runs a batch
of others. Another one has added a timer that is called and deleted before the
call returns. -/
theorem cancel_queued_final_busy : ∃ pre v post s, Run (machine false) (pre ++ (v, .functor 12) :: post) s ∧
    v.pendingFunctors.head? = some (.cancelInLoop ⟨16, 2⟩) ∧ v.sys.heap 16 = some ⟨6, ⟨true, 7⟩, 2⟩ ∧
    s.sys.phase = .calling 20 [toLex (15, 24)] [] ∧ (∀ p ∈ post, p.2 = .run → ¬ Starts p.1.sys 2) ∧
    (machine false).enabled s (.sequence ⟨8, 1⟩) ∧ (machine false).exec s (.sequence ⟨8, 1⟩) = none := by
  obtain ⟨r, hr, ha, hhead, hheap, v, hv, q, hq, hp, hread, hdel⟩ : ∃ r ∈ (machine false).play (machine false).init
      [.newTimer 8 5 ⟨false, 0⟩, .queueInLoop ⟨8, 1⟩, .functor 1, .handleRead 10, .run, .newTimer 16 6 ⟨true, 7⟩,
        .queueInLoop ⟨16, 2⟩, .sequence ⟨16, 2⟩, .cancelElsewhere ⟨16, 2⟩, .reset 11, .functor 11],
      (machine false).enabled r.2 (.functor 12) ∧ r.2.pendingFunctors.head? = some (.cancelInLoop ⟨16, 2⟩) ∧
      r.2.sys.heap 16 = some ⟨6, ⟨true, 7⟩, 2⟩ ∧
      ∃ v ∈ (machine false).exec r.2 (.functor 12), ∃ q ∈ (machine false).play v
        [.newTimer 24 15 ⟨false, 0⟩, .queueInLoop ⟨24, 3⟩, .functor 13, .handleRead 20, .run],
      q.2.sys.phase = .calling 20 [toLex (15, 24)] [] ∧ (machine false).enabled q.2 (.sequence ⟨8, 1⟩) ∧
        1 ∈ q.2.sys.deleted := by decide +kernel
  have hrun := (Machine.play_steps hr).append (.cons ha hv (Machine.play_steps hq))
  obtain ⟨hfails, -, -, hfinal⟩ := cancel_queued_final hrun
  exact ⟨r.1, r.2, q.1, q.2, hrun, hhead, hheap, hp, hfinal r.1 r.2 12 q.1 ⟨16, 2⟩ rfl hhead, hread,
    (hfails _ hread).2 ⟨_, rfl, hdel⟩⟩

end Cppnetool.TimerThreads
