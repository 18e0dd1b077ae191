import Cppnetool.Lib.Runs
/-!
# `EventLoop`

`net/EventLoop.cc`. One loop thread and any number of others. `Pc` says where
the loop thread is; `queueInLoop` in another thread is two steps, the
`push_back` under the mutex and the `wakeup()` after it, between which every
other thread may move.

Channels are of a type `C` (the timer queue's is one of them), functors of a
type `F`, the other threads of a type `T`. What a callback or a functor does
besides calling the loop is left to the surroundings.
-/
open Lib

namespace Cppnetool.EventLoop

/-- An entry of `activeChannels_`. -/
inductive Active (C : Type)
  | wakeup
  | channel (c : C)
deriving DecidableEq

/-- Where the loop thread is. -/
inductive Pc (C F : Type)
  /-- Before `loop()`, or after it. -/
  | outside
  /-- At the condition of the `while`. -/
  | test
  /-- About to enter `poll`, or in it. -/
  | poll
  /-- Between two calls of `handleEvent`, with the channels still to come. -/
  | dispatch (rest : List (Active C))
  /-- In `handleEvent` of a channel other than the wakeup channel. -/
  | handling (c : C) (rest : List (Active C))
  /-- In `handleRead`, after the read and before the swap. -/
  | woken (rest : List (Active C))
  /-- In the loop over the functors: the one being run, and those to come. -/
  | functors (rest : List (Active C)) (current : Option F) (todo : List F)
  | loopCallback
deriving DecidableEq

variable {C F T : Type}

/-- Callbacks, functors or the code around `loop()` run in the loop thread. -/
def Pc.userCode : Pc C F → Bool
  | outside => true
  | handling _ _ => true
  | functors _ current _ => current.isSome
  | loopCallback => true
  | _ => false

def Pc.polling : Pc C F → Bool
  | poll => true
  | _ => false

/-- In `handleEvent` of this channel. -/
def Pc.handles [DecidableEq C] (c : C) : Pc C F → Bool
  | handling d _ => c = d
  | _ => false

/-- The functors of the running batch that have not been started. -/
def Pc.todo : Pc C F → List F
  | functors _ _ todo => todo
  | _ => []

/-- The functor that the next step of the loop thread starts. -/
def Pc.starts : Pc C F → Option F
  | functors _ _ todo => todo.head?
  | _ => none

structure St (C F T : Type) where
  pc : Pc C F := .outside
  pendingFunctors : List F := []
  callingPendingFunctors : Bool := false
  quit : Bool := false
  looping : Bool := false
  /-- `loopCallback_` is set. -/
  loopCallback : Bool := false
  /-- The counter of the eventfd. -/
  wakeupFd : Nat := 0
  /-- The other threads between their `push_back` and their `wakeup()`. -/
  waking : List T := []
  /-- All functors pushed so far, and all started so far, in order. -/
  pushed : List F := []
  executed : List F := []

inductive Act (C F T : Type)
  /-- `queueInLoop` in the loop thread. -/
  | queueInLoop (f : F)
  /-- `queueInLoop` in another thread, up to the end of the locked block. -/
  | pushBack (t : T) (f : F)
  /-- The rest of it. -/
  | wakeup (t : T)
  | quit
  | setLoopCallback (on : Bool)
  /-- `poll` returns with these channels. -/
  | poll (activeChannels : List (Active C))
  /-- The loop thread goes on, anywhere but in `poll`. -/
  | advance
deriving DecidableEq

def push (s : St C F T) (f : F) : St C F T :=
  { s with pendingFunctors := s.pendingFunctors ++ [f], pushed := s.pushed ++ [f] }

/-- `queueInLoop` where `isInLoopThread()`. -/
def queueInLoop (s : St C F T) (f : F) : St C F T :=
  let s := push s f
  if s.callingPendingFunctors then { s with wakeupFd := s.wakeupFd + 1 } else s

/-- The next step of the loop thread: in `loop()`, in `handleRead` of the
wakeup channel and in `doPendingFunctors`. -/
def advance (s : St C F T) : Option (St C F T) :=
  match s.pc with
  | .outside => do
    assert (s.looping = false)
    return { s with looping := true, quit := false, pc := .test }
  | .test => some (if s.quit then { s with looping := false, pc := .outside } else { s with pc := .poll })
  | .poll => none
  | .dispatch (.wakeup :: rest) => some { s with wakeupFd := 0, pc := .woken rest }
  | .dispatch (.channel c :: rest) => some { s with pc := .handling c rest }
  | .dispatch [] => some { s with pc := if s.loopCallback then .loopCallback else .test }
  | .handling _ rest => some { s with pc := .dispatch rest }
  | .woken rest =>
    some { s with
      callingPendingFunctors := true, pendingFunctors := [], pc := .functors rest none s.pendingFunctors }
  | .functors rest _ (f :: todo) =>
    some { s with executed := s.executed ++ [f], pc := .functors rest (some f) todo }
  | .functors rest _ [] => some { s with callingPendingFunctors := false, pc := .dispatch rest }
  | .loopCallback => some { s with pc := .test }

/-- `poll` reports the wakeup channel only when its eventfd is readable. -/
def machine (C F T : Type) [DecidableEq T] : Machine (St C F T) (Act C F T) where
  init := {}
  enabled s
    | .queueInLoop _ => s.pc.userCode
    | .pushBack t _ => t ∉ s.waking
    | .wakeup t => t ∈ s.waking
    | .quit => True
    | .setLoopCallback _ => s.pc.userCode
    | .poll activeChannels => s.pc.polling ∧ (.wakeup ∈ activeChannels → 0 < s.wakeupFd)
    | .advance => s.pc.polling = false
  exec s
    | .queueInLoop f => some (queueInLoop s f)
    | .pushBack t f => some { push s f with waking := t :: s.waking }
    | .wakeup t => some { s with wakeupFd := s.wakeupFd + 1, waking := s.waking.erase t }
    | .quit => some { s with quit := true }
    | .setLoopCallback on => some { s with loopCallback := on }
    | .poll activeChannels => some { s with pc := .dispatch activeChannels }
    | .advance => advance s

instance [DecidableEq C] [DecidableEq T] (s : St C F T) : ∀ a, Decidable ((machine C F T).enabled s a)
  | .queueInLoop _ => inferInstanceAs (Decidable (s.pc.userCode = true))
  | .pushBack t _ => inferInstanceAs (Decidable (t ∉ s.waking))
  | .wakeup t => inferInstanceAs (Decidable (t ∈ s.waking))
  | .quit => inferInstanceAs (Decidable True)
  | .setLoopCallback _ => inferInstanceAs (Decidable (s.pc.userCode = true))
  | .poll activeChannels =>
    inferInstanceAs (Decidable (s.pc.polling = true ∧ (.wakeup ∈ activeChannels → 0 < s.wakeupFd)))
  | .advance => inferInstanceAs (Decidable (s.pc.polling = false))

/-! ## What the loop keeps -/

/-- The functor a step pushes. -/
def Act.pushes : Act C F T → Option F
  | queueInLoop f => some f
  | pushBack _ f => some f
  | _ => none

/-- The functor a step starts. -/
def Act.starts (s : St C F T) : Act C F T → Option F
  | advance => s.pc.starts
  | _ => none

/-- The functors pushed and not started. -/
def St.queue (s : St C F T) : List F := s.pc.todo ++ s.pendingFunctors

/-- `looping_` tells whether the loop thread is in `loop()`. -/
def Entered (s : St C F T) : Prop := s.looping = false ↔ s.pc = .outside

variable {s s' : St C F T} {f : F}

@[simp] theorem queueInLoop_queue : (queueInLoop s f).queue = s.queue ++ [f] := by
  simp only [queueInLoop]
  split <;> simp [push, St.queue]

@[simp] theorem queueInLoop_pc : (queueInLoop s f).pc = s.pc := by
  simp only [queueInLoop]
  split <;> rfl

@[simp] theorem queueInLoop_looping : (queueInLoop s f).looping = s.looping := by
  simp only [queueInLoop]
  split <;> rfl

/-- The loop thread can go on, and takes functors from the front of the queue. -/
theorem advance_spec (he : Entered s) (hp : s.pc.polling = false) :
    ∃ s', advance s = some s' ∧ Entered s' ∧ s.queue = s.pc.starts.toList ++ s'.queue := by
  simp only [advance, Entered, St.queue] at *
  split <;> rename_i hpc <;> rw [hpc] at he hp
  case h_1 =>
    rw [assert_bind (he.2 rfl)]
    exact ⟨_, rfl, by simp, by simp [hpc, Pc.todo, Pc.starts]⟩
  case h_2 =>
    split
    · exact ⟨_, rfl, by simp, by simp [hpc, Pc.todo, Pc.starts]⟩
    · exact ⟨_, rfl, by simpa using he, by simp [hpc, Pc.todo, Pc.starts]⟩
  case h_3 => cases hp
  case h_6 =>
    refine ⟨_, rfl, ?_, ?_⟩
    · dsimp only
      split <;> simpa using he
    · dsimp only
      split <;> simp [hpc, Pc.todo, Pc.starts]
  all_goals exact ⟨_, rfl, by simpa using he, by simp [hpc, Pc.todo, Pc.starts]⟩

/-- `quit_` is set to false where `loop()` is entered, and nowhere else. -/
theorem advance_quit (hx : advance s = some s') (hpc : s.pc ≠ .outside) : s'.quit = s.quit := by
  unfold advance at hx
  split at hx
  case h_1 h => exact absurd h hpc
  case h_2 => split at hx <;> cases hx <;> rfl
  case h_3 => cases hx
  all_goals
    cases hx
    rfl

variable [DecidableEq T]

/-- No step fails; each puts what it pushes at the back of the queue and takes
what it starts from the front. -/
theorem step_queue {a : Act C F T} (he : Entered s) (ha : (machine C F T).enabled s a) :
    ∃ s', (machine C F T).exec s a = some s' ∧ Entered s' ∧
      s.queue ++ a.pushes.toList = (a.starts s).toList ++ s'.queue := by
  cases a with
  | queueInLoop f => exact ⟨_, rfl, by simpa [Entered] using he, by simp [Act.pushes, Act.starts]⟩
  | pushBack t f => exact ⟨_, rfl, he, by simp [Act.pushes, Act.starts, push, St.queue]⟩
  | wakeup t => exact ⟨_, rfl, he, by simp [Act.pushes, Act.starts, St.queue]⟩
  | quit => exact ⟨_, rfl, he, by simp [Act.pushes, Act.starts, St.queue]⟩
  | setLoopCallback on => exact ⟨_, rfl, he, by simp [Act.pushes, Act.starts, St.queue]⟩
  | poll activeChannels =>
    have hp := ha.1
    unfold Entered at he
    cases hpc : s.pc with
    | poll =>
      rw [hpc] at he
      exact ⟨_, rfl, by simpa [Entered] using he, by simp [Act.pushes, Act.starts, St.queue, hpc, Pc.todo]⟩
    | _ => rw [hpc] at hp; cases hp
  | advance =>
    obtain ⟨s', hx, he', hq⟩ := advance_spec he ha
    exact ⟨s', hx, he', by simpa [Act.pushes, Act.starts] using hq⟩

end Cppnetool.EventLoop
