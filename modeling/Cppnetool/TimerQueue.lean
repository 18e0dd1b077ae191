import Mathlib.Logic.Function.Basic
import Cppnetool.Lib.OrdSet
import Cppnetool.Lib.Runs
/-!
# `Timer` and `TimerQueue`

`net/Timer.h`, `net/TimerQueue.cc`, `base/Timestamp.h`. Timer objects live at
addresses that an allocator may give out again, so the state keeps what is at
each address, and beside it which timers were deleted. `timers_` is ordered by
expiration and then by address, `activeTimers_` and `cancelingTimers_` by
address and sequence.

Timestamps are the integers they hold. Each reading of the clock is part of
the action that makes it.
-/
open Lib

namespace Cppnetool.TimerQueue

abbrev Addr := Nat

def UINTPTR_MAX : Addr := 0xffffffffffffffff

def kMicroSecondsPerSecond : Int := 1000 * 1000

/-- A `double` of seconds, as the code uses it: whether it is greater than
`0.0`, and the `delta` that `addTime` makes of it. -/
structure Interval where
  positive : Bool
  delta : Int
deriving DecidableEq

def addTime (timestamp : Int) (seconds : Interval) : Int := timestamp + seconds.delta

def valid (timestamp : Int) : Prop := 0 < timestamp

instance (t : Int) : Decidable (valid t) := inferInstanceAs (Decidable (0 < t))

structure Timer where
  expiration : Int
  interval : Interval
  sequence : Nat
deriving DecidableEq

def Timer.repeat_ (t : Timer) : Bool := t.interval.positive

def Timer.restart (t : Timer) (now : Int) : Timer :=
  { t with expiration := if t.repeat_ then addTime now t.interval else 0 }

@[simp] theorem Timer.restart_sequence (t : Timer) (now : Int) : (t.restart now).sequence = t.sequence := rfl

structure TimerId where
  timer : Addr := 0
  sequence : Nat := 0
deriving DecidableEq

abbrev Entry := Int ×ₗ Addr
abbrev ActiveTimer := Addr ×ₗ Nat

/-! ## The timer descriptor -/

structure Timespec where
  tv_sec : Int
  tv_nsec : Int
deriving DecidableEq

def howMuchTimeFromNow (when clock : Int) : Timespec :=
  let microseconds := max (when - clock) 100
  { tv_sec := microseconds / kMicroSecondsPerSecond
    tv_nsec := microseconds % kMicroSecondsPerSecond * 1000 }

/-- A one-shot setting of the descriptor, and when it was made: the clock is read
for it and `timerfd_settime` is called at one instant. -/
structure Arming where
  clock : Int
  it_value : Timespec
deriving DecidableEq

def Arming.deadline (a : Arming) : Int :=
  a.clock + a.it_value.tv_sec * kMicroSecondsPerSecond + a.it_value.tv_nsec / 1000

/-! ## The queue -/

structure St where
  /-- The timer at an address, if one lives there. -/
  heap : Addr → Option Timer
  /-- `Timer::s_numCreated_`. -/
  numCreated : Nat
  /-- The sequences of the timers deleted so far, in that order. -/
  deleted : List Nat
  timers : OrdSet Entry
  activeTimers : OrdSet ActiveTimer
  cancelingTimers : OrdSet ActiveTimer
  callingExpiredTimers : Bool
  timerfd : Option Arming

/-- `delete`, which only an object that lives survives. -/
def delete (s : St) (a : Addr) : Option St := do
  let timer ← s.heap a
  return { s with heap := Function.update s.heap a none, deleted := s.deleted ++ [timer.sequence] }

def resetTimerfd (s : St) (expiration clock : Int) : St :=
  { s with timerfd := some ⟨clock, howMuchTimeFromNow expiration clock⟩ }

/-- Reading takes what has expired; before that it fails and is only logged. -/
def readTimerfd (s : St) (now : Int) : St :=
  { s with timerfd := s.timerfd.filter fun a => now < a.deadline }

def earliestChanged (s : St) (when : Int) : Bool :=
  match s.timers.first with
  | none => true
  | some e => when < (ofLex e).1

def insert (s : St) (a : Addr) : Option (St × Bool) := do
  assert (s.timers.size = s.activeTimers.size)
  let timer ← s.heap a
  let entry : Entry := toLex (timer.expiration, a)
  let active : ActiveTimer := toLex (a, timer.sequence)
  assert (entry ∉ s.timers)
  assert (active ∉ s.activeTimers)
  let timers := s.timers.insert entry
  let activeTimers := s.activeTimers.insert active
  assert (timers.size = activeTimers.size)
  return ({ s with timers := timers, activeTimers := activeTimers }, earliestChanged s timer.expiration)

def addTimerInLoop (s : St) (a : Addr) (clock : Int) : Option St := do
  let (s, changed) ← insert s a
  if changed then
    let timer ← s.heap a
    return resetTimerfd s timer.expiration clock
  else return s

def cancelInLoop (s : St) (id : TimerId) : Option St := do
  assert (s.timers.size = s.activeTimers.size)
  let timer : ActiveTimer := toLex (id.timer, id.sequence)
  let s ←
    if timer ∈ s.activeTimers then do
      let t ← s.heap id.timer
      let entry : Entry := toLex (t.expiration, id.timer)
      assert (entry ∈ s.timers)
      let s ← delete { s with timers := s.timers.erase entry } id.timer
      pure { s with activeTimers := s.activeTimers.erase timer }
    else if s.callingExpiredTimers then
      pure { s with cancelingTimers := s.cancelingTimers.insert timer }
    else pure s
  assert (s.timers.size = s.activeTimers.size)
  return s

/-- The second loop of `getExpired`. -/
def eraseActive (heap : Addr → Option Timer) : List Entry → OrdSet ActiveTimer → Option (OrdSet ActiveTimer)
  | [], active => some active
  | e :: expired, active => do
    let t ← heap (ofLex e).2
    let timer : ActiveTimer := toLex ((ofLex e).2, t.sequence)
    assert (timer ∈ active)
    eraseActive heap expired (active.erase timer)

def getExpired (s : St) (now : Int) : Option (St × List Entry) := do
  let sentry : Entry := toLex (now, UINTPTR_MAX)
  let expired := s.timers.below sentry
  let timers := s.timers.above sentry
  assert (∀ e ∈ timers.first, now < (ofLex e).1)
  let activeTimers ← eraseActive s.heap expired s.activeTimers
  assert (timers.size = activeTimers.size)
  return ({ s with timers := timers, activeTimers := activeTimers }, expired)

/-- `handleRead` up to its loop over the callbacks. -/
def handleRead (s : St) (now : Int) : Option (St × List Entry) := do
  let (s, expired) ← getExpired (readTimerfd s now) now
  return ({ s with callingExpiredTimers := true, cancelingTimers := .empty }, expired)

/-- The loop of `reset`. -/
def resetExpired (now : Int) : List Entry → St → Option St
  | [], s => some s
  | e :: expired, s => do
    let a := (ofLex e).2
    let t ← s.heap a
    let timer : ActiveTimer := toLex (a, t.sequence)
    if t.repeat_ ∧ timer ∉ s.cancelingTimers then do
      let (s, _) ← insert { s with heap := Function.update s.heap a (some (t.restart now)) } a
      resetExpired now expired s
    else do
      let s ← delete s a
      resetExpired now expired s

def reset (s : St) (expired : List Entry) (now clock : Int) : Option St := do
  let s ← resetExpired now expired s
  match s.timers.first with
  | none => return s
  | some e =>
    let t ← s.heap (ofLex e).2
    if valid t.expiration then return resetTimerfd s t.expiration clock
    else return s

/-! ## Runs -/

/-- Where the loop thread is: outside `handleRead`, or in its loop over the
callbacks of the expired timers, with those started and those still to come. -/
inductive Phase
  | idle
  | calling (now : Int) (done todo : List Entry)
deriving DecidableEq

def Phase.batch : Phase → List Entry
  | idle => []
  | calling _ done todo => done ++ todo

/-- The queue, the loop thread, the functors that will call `addTimerInLoop`,
and the ids given out. -/
structure Sys extends St where
  phase : Phase
  queued : List Addr
  issued : List TimerId

inductive Act
  /-- `addTimer` up to `runInLoop`, in any thread. -/
  | addTimer (a : Addr) (when : Int) (interval : Interval)
  | addTimerInLoop (a : Addr) (clock : Int)
  | cancelInLoop (id : TimerId)
  | handleRead (now : Int)
  /-- `handleRead` calls the callback of the next expired timer. -/
  | run
  /-- The last callback has returned. -/
  | reset (clock : Int)
deriving DecidableEq

/-- Code that uses the queue can run in the loop thread: functors, or the
callback of a timer. -/
def Phase.free : Phase → Prop
  | idle => True
  | calling _ done _ => done ≠ []

/-- The timer whose turn it is. -/
def Phase.next : Phase → Option Entry
  | idle => none
  | calling _ _ todo => todo.head?

instance : ∀ p : Phase, Decidable p.free
  | .idle => inferInstanceAs (Decidable True)
  | .calling _ done _ => inferInstanceAs (Decidable (done ≠ []))

/-- `calling0` is what the uninitialized `callingExpiredTimers_` starts as. -/
def machine (calling0 : Bool) : Machine Sys Act where
  init :=
    { heap := fun _ => none, numCreated := 0, deleted := [], timers := .empty, activeTimers := .empty
      cancelingTimers := .empty, callingExpiredTimers := calling0, timerfd := none
      phase := .idle, queued := [], issued := [] }
  enabled s
    | .addTimer a _ _ => 0 < a ∧ a < UINTPTR_MAX ∧ s.heap a = none
    | .addTimerInLoop a _ => a ∈ s.queued ∧ s.phase.free
    | .cancelInLoop id => (id ∈ s.issued ∨ id = {}) ∧ s.phase.free
    | .handleRead _ => s.phase = .idle
    | .run => s.phase.next ≠ none
    | .reset _ => s.phase ≠ .idle ∧ s.phase.next = none
  exec s
    | .addTimer a w interval =>
      let timer : Timer := ⟨w, interval, s.numCreated + 1⟩
      some
        { s with
          heap := Function.update s.heap a (some timer)
          numCreated := s.numCreated + 1
          queued := s.queued ++ [a]
          issued := s.issued ++ [⟨a, timer.sequence⟩] }
    | .addTimerInLoop a clock =>
      (addTimerInLoop s.toSt a clock).map fun t => { s with toSt := t, queued := s.queued.erase a }
    | .cancelInLoop id => (cancelInLoop s.toSt id).map fun t => { s with toSt := t }
    | .handleRead now =>
      (handleRead s.toSt now).map fun r => { s with toSt := r.1, phase := .calling now [] r.2 }
    | .run =>
      match s.phase with
      | .calling now done (e :: todo) =>
        (s.heap (ofLex e).2).map fun _ => { s with phase := .calling now (done ++ [e]) todo }
      | _ => none
    | .reset clock =>
      match s.phase with
      | .calling now done todo =>
        (reset { s.toSt with callingExpiredTimers := false } (done ++ todo) now clock).map fun t =>
          { s with toSt := t, phase := .idle }
      | .idle => none

instance (calling0 : Bool) (s : Sys) : ∀ a, Decidable ((machine calling0).enabled s a)
  | .addTimer a _ _ => inferInstanceAs (Decidable (0 < a ∧ a < UINTPTR_MAX ∧ s.heap a = none))
  | .addTimerInLoop a _ => inferInstanceAs (Decidable (a ∈ s.queued ∧ s.phase.free))
  | .cancelInLoop id => inferInstanceAs (Decidable ((id ∈ s.issued ∨ id = {}) ∧ s.phase.free))
  | .handleRead _ => inferInstanceAs (Decidable (s.phase = .idle))
  | .run => inferInstanceAs (Decidable (s.phase.next ≠ none))
  | .reset _ => inferInstanceAs (Decidable (s.phase ≠ .idle ∧ s.phase.next = none))

end Cppnetool.TimerQueue
