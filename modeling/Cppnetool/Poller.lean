import Mathlib.Logic.Function.Basic
import Cppnetool.Lib.Map
import Cppnetool.Lib.Runs
import Cppnetool.Lib.Slice
/-!
# `Channel` and `Poller`

`net/Channel.h`, `net/Poller.cc`. A poller keeps a `pollfd` for each
registered channel, a map from descriptors to channels, and in each channel
the index of its slot. `-fd - 1` in a slot makes `poll(2)` ignore it.

Channel objects are named by `Ch`. Event masks are `Nat`s with the bits of
`poll.h`.
-/
open Lib

namespace Cppnetool

def POLLIN : Nat := 0x001
def POLLPRI : Nat := 0x002
def POLLOUT : Nat := 0x004

def kNoneEvent : Nat := 0
def kReadEvent : Nat := POLLIN ||| POLLPRI
def kWriteEvent : Nat := POLLOUT

structure Channel where
  fd : Int
  events : Nat := kNoneEvent
  revents : Nat := 0
  /-- Used by `Poller`: `-1` before the first `updateChannel`. -/
  index : Int := -1
deriving DecidableEq

/-- The calls that change what a channel declares interest in. -/
inductive Interest
  | enableReading
  | enableWriting
  | disableWriting
  | disableAll
deriving DecidableEq

/-- `events_` after the call; `& ~kWriteEvent` clears the bits it has in common
with `kWriteEvent`. -/
def Interest.apply (events : Nat) : Interest → Nat
  | enableReading => events ||| kReadEvent
  | enableWriting => events ||| kWriteEvent
  | disableWriting => events ^^^ (events &&& kWriteEvent)
  | disableAll => kNoneEvent

structure PollFd where
  fd : Int
  events : Nat
  revents : Nat
deriving DecidableEq

/-- What makes `poll(2)` ignore the slot of `fd`, and undoes it. -/
def ignored (fd : Int) : Int := -fd - 1

@[simp] theorem ignored_ignored (fd : Int) : ignored (ignored fd) = fd := by simp only [ignored]; omega

theorem ignored_lt {fd : Int} (h : 0 ≤ fd) : ignored fd < 0 := by simp only [ignored]; omega

theorem ignored_ne (fd : Int) : ignored fd ≠ fd := by simp only [ignored]; omega

namespace Poller

structure St (Ch : Type) where
  /-- The channel objects. -/
  chan : Ch → Channel
  pollfds : List PollFd
  channels : Map Int Ch

variable {Ch : Type}

def St.slot? (s : St Ch) (c : Ch) : Option PollFd := s.pollfds[(s.chan c).index.toNat]?

variable [DecidableEq Ch]

def updateChannel (s : St Ch) (c : Ch) : Option (St Ch) :=
  let channel := s.chan c
  if channel.index < 0 then do
    assert (s.channels.find channel.fd = none)
    let pfd : PollFd := ⟨channel.fd, channel.events, 0⟩
    let pollfds := s.pollfds ++ [pfd]
    let idx : Int := (pollfds.length : Int) - 1
    return { chan := Function.update s.chan c { channel with index := idx }
             pollfds := pollfds
             channels := s.channels.insert pfd.fd c }
  else do
    assert (s.channels.find channel.fd ≠ none)
    assert (s.channels.find channel.fd = some c)
    let idx := channel.index
    assert (0 ≤ idx ∧ idx < s.pollfds.length)
    let pfd ← s.pollfds[idx.toNat]?
    assert (pfd.fd = channel.fd ∨ pfd.fd = ignored channel.fd)
    let pfd := { pfd with events := channel.events, revents := 0 }
    let pfd := if channel.events = kNoneEvent then { pfd with fd := ignored channel.fd } else pfd
    return { s with pollfds := s.pollfds.set idx.toNat pfd }

def removeChannel (s : St Ch) (c : Ch) : Option (St Ch) := do
  let channel := s.chan c
  assert (s.channels.find channel.fd ≠ none)
  assert (s.channels.find channel.fd = some c)
  assert (channel.events = kNoneEvent)
  let idx := channel.index
  assert (0 ≤ idx ∧ idx < s.pollfds.length)
  let pfd ← s.pollfds[idx.toNat]?
  assert (pfd.fd = ignored channel.fd ∧ pfd.events = channel.events)
  let channels : Map Int Ch := s.channels.erase channel.fd
  if idx.toNat = s.pollfds.length - 1 then
    return { s with pollfds := s.pollfds.dropLast, channels := channels }
  else
    let back ← s.pollfds.getLast?
    let pollfds := swapAt s.pollfds idx.toNat (s.pollfds.length - 1)
    let channelAtEnd := if back.fd < 0 then ignored back.fd else back.fd
    let moved ← channels.find channelAtEnd
    return { chan := Function.update s.chan moved { s.chan moved with index := idx }
             pollfds := pollfds.dropLast
             channels := channels }

/-- The loop of `fillActiveChannels` over the rest of the slots. -/
def fillActiveChannels (channels : Map Int Ch) :
    List PollFd → Nat → (Ch → Channel) → List Ch → Option ((Ch → Channel) × List Ch)
  | [], _, chan, activeChannels => some (chan, activeChannels)
  | pfd :: rest, numEvents, chan, activeChannels =>
    if 0 < numEvents then
      if 0 < pfd.revents then do
        let channel ← channels.find pfd.fd
        assert ((chan channel).fd = pfd.fd)
        fillActiveChannels channels rest (numEvents - 1)
          (Function.update chan channel { chan channel with revents := pfd.revents })
          (activeChannels ++ [channel])
      else fillActiveChannels channels rest numEvents chan activeChannels
    else some (chan, activeChannels)

/-- A call of `Channel::enableReading` and its like: the new interest, then
`update()`. -/
def setInterest (s : St Ch) (c : Ch) (i : Interest) : Option (St Ch) :=
  updateChannel
    { s with chan := Function.update s.chan c { s.chan c with events := i.apply (s.chan c).events } } c

/-! ## Runs -/

inductive Act (Ch : Type)
  | set (c : Ch) (i : Interest)
  | remove (c : Ch)

/-- The poller, and the channels removed so far. -/
structure Sys (Ch : Type) extends St Ch where
  removed : List Ch

/-- The asserts at the head of `removeChannel`. -/
def Removable (s : St Ch) (c : Ch) : Prop :=
  s.channels.find (s.chan c).fd = some c ∧ (s.chan c).events = kNoneEvent ∧
    (0 ≤ (s.chan c).index ∧ (s.chan c).index < s.pollfds.length) ∧
    (s.slot? c).map (fun p => (p.fd, p.events)) = some (ignored (s.chan c).fd, kNoneEvent)

instance (s : St Ch) (c : Ch) : Decidable (Removable s c) :=
  inferInstanceAs (Decidable (_ ∧ _ ∧ _ ∧ _))

/-- Channels with descriptors `fd`, none registered at the start. A removed
channel is not used again, and one is only removed as `removeChannel` asserts. -/
def machine (fd : Ch → Int) : Machine (Sys Ch) (Act Ch) where
  init := { chan := fun c => { fd := fd c }, pollfds := [], channels := ∅, removed := [] }
  enabled s
    | .set c _ => c ∉ s.removed
    | .remove c => Removable s.toSt c
  exec s
    | .set c i => (setInterest s.toSt c i).map fun t => { t with removed := s.removed }
    | .remove c => (removeChannel s.toSt c).map fun t => { t with removed := c :: s.removed }

instance (fd : Ch → Int) (s : Sys Ch) : ∀ a : Act Ch, Decidable ((machine fd).enabled s a)
  | .set c _ => inferInstanceAs (Decidable (c ∉ s.removed))
  | .remove c => inferInstanceAs (Decidable (Removable s.toSt c))

/-- Channels that are named by their descriptors. -/
abbrev numbered : Machine (Sys Nat) (Act Nat) := machine fun n => (n : Int)

end Poller

end Cppnetool
