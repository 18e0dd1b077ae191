import Cppnetool.Lib.Runs
/-!
# `Connector`

`net/Connector.cc` over its loop. A socket is named by its place among those
that `connect` has made, a channel by the socket it is for, a retry timer by
its sequence. The outcome of each system call is part of the action that makes
it: what `connect(2)` leaves in `errno`, and what the kernel says of a socket
that has become writable.

Between any two steps of the loop, and while `newConnectionCallback_` runs,
anyone may call `start`, `restart` and `stop`. Where the code would use a
channel or a `Connector` that is destroyed, or fails an assert, there is no
next state.
-/
open Lib

namespace Cppnetool.Connector

abbrev Sock := Nat

inductive StateE
  | kDisconnected
  | kConnecting
  | kConnected
deriving DecidableEq

def kMaxRetryDelayMs : Nat := 30 * 1000

def kInitRetryDelayMs : Nat := 500

/-- `savedErrno`; `success` is the `0` of a `connect(2)` that returns `0`. -/
inductive Errno
  | success
  | EINPROGRESS
  | EINTR
  | EISCONN
  | EAGAIN
  | EADDRINUSE
  | EADDRNOTAVAIL
  | ECONNREFUSED
  | ENETUNREACH
  | EACCES
  | EPERM
  | EAFNOSUPPORT
  | EALREADY
  | EBADF
  | EFAULT
  | ENOTSOCK
  | other (n : Nat)
deriving DecidableEq

/-- A timer of `retry`. -/
structure Timer where
  sequence : Nat
  delayMs : Nat
deriving DecidableEq

/-- What another thread queues in the loop. -/
inductive Functor
  | startInLoop
  | cancelInLoop (timerId : Option Nat)
deriving DecidableEq

structure St where
  /-- `connect_`. -/
  connect : Bool := false
  state : StateE := .kDisconnected
  /-- The channel that `channel_` holds. -/
  channel : Option Sock := none
  retryDelayMs : Nat := kInitRetryDelayMs
  timerId : Option Nat := none
  /-- The `Connector` has not been destroyed. -/
  alive : Bool := true
  /-- `newConnectionCallback_` is running, with this socket. -/
  calling : Option Sock := none
  /-- The connecting channels that the poller has. -/
  registered : List Sock := []
  /-- The retry timers in the timer queue, and those of the expired batch that
  are still to run. -/
  waiting : List Timer := []
  expired : List Timer := []
  /-- How many timers and sockets have been made. -/
  timers : Nat := 0
  created : Nat := 0
  queued : List Functor := []
  /-- What `newConnectionCallback_` was given, and what `sockets::close` was. -/
  handed : List Sock := []
  closed : List Sock := []
deriving DecidableEq

/-- `timerId_ = loop_->runAfter(..)`. -/
def runAfter (s : St) (delayMs : Nat) : St :=
  { s with waiting := s.waiting ++ [⟨s.timers, delayMs⟩], timerId := some s.timers, timers := s.timers + 1 }

/-- A timer of the expired batch is not taken out of it. -/
def cancelInLoop (s : St) (timerId : Option Nat) : St :=
  { s with waiting := s.waiting.filter fun t => some t.sequence ≠ timerId }

def close (s : St) (sockfd : Sock) : St := { s with closed := s.closed ++ [sockfd] }

def retry (s : St) (sockfd : Sock) : St :=
  let s := { close s sockfd with state := .kDisconnected }
  if s.connect then
    { runAfter s s.retryDelayMs with retryDelayMs := min (s.retryDelayMs * 2) kMaxRetryDelayMs }
  else s

/-- The poller keeps a channel that `channel_` held before. -/
def connecting (s : St) (sockfd : Sock) : St :=
  { s with state := .kConnecting, channel := some sockfd, registered := s.registered ++ [sockfd] }

def connect (s : St) (savedErrno : Errno) : St :=
  let sockfd := s.created
  let s := { s with created := s.created + 1 }
  match savedErrno with
  | .success | .EINPROGRESS | .EINTR | .EISCONN => connecting s sockfd
  | .EAGAIN | .EADDRINUSE | .EADDRNOTAVAIL | .ECONNREFUSED | .ENETUNREACH => retry s sockfd
  | .EACCES | .EPERM | .EAFNOSUPPORT | .EALREADY | .EBADF | .EFAULT | .ENOTSOCK => close s sockfd
  | .other _ => close s sockfd

def startInLoop (s : St) (savedErrno : Errno) : St := if s.connect then connect s savedErrno else s

/-- `start` in the loop's thread. -/
def start (s : St) (savedErrno : Errno) : St := startInLoop { s with connect := true } savedErrno

def restart (s : St) (savedErrno : Errno) : St :=
  startInLoop { s with state := .kDisconnected, retryDelayMs := kInitRetryDelayMs, connect := true } savedErrno

/-- `stop` in the loop's thread. -/
def stop (s : St) : St := cancelInLoop { s with connect := false } s.timerId

/-- `removeAndResetChannel`, which does not reset it. -/
def removeAndResetChannel (s : St) : Option (Sock × St) := do
  let sockfd ← s.channel
  return (sockfd, { s with registered := s.registered.erase sockfd })

def resetChannel (s : St) : St := { s with channel := none }

/-- `handleWrite`, up to `newConnectionCallback_` where that is called. -/
def handleWrite (s : St) (soError : Int) (selfConnect : Bool) : Option St :=
  if s.state = .kConnecting then do
    let (sockfd, s) ← removeAndResetChannel s
    if soError ≠ 0 then return resetChannel (retry s sockfd)
    else if selfConnect then return resetChannel (retry s sockfd)
    else
      let s := { s with state := .kConnected }
      if s.connect then return { s with handed := s.handed ++ [sockfd], calling := some sockfd }
      else return resetChannel (close s sockfd)
  else do
    assert (s.state = .kDisconnected)
    return s

/-- The rest of `handleWrite`, when `newConnectionCallback_` returns. -/
def callbackReturns (s : St) : Option St := do
  assert (s.alive = true)
  return resetChannel { s with calling := none }

def handleError (s : St) : Option St := do
  let (sockfd, s) ← removeAndResetChannel s
  return retry s sockfd

/-- `Channel::handleEvent` of a connecting channel: `errorCallback_` and then
`writeCallback_`, as `revents` says. -/
def handleEvent (s : St) (c : Sock) (err out : Bool) (soError : Int) (selfConnect : Bool) : Option St := do
  assert (s.channel = some c)
  let s ← if err then handleError s else some s
  if out then handleWrite s soError selfConnect else some s

/-- `~Connector`. -/
def destroy (s : St) : Option St := do
  let s := cancelInLoop s s.timerId
  let s ← if s.state = .kConnecting then (removeAndResetChannel s).map Prod.snd else some s
  return { cancelInLoop s s.timerId with alive := false, channel := none }

/-! ## Runs -/

inductive Act
  | start (savedErrno : Errno)
  | restart (savedErrno : Errno)
  | stop
  /-- `start` and `stop` in another thread. -/
  | startElsewhere
  | stopElsewhere
  | runFunctor (savedErrno : Errno)
  /-- The timer queue takes `ts` out, to run them in this order, and keeps `rest`. -/
  | expire (ts rest : List Timer)
  | runTimer (savedErrno : Errno)
  | handleEvent (c : Sock) (err out : Bool) (soError : Int) (selfConnect : Bool)
  | callbackReturns
  | destroy
deriving DecidableEq

def runFunctor (s : St) (savedErrno : Errno) : Option St :=
  match s.queued with
  | [] => none
  | f :: rest =>
    let s := { s with queued := rest }
    match f with
    | .cancelInLoop timerId => some (cancelInLoop s timerId)
    | .startInLoop => do
      assert (s.alive = true)
      return startInLoop s savedErrno

def runTimer (s : St) (savedErrno : Errno) : Option St :=
  match s.expired with
  | [] => none
  | _ :: rest => do
    assert (s.alive = true)
    return startInLoop { s with expired := rest } savedErrno

/-- The loop is in none of its callbacks, and not inside a batch of timers. -/
def Polling (s : St) : Prop := s.calling = none ∧ s.expired = []

instance (s : St) : Decidable (Polling s) := inferInstanceAs (Decidable (_ ∧ _))

def enabled (s : St) : Act → Prop
  | .start _ | .restart _ | .stop | .startElsewhere | .stopElsewhere | .destroy => s.alive = true
  | .runFunctor _ => Polling s ∧ s.queued ≠ []
  | .expire ts rest => Polling s ∧ (ts ++ rest).Perm s.waiting
  | .runTimer _ => s.calling = none ∧ s.expired ≠ []
  | .handleEvent c .. => Polling s ∧ c ∈ s.registered
  | .callbackReturns => s.calling ≠ none

instance (s : St) : ∀ a, Decidable (enabled s a)
  | .start _ | .restart _ | .stop | .startElsewhere | .stopElsewhere | .destroy =>
    inferInstanceAs (Decidable (s.alive = true))
  | .runFunctor _ => inferInstanceAs (Decidable (Polling s ∧ s.queued ≠ []))
  | .expire ts rest => inferInstanceAs (Decidable (Polling s ∧ (ts ++ rest).Perm s.waiting))
  | .runTimer _ => inferInstanceAs (Decidable (s.calling = none ∧ s.expired ≠ []))
  | .handleEvent c .. => inferInstanceAs (Decidable (Polling s ∧ c ∈ s.registered))
  | .callbackReturns => inferInstanceAs (Decidable (s.calling ≠ none))

def exec (s : St) : Act → Option St
  | .start savedErrno => some (start s savedErrno)
  | .restart savedErrno => some (restart s savedErrno)
  | .stop => some (stop s)
  | .startElsewhere => some { s with connect := true, queued := s.queued ++ [.startInLoop] }
  | .stopElsewhere => some { s with connect := false, queued := s.queued ++ [.cancelInLoop s.timerId] }
  | .runFunctor savedErrno => runFunctor s savedErrno
  | .expire ts rest => some { s with expired := ts, waiting := rest }
  | .runTimer savedErrno => runTimer s savedErrno
  | .handleEvent c err out soError selfConnect => handleEvent s c err out soError selfConnect
  | .callbackReturns => callbackReturns s
  | .destroy => destroy s

def machine : Machine St Act where
  init := {}
  enabled := enabled
  exec := exec

instance (s : St) (a : Act) : Decidable (machine.enabled s a) := inferInstanceAs (Decidable (enabled s a))

/-! ## What a step of the loop does -/

variable {s s' : St} {c : Sock} {savedErrno : Errno}

theorem runFunctor_cases (hx : runFunctor s savedErrno = some s') : ∃ rest,
    (∃ timerId, s.queued = .cancelInLoop timerId :: rest ∧ s' = cancelInLoop { s with queued := rest } timerId) ∨
    (s.queued = .startInLoop :: rest ∧ s.alive = true ∧ s' = startInLoop { s with queued := rest } savedErrno) := by
  unfold runFunctor at hx
  split at hx
  · cases hx
  · rename_i f rest hq
    refine ⟨rest, ?_⟩
    cases f with
    | cancelInLoop timerId =>
      cases hx
      exact .inl ⟨timerId, hq, rfl⟩
    | startInLoop =>
      obtain ⟨_, ha, hx⟩ := Option.bind_eq_some_iff.1 hx
      cases hx
      exact .inr ⟨hq, assert_eq_some.1 ha, rfl⟩

theorem runTimer_cases (hx : runTimer s savedErrno = some s') : ∃ t rest, s.expired = t :: rest ∧ s.alive = true ∧
    s' = startInLoop { s with expired := rest } savedErrno := by
  unfold runTimer at hx
  split at hx
  · cases hx
  · rename_i t rest he
    obtain ⟨_, ha, hx⟩ := Option.bind_eq_some_iff.1 hx
    cases hx
    exact ⟨t, rest, he, assert_eq_some.1 ha, rfl⟩

/-- `~Connector` takes the channel of `channel_` out of the poller in `kConnecting` only. -/
theorem destroy_cases (hx : destroy s = some s') : ∃ registered,
    (s.state ≠ .kConnecting ∧ registered = s.registered ∨
      s.state = .kConnecting ∧ ∃ c, s.channel = some c ∧ registered = s.registered.erase c) ∧
    s' = { cancelInLoop (cancelInLoop s s.timerId) s.timerId with alive := false, channel := none, registered } := by
  simp only [destroy] at hx
  split at hx
  · rename_i hst
    obtain ⟨t, ht, hx⟩ := Option.bind_eq_some_iff.1 hx
    obtain ⟨r, hr, rfl⟩ := Option.map_eq_some_iff.1 ht
    obtain ⟨c, hc, hr⟩ := Option.bind_eq_some_iff.1 hr
    cases hr
    cases hx
    exact ⟨_, .inr ⟨hst, c, hc, rfl⟩, rfl⟩
  · rename_i hst
    cases hx
    exact ⟨_, .inl ⟨hst, rfl⟩, rfl⟩

/-! ## What the operations do to the channel -/

theorem retry_leaves (s : St) (c : Sock) : (retry s c).channel = s.channel ∧ (retry s c).state = .kDisconnected ∧
    (retry s c).calling = s.calling ∧ (retry s c).registered = s.registered := by
  unfold retry
  dsimp only
  split <;> exact ⟨rfl, rfl, rfl, rfl⟩

theorem removeAndResetChannel_spec (h : s.channel = some c) :
    removeAndResetChannel s = some (c, { s with registered := s.registered.erase c }) := by
  unfold removeAndResetChannel
  rw [h, some_bind]
  rfl

/-- `handleError` takes the channel out of the poller, and keeps it. -/
theorem handleError_leaves (h : s.channel = some c) : ∃ s', handleError s = some s' ∧ s'.channel = some c ∧
    s'.state = .kDisconnected ∧ s'.calling = s.calling ∧ s'.registered = s.registered.erase c := by
  obtain ⟨hc, hs, hcall, hr⟩ := retry_leaves { s with registered := s.registered.erase c } c
  refine ⟨_, ?_, hc.trans h, hs, hcall, hr⟩
  unfold handleError
  rw [removeAndResetChannel_spec h]
  rfl

/-- A write event after an error event of the same poll result. -/
theorem handleWrite_disconnected (h : s.state = .kDisconnected) (soError : Int) (selfConnect : Bool) :
    handleWrite s soError selfConnect = some s := by
  unfold handleWrite
  rw [if_neg (by rw [h]; decide), assert_bind h]
  rfl

/-- What an event of a connecting channel does. -/
theorem handleEvent_cases {err out : Bool} {soError : Int} {selfConnect : Bool}
    (hx : handleEvent s c err out soError selfConnect = some s') : s.channel = some c ∧
    ((err = true ∧ s' = retry { s with registered := s.registered.erase c } c) ∨
    (err = false ∧ (out = false ∨ s.state ≠ .kConnecting) ∧ s' = s) ∨
    (err = false ∧ out = true ∧ s.state = .kConnecting ∧
      ((soError ≠ 0 ∨ selfConnect = true) ∧
        s' = resetChannel (retry { s with registered := s.registered.erase c } c) ∨
      soError = 0 ∧ selfConnect = false ∧ s.connect = true ∧ s' = { s with
        registered := s.registered.erase c, state := .kConnected, handed := s.handed ++ [c], calling := some c } ∨
      soError = 0 ∧ selfConnect = false ∧ s.connect = false ∧
        s' = resetChannel (close { s with registered := s.registered.erase c, state := .kConnected } c)))) := by
  obtain ⟨_, hc, hx⟩ := Option.bind_eq_some_iff.1 hx
  have hc := assert_eq_some.1 hc
  refine ⟨hc, ?_⟩
  cases err with
  | true =>
    left
    obtain ⟨s₁, h₁, hx⟩ := Option.bind_eq_some_iff.1 hx
    rw [handleError, removeAndResetChannel_spec hc] at h₁
    cases h₁
    refine ⟨rfl, ?_⟩
    -- the write event of the same poll result finds `kDisconnected`
    have hst := (retry_leaves { s with registered := s.registered.erase c } c).2.1
    cases out with
    | false => exact (Option.some.inj hx).symm
    | true =>
      simp only [if_true, handleWrite_disconnected hst] at hx
      exact (Option.some.inj hx).symm
  | false =>
    right
    simp only [Bool.false_eq_true, if_false, some_bind] at hx
    cases out with
    | false =>
      cases hx
      exact .inl ⟨rfl, .inl rfl, rfl⟩
    | true =>
      simp only [if_true, handleWrite] at hx
      split at hx
      · rename_i hst
        refine .inr ⟨rfl, rfl, hst, ?_⟩
        rw [removeAndResetChannel_spec hc, some_bind] at hx
        split at hx
        · rename_i he
          cases hx
          exact .inl ⟨.inl he, rfl⟩
        · rename_i he
          split at hx
          · rename_i hself
            cases hx
            exact .inl ⟨.inr hself, rfl⟩
          · rename_i hself
            have hself : selfConnect = false := by simpa using hself
            split at hx
            · rename_i hcon
              cases hx
              exact .inr (.inl ⟨not_not.1 he, hself, hcon, rfl⟩)
            · rename_i hcon
              cases hx
              exact .inr (.inr ⟨not_not.1 he, hself, by simpa using hcon, rfl⟩)
      · rename_i hst
        obtain ⟨-, -, hx⟩ := Option.bind_eq_some_iff.1 hx
        cases hx
        exact .inl ⟨rfl, .inr hst, rfl⟩

/-! ## What the operations leave of a poll -/

theorem startInLoop_leaves (s : St) (savedErrno : Errno) : (startInLoop s savedErrno).calling = s.calling ∧
    (startInLoop s savedErrno).expired = s.expired := by
  unfold startInLoop
  split
  · rename_i h
    cases savedErrno <;> simp [connect, connecting, retry, close, runAfter, h]
  · exact ⟨rfl, rfl⟩

theorem retry_expired (s : St) (c : Sock) : (retry s c).expired = s.expired := by
  unfold retry
  dsimp only
  split <;> rfl

/-- No event of a channel touches the batch of timers. -/
theorem handleEvent_expired {err out : Bool} {soError : Int} {selfConnect : Bool}
    (hx : handleEvent s c err out soError selfConnect = some s') : s'.expired = s.expired := by
  have hretry := retry_expired { s with registered := s.registered.erase c } c
  obtain ⟨-, ⟨-, rfl⟩ | ⟨-, -, rfl⟩ | ⟨-, -, -, ⟨-, rfl⟩ | ⟨-, -, -, rfl⟩ | ⟨-, -, -, rfl⟩⟩⟩ := handleEvent_cases hx
  · exact hretry
  · rfl
  · exact hretry
  · rfl
  · rfl

end Cppnetool.Connector
