import Cppnetool.Connector
import Cppnetool.TcpConnection
/-!
# `Channel::handleEvent`

`net/Channel.cc` and what its owners bind to it: `net/TcpConnection.cc`,
`net/Connector.cc`, `net/Acceptor.cc`, `net/TimerQueue.cc`, `net/EventLoop.cc`.
`handleEvent` reads `revents_` and the callbacks before each of its branches; a
read after the channel was destroyed is an error of its own. Of the owner it
knows what its callbacks are, and whether the channel is still there after them.

What the user's callbacks do to the owner and to its channel is free.
-/
open Lib

namespace Cppnetool

def POLLERR : Nat := 0x008
def POLLHUP : Nat := 0x010
def POLLNVAL : Nat := 0x020
def POLLRDHUP : Nat := 0x2000

namespace ChannelLifetime

open TcpConnection (WriteResult)
open Connector (Sock)

inductive Fault
  /-- A field of a destroyed channel is read. -/
  | destroyed
  /-- An assert fails. -/
  | aborted
deriving DecidableEq

/-- The callbacks of a channel that are set. -/
structure Callbacks (S : Type) where
  error : Option (S → Except Fault S) := none
  write : Option (S → Except Fault S) := none
  read : Option (S → Except Fault S) := none
  close : Option (S → Except Fault S) := none

section HandleEvent
variable {S : Type} (alive : S → Bool)

/-- A read of the channel's fields. -/
def touch (s : S) : Except Fault Unit := if alive s then .ok () else .error .destroyed

def call (callback : Option (S → Except Fault S)) (s : S) : Except Fault S :=
  match callback with
  | some f => f s
  | none => .ok s

/-- Call it if `revents_` has a bit of the mask. -/
def callOn (revents mask : Nat) (callback : Option (S → Except Fault S)) (s : S) : Except Fault S :=
  if revents &&& mask ≠ 0 then call callback s else .ok s

/-- `eventHandling_` is written only, and left out. -/
def handleEvent (cb : Callbacks S) (revents : Nat) (s : S) : Except Fault S := do
  touch alive s
  let s ← callOn revents (POLLERR ||| POLLNVAL) cb.error s
  touch alive s
  let s ← callOn revents POLLOUT cb.write s
  touch alive s
  if revents &&& (POLLIN ||| POLLPRI ||| POLLRDHUP) ≠ 0 ∧ cb.read.isSome then
    call cb.read s
  else
    touch alive s
    if revents &&& POLLHUP ≠ 0 ∧ revents &&& POLLIN = 0 then call cb.close s else .ok s

end HandleEvent

/-! ## The owners -/

inductive Owner
  | tcpConnection
  | connector
  | acceptor
  | timerQueue
  | eventLoop
deriving DecidableEq

variable {C T : Type}

/-- An owner and its channel. The channel of a `Connector` is there while
`channel_` holds it, that of any other owner as long as the `Bool` says. -/
def State (C T : Type) : Owner → Type
  | .tcpConnection => TcpConnection.Sys C T × Bool
  | .connector => Connector.St × Sock
  | .acceptor | .timerQueue | .eventLoop => Bool

def alive : (o : Owner) → State C T o → Bool
  | .tcpConnection, s => s.2
  | .connector, s => s.1.channel = some s.2
  | .acceptor, s | .timerQueue, s | .eventLoop, s => s

/-- What the surroundings decide. -/
structure Env (C T : Type) where
  /-- The outcome of `::write`. -/
  write : WriteResult
  /-- What `readFd` or `accept` returns. -/
  result : Int
  soError : Int
  selfConnect : Bool
  /-- What the user's code does that is called, and what it does to the channel. -/
  user : (o : Owner) → State C T o → State C T o

variable (e : Env C T)

def handleClose (s : State C T .tcpConnection) : Except Fault (State C T .tcpConnection) :=
  let (s, alive) : TcpConnection.Sys C T × Bool := s
  .ok (e.user .tcpConnection ({ s with conn := s.conn.setInterest .disableAll }, alive))

/-- `messageCallback_`, `handleClose` or `handleError`, which only logs. -/
def handleRead (s : State C T .tcpConnection) : Except Fault (State C T .tcpConnection) :=
  if 0 < e.result then .ok (e.user .tcpConnection s)
  else if e.result = 0 then handleClose e s
  else .ok s

def handleWrite (s : State C T .tcpConnection) : Except Fault (State C T .tcpConnection) :=
  let (s, alive) : TcpConnection.Sys C T × Bool := s
  match TcpConnection.handleWrite s e.write with
  | some s => .ok (s, alive)
  | none => .error .aborted

/-- `Connector::handleError`. -/
def connectorError (s : State C T .connector) : Except Fault (State C T .connector) :=
  let (s, c) : Connector.St × Sock := s
  match Connector.handleError s with
  | some s => .ok (s, c)
  | none => .error .aborted

/-- `Connector::handleWrite`, with the rest of it when `newConnectionCallback_`
is called and returns. It is not running when `handleEvent` is called. -/
def connectorWrite (s : State C T .connector) : Except Fault (State C T .connector) :=
  let (s, c) : Connector.St × Sock := s
  match Connector.handleWrite { s with calling := none } e.soError e.selfConnect with
  | none => .error .aborted
  | some s =>
    if s.calling = none then .ok (s, c)
    else
      let (s, c) : Connector.St × Sock := e.user .connector (s, c)
      .ok (Connector.resetChannel { s with calling := none }, c)

/-- `Acceptor::handleRead`, with `newConnectionCallback_`. -/
def acceptorRead (s : State C T .acceptor) : Except Fault (State C T .acceptor) :=
  .ok (if 0 ≤ e.result then e.user .acceptor s else s)

def callbacks : (o : Owner) → Callbacks (State C T o)
  | .tcpConnection =>
    { error := some .ok, write := some (handleWrite e), read := some (handleRead e), close := some (handleClose e) }
  | .connector => { error := some connectorError, write := some (connectorWrite e) }
  | .acceptor => { read := some (acceptorRead e) }
  | .timerQueue => { read := some fun s => .ok (e.user .timerQueue s) }
  | .eventLoop => { read := some fun s => .ok (e.user .eventLoop s) }

/-! ## Reads of a destroyed channel -/

/-- The callback leaves the channel where it is. -/
def Keeps {S : Type} (alive : S → Bool) (callback : Option (S → Except Fault S)) : Prop :=
  ∀ s, alive s = true → (∃ t, call callback s = .ok t ∧ alive t = true) ∨ call callback s = .error .aborted

/-- The callback reads nothing of the channel. -/
def Clean {S : Type} (callback : Option (S → Except Fault S)) : Prop := ∀ s, call callback s ≠ .error .destroyed

section Generic
variable {S : Type} {alive : S → Bool} {cb : Callbacks S} {s t u : S} {revents : Nat}

theorem touch_alive (h : alive s = true) : touch alive s = .ok () := if_pos h

theorem callOn_keeps {callback : Option (S → Except Fault S)} (hk : Keeps alive callback) (h : alive s = true)
    (mask : Nat) : (∃ t, callOn revents mask callback s = .ok t ∧ alive t = true) ∨
      callOn revents mask callback s = .error .aborted := by
  unfold callOn
  split
  · exact hk s h
  · exact .inl ⟨s, rfl, h⟩

/-- What `handleEvent` comes to when an error callback aborts. -/
theorem handleEvent_error_aborts (h : alive s = true)
    (herror : callOn revents (POLLERR ||| POLLNVAL) cb.error s = .error .aborted) :
    handleEvent alive cb revents s = .error .aborted := by
  unfold handleEvent
  rw [touch_alive h]
  simp only [bind, Except.bind, herror]

section ErrorKept
variable (h : alive s = true) (herror : callOn revents (POLLERR ||| POLLNVAL) cb.error s = .ok t) (ht : alive t = true)
include h herror ht

theorem handleEvent_write_aborts (hwrite : callOn revents POLLOUT cb.write t = .error .aborted) :
    handleEvent alive cb revents s = .error .aborted := by
  unfold handleEvent
  rw [touch_alive h]
  simp only [bind, Except.bind, herror, touch_alive ht, hwrite]

/-- `handleEvent` returns after the read and close callbacks, whatever they do. -/
theorem handleEvent_write_ok (hwrite : callOn revents POLLOUT cb.write t = .ok u) (hread : Clean cb.read)
    (hclose : Clean cb.close) : handleEvent alive cb revents s ≠ .error .destroyed ↔ alive u = true := by
  unfold handleEvent
  rw [touch_alive h]
  simp only [bind, Except.bind, herror, touch_alive ht, hwrite]
  by_cases hu : alive u = true
  · refine iff_of_true ?_ hu
    simp only [touch_alive hu]
    split
    · exact hread u
    · split
      · exact hclose u
      · intro h
        cases h
  · refine iff_of_false ?_ hu
    simp only [touch, hu]
    exact not_not.2 rfl

end ErrorKept

/-- Callbacks that leave the channel where it is. -/
theorem handleEvent_keeps (h : alive s = true) (herror : Keeps alive cb.error) (hwrite : Keeps alive cb.write)
    (hread : Clean cb.read) (hclose : Clean cb.close) : handleEvent alive cb revents s ≠ .error .destroyed := by
  rcases callOn_keeps herror h (POLLERR ||| POLLNVAL) with ⟨t, h₁, ht⟩ | h₁
  · rcases callOn_keeps hwrite ht POLLOUT with ⟨u, h₂, hu⟩ | h₂
    · exact (handleEvent_write_ok h h₁ ht h₂ hread hclose).2 hu
    · rw [handleEvent_write_aborts h h₁ ht h₂]
      intro h
      cases h
  · rw [handleEvent_error_aborts h h₁]
    intro h
    cases h

theorem keeps_none : Keeps alive none := fun s h => .inl ⟨s, rfl, h⟩

theorem clean_none : Clean (none : Option (S → Except Fault S)) := fun _ h => by cases h

theorem clean_ok (f : S → S) : Clean (some fun s => .ok (f s)) := fun _ h => by cases h

end Generic

/-! ## A connecting channel -/

variable {e} {k : Connector.St} {c : Sock}

theorem connectorError_spec (h : k.channel = some c) :
    ∃ k', connectorError (C := C) (T := T) (k, c) = .ok (k', c) ∧ k'.channel = some c ∧ k'.state = .kDisconnected := by
  obtain ⟨k', hx, hc, hs, -⟩ := Connector.handleError_leaves h
  refine ⟨k', ?_, hc, hs⟩
  unfold connectorError
  dsimp only
  rw [hx]

/-- `handleWrite` of an attempt in flight drops the channel, unless it goes on
to call `newConnectionCallback_`, after which it does. -/
theorem handleWrite_drops (h : k.channel = some c) (hs : k.state = .kConnecting) (soError : Int)
    (selfConnect : Bool) : ∃ k', Connector.handleWrite k soError selfConnect = some k' ∧
      (k'.calling = none → k'.channel = none) := by
  unfold Connector.handleWrite
  rw [if_pos hs, Connector.removeAndResetChannel_spec h, some_bind]
  dsimp only
  split
  · exact ⟨_, rfl, fun _ => rfl⟩
  · split
    · exact ⟨_, rfl, fun _ => rfl⟩
    · split
      · exact ⟨_, rfl, fun h => by cases h⟩
      · exact ⟨_, rfl, fun _ => rfl⟩

/-- The channel is dropped on each path of an attempt in flight, and on no other. -/
theorem connectorWrite_spec (h : k.channel = some c) :
    (k.state = .kConnecting ∧ ∃ r, connectorWrite e (k, c) = .ok r ∧ r.1.channel = none) ∨
    (k.state = .kDisconnected ∧ ∃ k', connectorWrite e (k, c) = .ok (k', c) ∧ k'.channel = some c) ∨
    (k.state = .kConnected ∧ connectorWrite e (k, c) = .error .aborted) := by
  generalize hk : ({ k with calling := none } : Connector.St) = k₀
  have h₀ : k₀.channel = some c := by rw [← hk]; exact h
  have hn₀ : k₀.calling = none := by rw [← hk]
  have hs₀ : k₀.state = k.state := by rw [← hk]
  rw [← hs₀]
  unfold connectorWrite
  simp only [hk]
  cases hs : k₀.state with
  | kConnecting =>
    refine .inl ⟨rfl, ?_⟩
    obtain ⟨k', hx, hd⟩ := handleWrite_drops h₀ hs e.soError e.selfConnect
    rw [hx]
    dsimp only
    split
    · rename_i hc
      exact ⟨_, rfl, hd hc⟩
    · exact ⟨_, rfl, rfl⟩
  | kDisconnected =>
    rw [Connector.handleWrite_disconnected hs]
    exact .inr (.inl ⟨rfl, k₀, if_pos hn₀, h₀⟩)
  | kConnected =>
    have hx : Connector.handleWrite k₀ e.soError e.selfConnect = none := by
      unfold Connector.handleWrite
      rw [hs, if_neg (by decide)]
      rfl
    rw [hx]
    exact .inr (.inr ⟨rfl, rfl⟩)

/-- A write event that ends the attempt in flight, with no error event before it. -/
def Ends : (o : Owner) → State C T o → Nat → Prop
  | .connector, s, revents =>
    s.1.state = .kConnecting ∧ revents &&& POLLOUT ≠ 0 ∧ revents &&& (POLLERR ||| POLLNVAL) = 0
  | _, _, _ => False

theorem connector_alive_iff (h : k.channel = some c) (revents : Nat) :
    handleEvent (alive .connector) (callbacks e .connector) revents (k, c) ≠ .error .destroyed ↔
      ¬ Ends (C := C) (T := T) .connector (k, c) revents := by
  have ha : alive (C := C) (T := T) .connector (k, c) = true := decide_eq_true h
  -- after an error event the attempt is over, and the write event does nothing
  by_cases herr : revents &&& (POLLERR ||| POLLNVAL) = 0
  · have h₁ : callOn revents (POLLERR ||| POLLNVAL) (callbacks e .connector).error (k, c) = .ok (k, c) :=
      if_neg (not_not.2 herr)
    by_cases hout : revents &&& POLLOUT = 0
    · have h₂ : callOn revents POLLOUT (callbacks e .connector).write (k, c) = .ok (k, c) := if_neg (not_not.2 hout)
      refine (handleEvent_write_ok ha h₁ ha h₂ clean_none clean_none).trans (iff_of_true ha ?_)
      exact fun hE => hE.2.1 hout
    · have h₂ : callOn revents POLLOUT (callbacks e .connector).write (k, c) = connectorWrite e (k, c) := if_pos hout
      rcases connectorWrite_spec (e := e) h with ⟨hs, r, hw, hr⟩ | ⟨hs, k', hw, hr⟩ | ⟨hs, hw⟩
      · refine (handleEvent_write_ok ha h₁ ha (h₂.trans hw) clean_none clean_none).trans (iff_of_false ?_ ?_)
        · simp [alive, hr]
        · exact not_not.2 ⟨hs, hout, herr⟩
      · refine (handleEvent_write_ok ha h₁ ha (h₂.trans hw) clean_none clean_none).trans (iff_of_true ?_ ?_)
        · exact decide_eq_true hr
        · exact fun hE => by rw [hE.1] at hs; cases hs
      · have hx := handleEvent_write_aborts ha h₁ ha (h₂.trans hw)
        refine iff_of_true (fun h => by cases hx.symm.trans h) ?_
        exact fun hE => by rw [hE.1] at hs; cases hs
  · obtain ⟨k', hx, hk', hs'⟩ := connectorError_spec (C := C) (T := T) h
    have hno : ¬ Ends (C := C) (T := T) .connector (k, c) revents := fun hE => herr hE.2.2
    have ha' : alive (C := C) (T := T) .connector (k', c) = true := decide_eq_true hk'
    have h₁ : callOn revents (POLLERR ||| POLLNVAL) (callbacks e .connector).error (k, c) = .ok (k', c) :=
      (if_pos herr).trans hx
    obtain ⟨k'', h₂, ha''⟩ : ∃ k'', callOn revents POLLOUT (callbacks e .connector).write (k', c) = .ok (k'', c) ∧
        k''.channel = some c := by
      unfold callOn
      split
      · rcases connectorWrite_spec (e := e) hk' with ⟨hs, -⟩ | ⟨-, k'', hw, hr⟩ | ⟨hs, -⟩
        · rw [hs'] at hs; cases hs
        · exact ⟨k'', hw, hr⟩
        · rw [hs'] at hs; cases hs
      · exact ⟨k', rfl, hk'⟩
    exact (handleEvent_write_ok ha h₁ ha' h₂ clean_none clean_none).trans (iff_of_true (decide_eq_true ha'') hno)

/-- For every owner, state of it and mask: no read of a destroyed channel,
exactly when it is not a `Connector` whose attempt ends in `handleWrite`. -/
theorem handleEvent_alive_iff (e : Env C T) (o : Owner) (s : State C T o) (h : alive o s = true) (revents : Nat) :
    handleEvent (alive o) (callbacks e o) revents s ≠ .error .destroyed ↔ ¬ Ends o s revents := by
  cases o with
  | tcpConnection =>
    refine iff_of_true (handleEvent_keeps h ?_ ?_ ?_ ?_) id
    · intro s h
      exact .inl ⟨s, rfl, h⟩
    · rintro ⟨s, b⟩ h
      simp only [callbacks, call, handleWrite]
      split
      · exact .inl ⟨_, rfl, h⟩
      · exact .inr rfl
    · rintro ⟨s, b⟩
      simp only [callbacks, call, handleRead]
      split
      · intro h
        cases h
      · split
        · intro h
          cases h
        · intro h
          cases h
    · rintro ⟨s, b⟩ h
      cases h
  | connector => exact connector_alive_iff (of_decide_eq_true h) revents
  | acceptor => exact iff_of_true (handleEvent_keeps h keeps_none keeps_none (clean_ok _) clean_none) id
  | timerQueue => exact iff_of_true (handleEvent_keeps h keeps_none keeps_none (clean_ok _) clean_none) id
  | eventLoop => exact iff_of_true (handleEvent_keeps h keeps_none keeps_none (clean_ok _) clean_none) id

/-- A connect that succeeds, with user code that does nothing. -/
def succeeds : Env Nat Nat :=
  { write := .wrote 0, result := 0, soError := 0, selfConnect := false, user := fun _ s => s }

/-- A connect that is refused: the error event ends the attempt before the write event. -/
theorem handleEvent_alive_iff_refused :
    ∃ k : Connector.St, k.state = .kConnecting ∧ k.channel = some 0 ∧
      (handleEvent (alive .connector) (callbacks succeeds .connector) (POLLERR ||| POLLOUT) (k, 0) ≠
        .error .destroyed ↔ ¬ Ends (C := Nat) (T := Nat) .connector (k, 0) (POLLERR ||| POLLOUT)) ∧
      ¬ Ends (C := Nat) (T := Nat) .connector (k, 0) (POLLERR ||| POLLOUT) :=
  ⟨Connector.start {} .EINPROGRESS, rfl, rfl, handleEvent_alive_iff succeeds .connector _ rfl _,
    fun h => absurd h.2.2 (by decide)⟩

/-- A connect that succeeds: `handleWrite` drops the channel, and `handleEvent`
goes on to read `revents_`. -/
theorem connected_channel_read : ∃ tr k, Run Connector.machine tr k ∧
    Connector.enabled k (.handleEvent 0 false true 0 false) ∧ alive (C := Nat) (T := Nat) .connector (k, 0) = true ∧
    handleEvent (alive .connector) (callbacks succeeds .connector) POLLOUT (k, 0) = .error .destroyed := by
  obtain ⟨r, hr, he, hc, hk⟩ : ∃ r ∈ Connector.machine.play Connector.machine.init [.start .EINPROGRESS],
      Connector.enabled r.2 (.handleEvent 0 false true 0 false) ∧ r.2.channel = some 0 ∧
        r.2.state = .kConnecting := by decide
  have ha : alive (C := Nat) (T := Nat) .connector (r.2, 0) = true := decide_eq_true hc
  refine ⟨r.1, r.2, Machine.play_steps hr, he, ha, ?_⟩
  have hE : Ends (C := Nat) (T := Nat) .connector (r.2, 0) POLLOUT := ⟨hk, by decide, by decide⟩
  exact not_not.1 fun h => (connector_alive_iff hc POLLOUT).1 h hE

end ChannelLifetime

end Cppnetool
