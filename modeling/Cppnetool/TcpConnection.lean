import Cppnetool.Buffer
import Cppnetool.EventLoop
import Cppnetool.Poller
/-!
# `TcpConnection`

The output side of `net/TcpConnection.cc`, on its event loop. Of the kernel it
knows the bytes taken by `::write` and the calls of `shutdown(2)`; each call of
`::write` comes with its outcome.

`send` and `shutdown` may be called in any thread. In another thread than the
loop's they are three steps: the call up to `queueInLoop`, and the two steps
of `queueInLoop`.
-/
open Lib

namespace Cppnetool.TcpConnection

inductive StateE
  | kConnecting
  | kConnected
  | kDisconnecting
  | kDisconnected
deriving DecidableEq

/-- What `loop_->runInLoop` and `queueInLoop` are given. A `sendInLoop` of
another thread carries that thread. -/
inductive Functor (T : Type)
  | sendInLoop (t : T) (message : List Byte)
  | shutdownInLoop
  | shutdownAllInLoop
  | writeCompleteCallback
  | other (n : Nat)
deriving DecidableEq

/-- A call in another thread that has not reached `queueInLoop` yet. -/
inductive Call
  | send (message : List Byte)
  | shutdown
  | shutdownAll
deriving DecidableEq

def Call.functor {T : Type} (t : T) : Call → Functor T
  | send message => .sendInLoop t message
  | shutdown => .shutdownInLoop
  | shutdownAll => .shutdownAllInLoop

/-- The outcome of `::write`: an error, or at most the bytes offered. -/
inductive WriteResult
  | error
  | wrote (n : Nat)
deriving DecidableEq

def WriteResult.count (w : WriteResult) (offered : Nat) : Int :=
  match w with
  | error => -1
  | wrote n => (min n offered : Nat)

structure Conn where
  state : StateE := .kConnecting
  /-- `channel_->events()`. -/
  events : Nat := kNoneEvent
  outputBuffer : Buffer := .new
  /-- `writeCompleteCallback_` is set. -/
  hasWriteComplete : Bool := false
  /-- What `::write` has taken. -/
  transmitted : List Byte := []
  /-- The calls of `shutdownWrite` and of `shutdownRead`. -/
  shutWrite : Nat := 0
  shutRead : Nat := 0

def Conn.isWriting (c : Conn) : Bool := c.events &&& kWriteEvent ≠ 0

def Conn.isReading (c : Conn) : Bool := c.events &&& kReadEvent ≠ 0

def Conn.setInterest (c : Conn) (i : Interest) : Conn := { c with events := i.apply c.events }

def Conn.write (c : Conn) (data : List Byte) (w : WriteResult) : Conn :=
  { c with transmitted := c.transmitted ++ data.take (w.count data.length).toNat }

structure Sys (C T : Type) where
  loop : EventLoop.St C (Functor T) T := {}
  conn : Conn := {}
  /-- The other threads inside `send` or `shutdown`, before `queueInLoop`. -/
  calls : T → Option Call := fun _ => none
  /-- The messages `send` took while connected, by thread; `none` is the loop
  thread. -/
  sent : Option T → List (List Byte) := fun _ => []
  /-- The messages `sendInLoop` has run for. -/
  ran : List (Option T × List Byte) := []

variable {C T : Type}

/-- `loop_->queueInLoop` in the loop thread. -/
def queueInLoop (s : Sys C T) (f : Functor T) : Sys C T := { s with loop := EventLoop.queueInLoop s.loop f }

def shutdownInLoop (s : Sys C T) : Sys C T :=
  if s.conn.isWriting then s else { s with conn := { s.conn with shutWrite := s.conn.shutWrite + 1 } }

def shutdownAllInLoop (s : Sys C T) : Sys C T :=
  let s := shutdownInLoop s
  if s.conn.isReading then s else { s with conn := { s.conn with shutRead := s.conn.shutRead + 1 } }

/-- The direct write of `sendInLoop`, and `nwrote` after it. -/
def writeDirect (s : Sys C T) (message : List Byte) (w : WriteResult) : Int × Sys C T :=
  if ¬ s.conn.isWriting ∧ s.conn.outputBuffer.readableBytes = 0 then
    let nwrote := w.count message.length
    let s := { s with conn := s.conn.write message w }
    if 0 ≤ nwrote then
      if nwrote < message.length then (nwrote, s)
      else if s.conn.hasWriteComplete then (nwrote, queueInLoop s .writeCompleteCallback)
      else (nwrote, s)
    else (0, s)
  else (0, s)

def sendInLoop (s : Sys C T) (message : List Byte) (w : WriteResult) : Option (Sys C T) := do
  let (nwrote, s) := writeDirect s message w
  assert (0 ≤ nwrote)
  if nwrote < message.length then
    let b ← s.conn.outputBuffer.append (message.drop nwrote.toNat)
    let s := { s with conn := { s.conn with outputBuffer := b } }
    return if s.conn.isWriting then s else { s with conn := s.conn.setInterest .enableWriting }
  else return s

/-- What `handleWrite` does when the last byte is out. -/
def drained (s : Sys C T) : Sys C T :=
  let s := { s with conn := s.conn.setInterest .disableWriting }
  let s := if s.conn.hasWriteComplete then queueInLoop s .writeCompleteCallback else s
  if s.conn.state = .kDisconnecting then shutdownInLoop s else s

def handleWrite (s : Sys C T) (w : WriteResult) : Option (Sys C T) :=
  if s.conn.isWriting then
    let n := w.count s.conn.outputBuffer.readableBytes
    let conn := s.conn.write s.conn.outputBuffer.readable w
    if 0 < n then do
      let b ← s.conn.outputBuffer.retrieve n.toNat
      let s := { s with conn := { conn with outputBuffer := b } }
      return if b.readableBytes = 0 then drained s else s
    else some { s with conn := conn }
  else some s

/-! ## Runs -/

inductive Act (C T : Type)
  /-- A step of the loop or of a thread in `queueInLoop`; where it starts a
  functor of the connection that writes, with the outcome of the write. -/
  | loop (a : EventLoop.Act C (Functor T) T) (w : WriteResult)
  /-- `send` in the loop thread. -/
  | send (message : List Byte) (w : WriteResult)
  | shutdown
  | shutdownAll
  /-- `send`, `shutdown` or `shutdownAll` in another thread, up to `queueInLoop`. -/
  | call (t : T) (c : Call)
  /-- Its `push_back`. -/
  | pushBack (t : T)
  | handleWrite (w : WriteResult)
  | connectEstablished
  | setInterest (i : Interest)
  | setWriteCompleteCallback (on : Bool)

/-- The functor that the loop thread starts: what it does to the connection. -/
def runFunctor (s : Sys C T) (w : WriteResult) : Functor T → Option (Sys C T)
  | .sendInLoop t message => sendInLoop { s with ran := s.ran ++ [(some t, message)] } message w
  | .shutdownInLoop => some (shutdownInLoop s)
  | .shutdownAllInLoop => some (shutdownAllInLoop s)
  | .writeCompleteCallback => some s
  | .other _ => some s

/-- Functors that are not the connection's own. -/
def Functor.foreign : Functor T → Bool
  | other _ => true
  | _ => false

variable [DecidableEq T]

def record (s : Sys C T) (who : Option T) (message : List Byte) : Sys C T :=
  { s with sent := Function.update s.sent who (s.sent who ++ [message]) }

/-- `send` and `shutdown` up to `runInLoop`: the state is checked, and set. -/
def call (s : Sys C T) (t : T) (c : Call) : Sys C T :=
  if s.conn.state = .kConnected then
    let s := { s with calls := Function.update s.calls t (some c) }
    match c with
    | .send message => record s (some t) message
    | .shutdown => { s with conn := { s.conn with state := .kDisconnecting } }
    | .shutdownAll => { s with conn := { s.conn with state := .kDisconnecting } }
  else s

variable [DecidableEq C]

/-- `self` is the connection's channel. -/
def machine (self : C) : Machine (Sys C T) (Act C T) where
  init := {}
  enabled s
    | .loop a _ => (EventLoop.machine C (Functor T) T).enabled s.loop a ∧ ∀ f ∈ a.pushes, f.foreign
    | .send _ _ => s.loop.pc.userCode
    | .shutdown => s.loop.pc.userCode
    | .shutdownAll => s.loop.pc.userCode
    | .call t _ => t ∉ s.loop.waking ∧ s.calls t = none
    | .pushBack t => s.calls t ≠ none ∧ t ∉ s.loop.waking
    | .handleWrite _ => s.loop.pc.handles self
    | .connectEstablished => s.loop.pc.userCode ∧ s.conn.state = .kConnecting
    | .setInterest _ => s.loop.pc.userCode
    | .setWriteCompleteCallback _ => s.loop.pc.userCode
  exec s
    | .loop a w => do
      let loop ← (EventLoop.machine C (Functor T) T).exec s.loop a
      let started := a.starts s.loop
      let s := { s with loop := loop }
      match started with
      | none => return s
      | some f => runFunctor s w f
    | .send message w =>
      if s.conn.state = .kConnected then
        let s := record s none message
        sendInLoop { s with ran := s.ran ++ [(none, message)] } message w
      else some s
    | .shutdown =>
      some (if s.conn.state = .kConnected then
        shutdownInLoop { s with conn := { s.conn with state := .kDisconnecting } }
      else s)
    | .shutdownAll =>
      some (if s.conn.state = .kConnected then
        shutdownAllInLoop { s with conn := { s.conn with state := .kDisconnecting } }
      else s)
    | .call t c => some (call s t c)
    | .pushBack t => do
      let c ← s.calls t
      let loop ← (EventLoop.machine C (Functor T) T).exec s.loop (.pushBack t (c.functor t))
      return { s with loop := loop, calls := Function.update s.calls t none }
    | .handleWrite w => handleWrite s w
    | .connectEstablished => do
      assert (s.conn.state = .kConnecting)
      let conn := { s.conn with state := .kConnected }
      return { s with conn := conn.setInterest .enableReading }
    | .setInterest i => some { s with conn := s.conn.setInterest i }
    | .setWriteCompleteCallback on => some { s with conn := { s.conn with hasWriteComplete := on } }

instance (self : C) (s : Sys C T) : ∀ a, Decidable ((machine self).enabled s a)
  | .loop a _ => inferInstanceAs
      (Decidable ((EventLoop.machine C (Functor T) T).enabled s.loop a ∧ ∀ f ∈ a.pushes, f.foreign = true))
  | .send _ _ => inferInstanceAs (Decidable (s.loop.pc.userCode = true))
  | .shutdown => inferInstanceAs (Decidable (s.loop.pc.userCode = true))
  | .shutdownAll => inferInstanceAs (Decidable (s.loop.pc.userCode = true))
  | .call t _ => inferInstanceAs (Decidable (t ∉ s.loop.waking ∧ s.calls t = none))
  | .pushBack t => inferInstanceAs (Decidable (s.calls t ≠ none ∧ t ∉ s.loop.waking))
  | .handleWrite _ => inferInstanceAs (Decidable (s.loop.pc.handles self = true))
  | .connectEstablished => inferInstanceAs (Decidable (s.loop.pc.userCode = true ∧ s.conn.state = .kConnecting))
  | .setInterest _ => inferInstanceAs (Decidable (s.loop.pc.userCode = true))
  | .setWriteCompleteCallback _ => inferInstanceAs (Decidable (s.loop.pc.userCode = true))

end Cppnetool.TcpConnection
