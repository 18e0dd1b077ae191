import Mathlib.Logic.Function.Basic
import Cppnetool.Lib.Map
import Cppnetool.TcpConnection
/-!
# `TcpServer`

`net/TcpServer.cc` and the life of the connections it makes, over the loop
that accepts and the loops of the thread pool. A loop has the functors queued
to it, the channels of the running dispatch that are still to be handled, and
a stack of the server's calls of user code that have not returned; `Frame`
says what each call does when its callback returns.

Connections are named by their number. Their objects are kept by the user, who
has `TcpConnectionPtr`s from `getConn`; `nextConnId_` does not wrap.
-/
open Lib

namespace Cppnetool.TcpServer

open TcpConnection (StateE)

/-- `0` is the server's own loop, the others are those of the pool. -/
abbrev Loop := Nat

abbrev ConnId := Nat

structure Conn where
  loop : Loop := 0
  state : StateE := .kConnecting
  /-- The poller watches the channel. -/
  watched : Bool := false
  /-- How often `connectEstablished` and `connectDestroyed` got past their asserts. -/
  established : Nat := 0
  destroyed : Nat := 0
deriving DecidableEq

inductive Functor
  | connectEstablished (c : ConnId)
  | removeConnectionInLoop (c : ConnId)
deriving DecidableEq

inductive Frame
  /-- `connectionCallback_`, called by `connectEstablished`. -/
  | established (c : ConnId)
  /-- The user's `closeCallback_`, called by `removeConnectionInLoop`. -/
  | closing (c : ConnId)
  /-- `connectionCallback_`, called by `connectDestroyed`. -/
  | destroyed (c : ConnId)
deriving DecidableEq

def Functor.conn : Functor → ConnId
  | connectEstablished c => c
  | removeConnectionInLoop c => c

def Frame.conn : Frame → ConnId
  | established c => c
  | closing c => c
  | destroyed c => c

structure St where
  conn : ConnId → Conn := fun _ => {}
  connections : Map String (Option ConnId) := ∅
  nextConnId : Nat := 1
  /-- `threadPool_->next_`. -/
  next : Nat := 0
  pending : Loop → List Functor := fun _ => []
  active : Loop → List ConnId := fun _ => []
  stack : Loop → List Frame := fun _ => []

/-- What a server is set up with. -/
structure Config where
  name : String
  numThreads : Nat
  /-- `closeCallback_` is set. -/
  hasClose : Bool

variable (cfg : Config)

/-- `name_` and then `"#%d"` of `nextConnId_`. -/
def connName (c : ConnId) : String := cfg.name ++ "#" ++ Nat.repr c

def getNextLoop (s : St) : Loop × St :=
  if cfg.numThreads = 0 then (0, s)
  else (s.next + 1, { s with next := if cfg.numThreads ≤ s.next + 1 then 0 else s.next + 1 })

theorem getNextLoop_eq (s : St) : ∃ ioLoop next, getNextLoop cfg s = (ioLoop, { s with next := next }) := by
  unfold getNextLoop
  split
  · exact ⟨0, s.next, rfl⟩
  · exact ⟨_, _, rfl⟩

def queueInLoop (s : St) (l : Loop) (f : Functor) : St :=
  { s with pending := Function.update s.pending l (s.pending l ++ [f]) }

/-- User code is called by the server in loop `l`. -/
def callBack (s : St) (l : Loop) (fr : Frame) : St :=
  { s with stack := Function.update s.stack l (fr :: s.stack l) }

def connectEstablished (s : St) (l : Loop) (c : ConnId) : Option St := do
  let conn := s.conn c
  assert (conn.state = .kConnecting)
  let conn := { conn with state := .kConnected, watched := true, established := conn.established + 1 }
  return callBack { s with conn := Function.update s.conn c conn } l (.established c)

/-- `connectDestroyed` up to its callback. -/
def connectDestroyed (s : St) (l : Loop) (c : ConnId) : Option St := do
  let conn := s.conn c
  assert (conn.state = .kConnected ∨ conn.state = .kDisconnecting)
  let conn := { conn with state := .kDisconnected, watched := false, destroyed := conn.destroyed + 1 }
  return callBack { s with conn := Function.update s.conn c conn } l (.destroyed c)

/-- `removeConnectionInLoop` up to its first callback. -/
def removeConnectionInLoop (s : St) (l : Loop) (c : ConnId) : Option St :=
  if cfg.hasClose then some (callBack s l (.closing c)) else connectDestroyed s l c

/-- After `connectDestroyed`: `erase` in `removeConnectionInLoop` and in `removeConn`. -/
def eraseConn (s : St) (name : String) : Option St := do
  assert (s.connections.find name ≠ none)
  return { s with connections := s.connections.erase name }

def newConnection (s : St) : Option St :=
  let c := s.nextConnId
  let (ioLoop, s) := getNextLoop cfg s
  let s := { s with
    nextConnId := c + 1
    conn := Function.update s.conn c { loop := ioLoop }
    connections := s.connections.insert (connName cfg c) (some c) }
  if ioLoop = 0 then connectEstablished s 0 c else some (queueInLoop s ioLoop (.connectEstablished c))

/-- `handleClose` of a connection, in its loop: `disableAll`, and the close
callback, which is `TcpServer::removeConnection`. -/
def handleClose (s : St) (l : Loop) (c : ConnId) : Option St :=
  let s := { s with conn := Function.update s.conn c { s.conn c with watched := false } }
  if l = 0 then removeConnectionInLoop cfg s l c else some (queueInLoop s 0 (.removeConnectionInLoop c))

/-- `connections_[name]`. -/
def getConn (s : St) (name : String) : Option ConnId × St :=
  match s.connections.find name with
  | some c => (c, s)
  | none => (none, { s with connections := s.connections.insert name none })

/-- `removeConn` up to its first callback. `shutdownAll` leaves no other trace
than the state, which `connectDestroyed` sets again. -/
def removeConn (s : St) (l : Loop) (name : String) : Option St :=
  match getConn s name with
  | (some c, s) =>
    let conn := s.conn c
    let conn := { conn with state := if conn.state = .kConnected then .kDisconnecting else conn.state }
    connectDestroyed { s with conn := Function.update s.conn c conn } l c
  | (none, s) => some s

/-! ## Runs -/

inductive Act
  /-- The acceptor has a connection. -/
  | newConnection
  /-- `poll` of a loop returns with the channels of these connections. -/
  | poll (l : Loop) (active : List ConnId)
  /-- The next channel is handled, and read to its end or not. -/
  | handleEvent (l : Loop) (close : Bool)
  | runFunctor (l : Loop)
  /-- The innermost callback returns. -/
  | ret (l : Loop)
  /-- `removeConn` and `getConn`, called in a loop's thread. -/
  | removeConn (l : Loop) (name : String)
  | getConn (l : Loop) (name : String)
  /-- `shutdown` and `disableAll` of a connection. -/
  | shutdown (c : ConnId)
  | disableAll (c : ConnId)
deriving DecidableEq

/-- In loop `l` a callback returns, and what called it goes on. -/
def ret (s : St) (l : Loop) : Option St :=
  match s.stack l with
  | [] => none
  | fr :: rest =>
    let s := { s with stack := Function.update s.stack l rest }
    match fr with
    | .established _ => some s
    | .closing c => connectDestroyed s l c
    | .destroyed c => eraseConn s (connName cfg c)

def runFunctor (s : St) (l : Loop) : Option St :=
  match s.pending l with
  | [] => none
  | f :: rest =>
    let s := { s with pending := Function.update s.pending l rest }
    match f with
    | .connectEstablished c => connectEstablished s l c
    | .removeConnectionInLoop c => removeConnectionInLoop cfg s l c

def handleEvent (s : St) (l : Loop) (close : Bool) : Option St :=
  match s.active l with
  | [] => none
  | c :: rest =>
    let s := { s with active := Function.update s.active l rest }
    if close then handleClose cfg s l c else some s

def machine : Machine St Act where
  init := {}
  enabled s
    | .newConnection => s.stack 0 = []
    | .poll l active => l ≤ cfg.numThreads ∧ s.stack l = [] ∧ s.active l = [] ∧ active.Nodup ∧
        ∀ c ∈ active, (s.conn c).watched ∧ (s.conn c).loop = l
    | .handleEvent l _ => s.stack l = [] ∧ s.active l ≠ []
    | .runFunctor l => s.stack l = [] ∧ s.pending l ≠ []
    | .ret l => s.stack l ≠ []
    | .removeConn l _ => l ≤ cfg.numThreads
    | .getConn l _ => l ≤ cfg.numThreads
    | .shutdown _ => True
    | .disableAll _ => True
  exec s
    | .newConnection => newConnection cfg s
    | .poll l active => some { s with active := Function.update s.active l active }
    | .handleEvent l close => handleEvent cfg s l close
    | .runFunctor l => runFunctor cfg s l
    | .ret l => ret cfg s l
    | .removeConn l name => removeConn s l name
    | .getConn _ name => some (getConn s name).2
    | .shutdown c =>
      let conn := s.conn c
      let conn := { conn with state := if conn.state = .kConnected then .kDisconnecting else conn.state }
      some { s with conn := Function.update s.conn c conn }
    | .disableAll c => some { s with conn := Function.update s.conn c { s.conn c with watched := false } }

instance (s : St) : ∀ a, Decidable ((machine cfg).enabled s a)
  | .newConnection => inferInstanceAs (Decidable (s.stack 0 = []))
  | .poll l active => inferInstanceAs (Decidable (l ≤ cfg.numThreads ∧ s.stack l = [] ∧ s.active l = [] ∧
      active.Nodup ∧ ∀ c ∈ active, (s.conn c).watched = true ∧ (s.conn c).loop = l))
  | .handleEvent l _ => inferInstanceAs (Decidable (s.stack l = [] ∧ s.active l ≠ []))
  | .runFunctor l => inferInstanceAs (Decidable (s.stack l = [] ∧ s.pending l ≠ []))
  | .ret l => inferInstanceAs (Decidable (s.stack l ≠ []))
  | .removeConn l _ => inferInstanceAs (Decidable (l ≤ cfg.numThreads))
  | .getConn l _ => inferInstanceAs (Decidable (l ≤ cfg.numThreads))
  | .shutdown _ => .isTrue trivial
  | .disableAll _ => .isTrue trivial

/-! ## Names -/

theorem connName_injective : Function.Injective (connName cfg) := by
  intro c d h
  have hl := congrArg String.toList h
  simp only [connName, String.toList_append, List.append_cancel_left_eq, Nat.toList_repr] at hl
  have := congrArg (Nat.ofDigitChars 10 · 0) hl
  simpa [Nat.ofDigitChars_toDigits] using this

end Cppnetool.TcpServer
