import Mathlib.Logic.Function.Basic
import Cppnetool.Connector
import Cppnetool.TcpConnection
/-!
# `TcpClient`

`net/TcpClient.cc` over its `Connector`, in the thread of their loop. A client
calls code of its user in three places: `newConnection` in `connectEstablished`,
`removeConnection` by `closeCallback_`, and again in `connectDestroyed`. The
user may then call the client, as it may between any two steps of the loop.

Connections are named by their number. The user keeps the objects it was
given; `nextConnId_` does not wrap.
-/
open Lib

namespace Cppnetool.TcpClient

open Connector (Sock Errno)
open TcpConnection (StateE)

abbrev ConnId := Nat

structure Conn where
  sockfd : Sock := 0
  state : StateE := .kConnecting
deriving DecidableEq

/-- What `removeConnection` of a connection is waiting for. -/
inductive Frame
  /-- `closeCallback_`. -/
  | closing (c : ConnId)
  /-- `connectionCallback_`, called by `connectDestroyed`. -/
  | destroyed (c : ConnId)
deriving DecidableEq

structure St where
  connector : Connector.St := {}
  /-- `retry_` and `connect_`. -/
  retry : Bool := false
  connect : Bool := false
  /-- `closeCallback_` is set. -/
  hasClose : Bool := false
  state : Bool := false
  nextConnId : ConnId := 1
  connection : Option ConnId := none
  conn : ConnId → Conn := fun _ => {}
  frame : Option Frame := none

/-- `connectEstablished` up to its callback. -/
def connectEstablished (s : St) (c : ConnId) : Option St := do
  assert ((s.conn c).state = .kConnecting)
  return { s with conn := Function.update s.conn c { s.conn c with state := .kConnected } }

/-- `connectDestroyed` up to its callback. -/
def connectDestroyed (s : St) (c : ConnId) : Option St := do
  assert ((s.conn c).state = .kConnected ∨ (s.conn c).state = .kDisconnecting)
  return { s with conn := Function.update s.conn c { s.conn c with state := .kDisconnected } }

def shutdown (s : St) (c : ConnId) : St :=
  if (s.conn c).state = .kConnected then
    { s with conn := Function.update s.conn c { s.conn c with state := .kDisconnecting } }
  else s

/-- `newConnection`, which returns when the callback of `connectEstablished` does. -/
def newConnection (s : St) (sockfd : Sock) : Option St :=
  let c := s.nextConnId
  connectEstablished
    { s with
      state := true
      nextConnId := c + 1
      conn := Function.update s.conn c { sockfd }
      connection := some c } c

def disconnect (s : St) : St :=
  let s := { s with connect := false }
  match s.connection with
  | some c => shutdown s c
  | none => s

/-- The second part of `removeConnection`: it destroys `connection_`, whichever that is. -/
def destroyConnection (s : St) (conn : ConnId) : Option St := do
  let c ← s.connection
  let s ← connectDestroyed s c
  return { s with frame := some (.destroyed conn) }

/-- `removeConnection` up to its first callback. -/
def removeConnection (s : St) (conn : ConnId) : Option St :=
  if s.hasClose then some { s with frame := some (.closing conn) } else destroyConnection s conn

/-- The last part of `removeConnection`. -/
def connectionDestroyed (s : St) (conn : ConnId) (savedErrno : Errno) : Option St := do
  assert (s.connection = some conn)
  let s := { s with state := false, connection := none }
  return if s.retry ∧ s.connect then { s with connector := Connector.restart s.connector savedErrno } else s

/-! ## Runs -/

inductive Act
  | connect (savedErrno : Errno)
  | disconnect
  | stop
  | enableRetry
  | setCloseCallback (set : Bool)
  /-- A call of the connector, or a step of the loop that is the connector's. -/
  | connector (a : Connector.Act)
  /-- A connection is read to its end. -/
  | handleClose (c : ConnId)
  /-- The running callback returns. -/
  | ret (savedErrno : Errno)
deriving DecidableEq

/-- A step of the loop, which does not return to it inside a callback. -/
def ofLoop : Connector.Act → Bool
  | .runFunctor _ | .expire .. | .runTimer _ | .handleEvent .. => true
  | _ => false

/-- A step of the connector. `handleWrite` may call `newConnection`. -/
def runConnector (s : St) (a : Connector.Act) : Option St := do
  let connector ← Connector.exec s.connector a
  let s := { s with connector }
  match a, connector.calling with
  | .handleEvent .., some sockfd => newConnection s sockfd
  | _, _ => return s

def ret (s : St) (savedErrno : Errno) : Option St :=
  if s.connector.calling ≠ none then runConnector s .callbackReturns
  else
    match s.frame with
    | some (.closing c) => destroyConnection { s with frame := none } c
    | some (.destroyed c) => connectionDestroyed { s with frame := none } c savedErrno
    | none => none

/-- `connectEstablished` has run for the connection, and `connectDestroyed` has not. -/
def Established (s : St) (c : ConnId) : Prop :=
  (s.conn c).state = .kConnected ∨ (s.conn c).state = .kDisconnecting

instance (s : St) (c : ConnId) : Decidable (Established s c) := inferInstanceAs (Decidable (_ ∨ _))

def enabled (s : St) : Act → Prop
  | .connect savedErrno => Connector.enabled s.connector (.start savedErrno)
  | .stop => Connector.enabled s.connector .stop
  | .disconnect | .enableRetry | .setCloseCallback _ => True
  | .connector a => Connector.enabled s.connector a ∧ (ofLoop a → s.frame = none) ∧
      a ≠ .callbackReturns ∧ a ≠ .destroy
  | .handleClose c => Connector.Polling s.connector ∧ s.frame = none ∧ Established s c
  | .ret _ => s.connector.calling ≠ none ∨ s.frame ≠ none

instance (s : St) : ∀ a, Decidable (enabled s a)
  | .connect savedErrno => inferInstanceAs (Decidable (Connector.enabled s.connector (.start savedErrno)))
  | .stop => inferInstanceAs (Decidable (Connector.enabled s.connector .stop))
  | .disconnect | .enableRetry | .setCloseCallback _ => .isTrue trivial
  | .connector a => inferInstanceAs (Decidable (Connector.enabled s.connector a ∧
      (ofLoop a → s.frame = none) ∧ a ≠ .callbackReturns ∧ a ≠ .destroy))
  | .handleClose c => inferInstanceAs (Decidable (Connector.Polling s.connector ∧ s.frame = none ∧ Established s c))
  | .ret _ => inferInstanceAs (Decidable (s.connector.calling ≠ none ∨ s.frame ≠ none))

def exec (s : St) : Act → Option St
  | .connect savedErrno => runConnector { s with connect := true } (.start savedErrno)
  | .disconnect => some (disconnect s)
  | .stop => runConnector { s with connect := false } .stop
  | .enableRetry => some { s with retry := true }
  | .setCloseCallback set => some { s with hasClose := set }
  | .connector a => runConnector s a
  | .handleClose c => removeConnection s c
  | .ret savedErrno => ret s savedErrno

def machine : Machine St Act where
  init := {}
  enabled := enabled
  exec := exec

instance (s : St) (a : Act) : Decidable (machine.enabled s a) := inferInstanceAs (Decidable (enabled s a))

end Cppnetool.TcpClient
