import Cppnetool.Connector
import Cppnetool.Lib.Lanes
import Cppnetool.TcpServer
/-!
# Connections, their owners and their threads

`net/TcpServer.cc`, `net/TcpClient.cc`, `net/TcpConnection.cc` and
`net/EventLoop.cc` together: one server, its pool of loops, any number of
clients, and any number of threads. Thread `i` runs loop `i`; a thread whose
loop nobody uses is a plain one. Loop `0` is the server's, and the loops from
`1` to `numThreads` are those of the pool.

A connection is there as long as somebody has a `TcpConnectionPtr` to it: the
server's table, `connection_` of a client, a functor bound to one, a local
variable of a function that has not returned, or the user. A functor bound to
a raw pointer does not count. Where the code fails an assert or uses a
connection, a server, a client or a connector that is gone, there is no next
state.

Of a message and of an output buffer only the length is kept. A functor stays
in `done` until `doPendingFunctors` returns, which destroys the batch.
-/
open Lib

namespace Cppnetool.TcpThreads

open TcpConnection (StateE WriteResult)
open TcpServer (Loop connName)
open Connector (Sock Errno)

abbrev Thread := Nat

abbrev ClientId := Nat

/-- A connection of the server, by its number, or one of a client. -/
inductive ConnId
  | server (n : Nat)
  | client (k : ClientId) (n : Nat)
deriving DecidableEq

inductive Chan
  | acceptor
  | wakeup
  | timer
  | conn (c : ConnId)
  | connector (k : ClientId) (c : Sock)
deriving DecidableEq

structure Conn where
  loop : Loop := 0
  state : StateE := .kConnecting
  /-- `channel_->events()`. -/
  events : Nat := kNoneEvent
  /-- The poller of the loop has the channel. -/
  registered : Bool := false
  /-- `outputBuffer_.readableBytes()`. -/
  outputBuffer : Nat := 0
  /-- `writeCompleteCallback_` is set. -/
  hasWriteComplete : Bool := false

structure Client where
  connector : Connector.St := {}
  /-- `retry_` and `connect_`. -/
  retry : Bool := false
  connect : Bool := false
  /-- `closeCallback_` is set. -/
  hasClose : Bool := false
  state : Bool := false
  nextConnId : Nat := 1
  connection : Option Nat := none
  /-- It has been made, and not destroyed. -/
  alive : Bool := false

inductive Functor
  | connectEstablished (n : Nat)
  | removeConnectionInLoop (n : Nat)
  | sendInLoop (c : ConnId) (size : Nat)
  | shutdownInLoop (c : ConnId)
  | shutdownAllInLoop (c : ConnId)
  | writeCompleteCallback (c : ConnId)
deriving DecidableEq

def Functor.conn : Functor → ConnId
  | connectEstablished n | removeConnectionInLoop n => .server n
  | sendInLoop c _ | shutdownInLoop c | shutdownAllInLoop c | writeCompleteCallback c => c

/-- It is bound to a `TcpConnectionPtr`, the others to a raw pointer. -/
def Functor.owns : Functor → Bool
  | connectEstablished _ => true
  | _ => false

/-- Who has called user code that has not returned. -/
inductive Frame
  /-- `connectEstablished` of a connection of the server, from the functor or
  from `newConnection`. -/
  | established (n : Nat)
  | newConnection (n : Nat)
  /-- `removeConnectionInLoop` in `closeCallback_`, and in `connectDestroyed`. -/
  | closing (n : Nat)
  | removed (n : Nat)
  /-- `removeConn` of this name in `connectDestroyed`. -/
  | removeConn (name : String) (n : Nat)
  /-- `TcpClient::newConnection` in `connectEstablished`. -/
  | clientNewConnection (k : ClientId) (n : Nat)
  /-- `TcpClient::removeConnection` of `n` in `closeCallback_`, and in
  `connectDestroyed` of `connection_`, which was `c`. -/
  | clientClosing (k : ClientId) (n : Nat)
  | clientRemoved (k : ClientId) (n c : Nat)
  /-- `~TcpClient` in `connectDestroyed`. -/
  | clientDestroyed (k : ClientId) (c : Nat)
deriving DecidableEq

/-- The function that waits has a `TcpConnectionPtr` of its own. -/
def Frame.pointer : Frame → Option ConnId
  | newConnection n | removeConn _ n => some (.server n)
  | clientNewConnection k n => some (.client k n)
  | _ => none

/-- What a user may call in any thread. -/
inductive Call
  | send (size : Nat)
  | shutdown
  | shutdownAll
deriving DecidableEq

def Call.functor (c : ConnId) : Call → Functor
  | send size => .sendInLoop c size
  | shutdown => .shutdownInLoop c
  | shutdownAll => .shutdownAllInLoop c

structure St where
  conn : ConnId → Conn := fun _ => {}
  /-- The `TcpServer` has not been destroyed. -/
  alive : Bool := true
  connections : Map String (Option Nat) := ∅
  nextConnId : Nat := 1
  /-- `threadPool_->next_`. -/
  next : Nat := 0
  client : ClientId → Client := fun _ => {}
  clients : Nat := 0
  /-- The user's pointers. -/
  held : List ConnId := []
  /-- A thread inside `send` or `shutdown`, before `queueInLoop`. -/
  calls : Thread → Option (ConnId × Call) := fun _ => none
  /-- `pendingFunctors_` of each loop, and of its batch what is still to run
  and what has run. -/
  pending : List (Loop × Functor) := []
  todo : List (Loop × Functor) := []
  done : List (Loop × Functor) := []
  callingPendingFunctors : Loop → Bool := fun _ => false
  /-- `activeChannels_` from the next one on. -/
  active : Loop → List Chan := fun _ => []
  stack : List (Thread × Frame) := []
  /-- The calls of `assertInLoopThread`: the loop, and the thread that called. -/
  asserted : List (Loop × Thread) := []

/-- What the server and the clients are set up with. -/
structure Config extends TcpServer.Config where
  /-- The loop that each client is made with. -/
  clientLoop : ClientId → Loop := fun _ => 0

variable (cfg : Config)

/-- The pointer in the server's table, or in the client. -/
def Listed (s : St) : ConnId → Prop
  | .server n => s.connections.find (connName cfg.toConfig n) = some (some n)
  | .client k n => (s.client k).connection = some n

instance (s : St) : ∀ c, Decidable (Listed cfg s c)
  | .server n => inferInstanceAs (Decidable (s.connections.find (connName cfg.toConfig n) = some (some n)))
  | .client k n => inferInstanceAs (Decidable ((s.client k).connection = some n))

/-- Somebody has a `TcpConnectionPtr` to the connection: it has not been destroyed. -/
def Owned (s : St) (c : ConnId) : Prop :=
  Listed cfg s c ∨ c ∈ s.held ∨ (∃ p ∈ s.pending ++ s.todo ++ s.done, p.2.owns = true ∧ p.2.conn = c) ∨
    ∃ p ∈ s.stack, p.2.pointer = some c

instance (s : St) (c : ConnId) : Decidable (Owned cfg s c) := inferInstanceAs (Decidable (_ ∨ _ ∨ _ ∨ _))

/-! ## Loops and channels -/

def assertInLoopThread (s : St) (l : Loop) (t : Thread) : St := { s with asserted := s.asserted ++ [(l, t)] }

def queueInLoop (s : St) (l : Loop) (f : Functor) : St := { s with pending := s.pending ++ [(l, f)] }

/-- User code is called in thread `t`. -/
def callBack (s : St) (t : Thread) (fr : Frame) : St := { s with stack := (t, fr) :: s.stack }

def returned (s : St) (t : Thread) : St := { s with stack := Lanes.pop s.stack t }

def setConn (s : St) (c : ConnId) (conn : Conn) : St := { s with conn := Function.update s.conn c conn }

def setClient (s : St) (k : ClientId) (client : Client) : St :=
  { s with client := Function.update s.client k client }

/-- `channel_->enableReading()` and its like, with `EventLoop::updateChannel`.
A channel that was removed comes back, where the assert of `updateChannel`
ends the program: there are more runs here than the code has. -/
def setInterest (s : St) (t : Thread) (c : ConnId) (i : Interest) : St :=
  let conn := s.conn c
  setConn (assertInLoopThread s conn.loop t) c { conn with events := i.apply conn.events, registered := true }

/-- `EventLoop::removeChannel`, with the asserts of the poller. -/
def removeChannel (s : St) (t : Thread) (c : ConnId) : Option St := do
  let conn := s.conn c
  assert (conn.registered = true ∧ conn.events = kNoneEvent)
  return setConn (assertInLoopThread s conn.loop t) c { conn with registered := false }

/-! ## A connection -/

def Conn.isWriting (c : Conn) : Bool := c.events &&& kWriteEvent ≠ 0

def connectEstablished (s : St) (t : Thread) (c : ConnId) : Option St := do
  let conn := s.conn c
  assert (conn.state = .kConnecting)
  let s := setConn (assertInLoopThread s conn.loop t) c { conn with state := .kConnected }
  return setInterest s t c .enableReading

/-- `connectDestroyed` up to its callback. -/
def connectDestroyed (s : St) (t : Thread) (c : ConnId) : Option St := do
  assert (Owned cfg s c)
  let conn := s.conn c
  assert (conn.state = .kConnected ∨ conn.state = .kDisconnecting)
  let s := setConn (assertInLoopThread s conn.loop t) c { conn with state := .kDisconnected }
  return setInterest s t c .disableAll

/-- The rest of it. -/
def destroyed (s : St) (t : Thread) (c : ConnId) : Option St := do
  assert (Owned cfg s c)
  removeChannel s t c

/-- The half-close leaves no trace here. -/
def shutdownInLoop (s : St) (t : Thread) (c : ConnId) : St := assertInLoopThread s (s.conn c).loop t

def shutdownAllInLoop (s : St) (t : Thread) (c : ConnId) : St := assertInLoopThread s (s.conn c).loop t

def writeComplete (s : St) (c : ConnId) : St :=
  if (s.conn c).hasWriteComplete then queueInLoop s (s.conn c).loop (.writeCompleteCallback c) else s

def sendInLoop (s : St) (t : Thread) (c : ConnId) (size : Nat) (w : WriteResult) : St :=
  let s := assertInLoopThread s (s.conn c).loop t
  let direct := (s.conn c).isWriting = false ∧ (s.conn c).outputBuffer = 0
  let nwrote := if direct then (w.count size).toNat else 0
  let s := if direct ∧ size ≤ w.count size then writeComplete s c else s
  if nwrote < size then
    let s := setConn s c { s.conn c with outputBuffer := (s.conn c).outputBuffer + (size - nwrote) }
    if (s.conn c).isWriting then s else setInterest s t c .enableWriting
  else s

/-- What `handleWrite` does when the last byte is out. -/
def drained (s : St) (t : Thread) (c : ConnId) : St :=
  let s := writeComplete (setInterest s t c .disableWriting) c
  if (s.conn c).state = .kDisconnecting then shutdownInLoop s t c else s

def handleWrite (s : St) (t : Thread) (c : ConnId) (w : WriteResult) : St :=
  let s := assertInLoopThread s (s.conn c).loop t
  if (s.conn c).isWriting then
    let n := (w.count (s.conn c).outputBuffer).toNat
    if 0 < n then
      let s := setConn s c { s.conn c with outputBuffer := (s.conn c).outputBuffer - n }
      if (s.conn c).outputBuffer = 0 then drained s t c else s
    else s
  else s

def run (s : St) (t : Thread) (w : WriteResult) (c : ConnId) : Call → St
  | .send size => sendInLoop s t c size w
  | .shutdown => shutdownInLoop s t c
  | .shutdownAll => shutdownAllInLoop s t c

/-- `shutdown` and `shutdownAll` set the state before anything else. -/
def Call.leaves : Call → StateE
  | send _ => .kConnected
  | shutdown | shutdownAll => .kDisconnecting

/-- `send`, `shutdown` and `shutdownAll`, in another thread up to `queueInLoop`. -/
def call (s : St) (t : Thread) (c : ConnId) (f : Call) (w : WriteResult) : St :=
  let conn := s.conn c
  if conn.state = .kConnected then
    let s := setConn s c { conn with state := f.leaves }
    if t = conn.loop then run s t w c f else { s with calls := Function.update s.calls t (some (c, f)) }
  else s

def pushBack (s : St) (t : Thread) : Option St := do
  let (c, f) ← s.calls t
  return { queueInLoop s (s.conn c).loop (f.functor c) with calls := Function.update s.calls t none }

/-- `shutdownAll`, called by the library. -/
def shutdownAll (s : St) (t : Thread) (c : ConnId) : St :=
  let conn := s.conn c
  if conn.state = .kConnected then
    let s := setConn s c { conn with state := .kDisconnecting }
    if t = conn.loop then shutdownAllInLoop s t c else queueInLoop s conn.loop (.shutdownAllInLoop c)
  else s

/-! ## The server -/

def getNextLoop (s : St) : Loop × St :=
  if cfg.numThreads = 0 then (0, s)
  else (s.next + 1, { s with next := if cfg.numThreads ≤ s.next + 1 then 0 else s.next + 1 })

/-- `TcpServer::newConnection`, in thread `0`. -/
def newConnection (s : St) : Option St :=
  let n := s.nextConnId
  let (ioLoop, s) := getNextLoop cfg (assertInLoopThread (assertInLoopThread s 0 0) 0 0)
  let s := setConn { s with nextConnId := n + 1, connections := s.connections.insert (connName cfg.toConfig n) (some n) }
    (.server n) { loop := ioLoop }
  if ioLoop = 0 then do
    let s ← connectEstablished s 0 (.server n)
    return callBack s 0 (.newConnection n)
  else some (queueInLoop s ioLoop (.connectEstablished n))

/-- `removeConnectionInLoop` from its assert on. -/
def removeClosed (s : St) (t : Thread) (n : Nat) : Option St := do
  assert (s.alive = true)
  let s ← connectDestroyed cfg (assertInLoopThread s 0 t) t (.server n)
  return callBack s t (.removed n)

def removeConnectionInLoop (s : St) (t : Thread) (n : Nat) : Option St := do
  assert (s.alive = true)
  if cfg.hasClose then return callBack s t (.closing n) else removeClosed cfg s t n

def removeConnection (s : St) (t : Thread) (n : Nat) : Option St := do
  assert (s.alive = true)
  if t = 0 then removeConnectionInLoop cfg s t n else return queueInLoop s 0 (.removeConnectionInLoop n)

def eraseConn (s : St) (name : String) : Option St := do
  assert (s.alive = true ∧ s.connections.find name ≠ none)
  return { s with connections := s.connections.erase name }

/-- `connections_[name]`. -/
def lookup (s : St) (name : String) : Option Nat × St :=
  match s.connections.find name with
  | some n => (n, s)
  | none => (none, { s with connections := s.connections.insert name none })

def removeConn (s : St) (t : Thread) (name : String) : Option St :=
  match lookup s name with
  | (some n, s) => do
    let s := shutdownAll (assertInLoopThread s 0 t) t (.server n)
    let s ← connectDestroyed cfg s t (.server n)
    return callBack s t (.removeConn name n)
  | (none, s) => some s

/-- `TcpServer::getConn`, whose result the user keeps. -/
def getConn (s : St) (name : String) : St :=
  match lookup s name with
  | (some n, s) => { s with held := .server n :: s.held }
  | (none, s) => s

/-- `~TcpServer` gives up the table. The acceptor goes too, and its channel stays
in the poller; the threads of the pool go on. -/
def deleteServer (s : St) : St := { s with alive := false, connections := ∅ }

/-! ## The clients -/

/-- `TcpClient::newConnection`. -/
def clientNewConnection (s : St) (t : Thread) (k : ClientId) : Option St := do
  let client := s.client k
  let n := client.nextConnId
  let s := setClient s k { client with state := true, nextConnId := n + 1, connection := some n }
  let s := setConn (assertInLoopThread s (cfg.clientLoop k) t) (.client k n) { loop := cfg.clientLoop k }
  let s ← connectEstablished s t (.client k n)
  return callBack s t (.clientNewConnection k n)

/-- A step of the connector. `handleWrite` may call `newConnection`. -/
def runConnector (s : St) (t : Thread) (k : ClientId) (a : Connector.Act) : Option St := do
  let connector ← Connector.exec (s.client k).connector a
  let s := setClient s k { s.client k with connector }
  match a, connector.calling with
  | .handleEvent .., some _ => clientNewConnection cfg s t k
  | _, _ => return s

/-- `TcpClient::removeConnection` from its assert on; it destroys `connection_`,
whichever that is. -/
def clientRemoveClosed (s : St) (t : Thread) (k : ClientId) (n : Nat) : Option St := do
  let client := s.client k
  assert (client.alive = true ∧ Owned cfg s (.client k n))
  let c ← client.connection
  let s ← connectDestroyed cfg (assertInLoopThread s (cfg.clientLoop k) t) t (.client k c)
  return callBack s t (.clientRemoved k n c)

def clientRemoveConnection (s : St) (t : Thread) (k : ClientId) (n : Nat) : Option St := do
  assert ((s.client k).alive = true)
  if (s.client k).hasClose then return callBack s t (.clientClosing k n)
  else clientRemoveClosed cfg s t k n

/-- The last part of `removeConnection`. -/
def clientReset (s : St) (t : Thread) (k : ClientId) (n : Nat) (savedErrno : Errno) : Option St := do
  let client := s.client k
  assert (client.alive = true ∧ client.connection = some n)
  let s := setClient s k { client with state := false, connection := none }
  if client.retry ∧ client.connect then runConnector cfg s t k (.restart savedErrno) else return s

/-- The members of a `TcpClient` are destroyed. -/
def destroyMembers (s : St) (k : ClientId) : Option St := do
  let client := s.client k
  let connector ← Connector.exec client.connector .destroy
  return setClient s k { client with connection := none, connector, alive := false }

/-- `~TcpClient` up to its callback. -/
def deleteClient (s : St) (t : Thread) (k : ClientId) : Option St := do
  let client := s.client k
  if client.state then
    let c ← client.connection
    let s ← connectDestroyed cfg (shutdownAll s t (.client k c)) t (.client k c)
    return callBack s t (.clientDestroyed k c)
  else destroyMembers s k

/-- `getConn` and `connection`, whose result the user keeps. -/
def getClientConn (s : St) (k : ClientId) : St :=
  match (s.client k).connection with
  | some n => { s with held := .client k n :: s.held }
  | none => s

/-! ## Runs -/

/-- What `handleEvent` finds to read. -/
inductive Input
  | nothing
  | message
  | close
deriving DecidableEq

inductive Act
  /-- `poll` of a loop returns. -/
  | poll (l : Loop) (active : List Chan)
  /-- The next channel is handled: the acceptor's, the wakeup channel's, that
  of the timers, one of a connection, or one of a connector. -/
  | acceptor (accepted : Bool)
  | wakeup (l : Loop)
  | timer (l : Loop)
  | handleEvent (l : Loop) (write : Option WriteResult) (read : Input)
  | connectorEvent (l : Loop) (err out : Bool) (soError : Int) (selfConnect : Bool)
  /-- The loop of `doPendingFunctors`, and its end. -/
  | runFunctor (l : Loop) (w : WriteResult)
  | endFunctors (l : Loop)
  /-- The innermost callback returns. -/
  | ret (t : Thread) (savedErrno : Errno)
  /-- A step of a client's loop that is its connector's. -/
  | connector (k : ClientId) (a : Connector.Act)
  /-- Calls of the user. -/
  | call (t : Thread) (c : ConnId) (f : Call) (w : WriteResult)
  | pushBack (t : Thread)
  | setInterest (t : Thread) (c : ConnId) (i : Interest)
  | setWriteCompleteCallback (c : ConnId) (on : Bool)
  | removeConn (t : Thread) (name : String)
  | getConn (name : String)
  | deleteServer (t : Thread)
  | getClientConn (k : ClientId)
  | drop (c : ConnId)
  | newClient
  /-- `connect` and `stop`, in the loop's thread or in another. -/
  | connect (k : ClientId) (a : Connector.Act)
  | disconnect (t : Thread) (k : ClientId) (w : WriteResult)
  | enableRetry (k : ClientId)
  | setCloseCallback (k : ClientId) (on : Bool)
  | deleteClient (t : Thread) (k : ClientId)

/-- The functor that a loop runs next. -/
def nextFunctor (s : St) (l : Loop) : Option Functor := Lanes.front s.todo l

def runFunctor (s : St) (l : Loop) (w : WriteResult) : Option St := do
  let f ← nextFunctor s l
  let s := { s with todo := Lanes.pop s.todo l, done := s.done ++ [(l, f)] }
  assert (Owned cfg s f.conn)
  match f with
  | .connectEstablished n =>
    let s ← connectEstablished s l (.server n)
    return callBack s l (.established n)
  | .removeConnectionInLoop n => removeConnectionInLoop cfg s l n
  | .sendInLoop c size => return sendInLoop s l c size w
  | .shutdownInLoop c => return shutdownInLoop s l c
  | .shutdownAllInLoop c => return shutdownAllInLoop s l c
  | .writeCompleteCallback _ => return s

/-- The functors of the loop become its batch. -/
def doPendingFunctors (s : St) (l : Loop) : St :=
  { s with
    callingPendingFunctors := Function.update s.callingPendingFunctors l true
    todo := s.todo ++ Lanes.lane s.pending l
    pending := Lanes.others s.pending l }

def endFunctors (s : St) (l : Loop) : St :=
  { s with
    callingPendingFunctors := Function.update s.callingPendingFunctors l false
    done := Lanes.others s.done l }

/-- `closeCallback_` of a connection. -/
def handleClose (s : St) (t : Thread) (c : ConnId) : Option St :=
  let s := setInterest (assertInLoopThread s (s.conn c).loop t) t c .disableAll
  match c with
  | .server n => removeConnection cfg s t n
  | .client k n => clientRemoveConnection cfg s t k n

/-- `Channel::handleEvent` of a connection. -/
def handleEvent (s : St) (l : Loop) (c : ConnId) (write : Option WriteResult) (read : Input) : Option St := do
  assert (Owned cfg s c)
  let s := write.elim s (handleWrite s l c)
  match read with
  | .close => handleClose cfg s l c
  | .message | .nothing => return s

/-- In thread `t` a callback returns, and what called it goes on. A pointer that
it has is given up when it returns. -/
def ret (s : St) (t : Thread) (savedErrno : Errno) : Option St := do
  let fr ← Lanes.front s.stack t
  match fr with
  | .established _ | .newConnection _ => return returned s t
  | .closing n => removeClosed cfg (returned s t) t n
  | .removed n =>
    let s ← destroyed cfg s t (.server n)
    eraseConn (returned s t) (connName cfg.toConfig n)
  | .removeConn name n =>
    let s ← destroyed cfg s t (.server n)
    eraseConn (returned s t) name
  | .clientNewConnection k _ => runConnector cfg (returned s t) t k .callbackReturns
  | .clientClosing k n => clientRemoveClosed cfg (returned s t) t k n
  | .clientRemoved k n c =>
    let s ← destroyed cfg s t (.client k c)
    clientReset cfg (returned s t) t k n savedErrno
  | .clientDestroyed k c =>
    let s ← destroyed cfg s t (.client k c)
    destroyMembers (returned s t) k

/-- `poll` of the loop may return the channel. -/
def Watched (s : St) (l : Loop) : Chan → Prop
  | .acceptor => l = 0
  | .wakeup | .timer => True
  | .conn c => (s.conn c).registered = true ∧ (s.conn c).events ≠ kNoneEvent ∧ (s.conn c).loop = l
  | .connector k c => c ∈ (s.client k).connector.registered ∧ cfg.clientLoop k = l

instance (s : St) (l : Loop) : ∀ ch, Decidable (Watched cfg s l ch)
  | .acceptor => inferInstanceAs (Decidable (l = 0))
  | .wakeup | .timer => .isTrue trivial
  | .conn c => inferInstanceAs (Decidable ((s.conn c).registered = true ∧ (s.conn c).events ≠ kNoneEvent ∧
      (s.conn c).loop = l))
  | .connector k c => inferInstanceAs (Decidable (c ∈ (s.client k).connector.registered ∧ cfg.clientLoop k = l))

/-- The thread is inside no call of `send` or `shutdown`. -/
def Free (s : St) (t : Thread) : Prop := s.calls t = none

/-- And in none of the library's callbacks. -/
def Returned (s : St) (t : Thread) : Prop := s.calls t = none ∧ Lanes.front s.stack t = none

/-- The loop is between two channels. -/
def Idle (s : St) (l : Loop) : Prop := Returned s l ∧ s.callingPendingFunctors l = false

instance (s : St) (t : Thread) : Decidable (Free s t) := inferInstanceAs (Decidable (_ = none))

instance (s : St) (t : Thread) : Decidable (Returned s t) := inferInstanceAs (Decidable (_ ∧ _))

instance (s : St) (l : Loop) : Decidable (Idle s l) := inferInstanceAs (Decidable (_ ∧ _))

/-- The channel that `loop` handles next. -/
def nextChannel (s : St) (l : Loop) : Option Chan := (s.active l).head?

def nextConn (s : St) (l : Loop) : Option ConnId :=
  match nextChannel s l with
  | some (.conn c) => some c
  | _ => none

def nextConnector (s : St) (l : Loop) : Option (ClientId × Sock) :=
  match nextChannel s l with
  | some (.connector k c) => some (k, c)
  | _ => none

def handled (s : St) (l : Loop) : St := { s with active := Function.update s.active l (s.active l).tail }

/-- What `connect_` becomes when the client calls its connector so. -/
def connects : Connector.Act → Option Bool
  | .start _ | .startElsewhere => some true
  | .stop | .stopElsewhere => some false
  | _ => none

/-- The steps of a loop that are a connector's, events apart. -/
def ofLoop : Connector.Act → Bool
  | .runFunctor _ | .expire .. | .runTimer _ => true
  | _ => false

/-- `TcpClient::disconnect`. -/
def disconnect (s : St) (t : Thread) (k : ClientId) (w : WriteResult) : St :=
  let s := setClient s k { s.client k with connect := false }
  match (s.client k).connection with
  | some n => call s t (.client k n) .shutdown w
  | none => s

/-- `poll` may give the channels in any order, and the wakeup channel when
nothing was written to it. The code goes by the slots, where the channels of
the timers and of the wakeup come first, and by the counter: it has fewer runs. -/
def enabled (s : St) : Act → Prop
  | .poll l active => Idle s l ∧ s.active l = [] ∧ active.Nodup ∧ ∀ ch ∈ active, Watched cfg s l ch
  | .acceptor _ => Idle s 0 ∧ nextChannel s 0 = some .acceptor
  | .wakeup l => Idle s l ∧ nextChannel s l = some .wakeup
  | .timer l => Idle s l ∧ nextChannel s l = some .timer
  | .handleEvent l _ _ => Idle s l ∧ nextConn s l ≠ none
  | .connectorEvent l .. => Idle s l ∧ ∃ p ∈ nextConnector s l, Connector.Polling (s.client p.1).connector
  | .runFunctor l _ => Returned s l ∧ nextFunctor s l ≠ none
  | .endFunctors l => Returned s l ∧ s.callingPendingFunctors l = true ∧ nextFunctor s l = none
  | .ret t _ => Free s t ∧ Lanes.front s.stack t ≠ none
  | .connector k a => Connector.enabled (s.client k).connector a ∧ ofLoop a = true ∧ Idle s (cfg.clientLoop k)
  | .call t c _ _ => Free s t ∧ Owned cfg s c
  | .pushBack t => ∃ p ∈ s.calls t, Owned cfg s p.1
  | .setInterest t c _ => Free s t ∧ Owned cfg s c
  | .setWriteCompleteCallback c _ => Owned cfg s c
  | .removeConn t _ => Free s t ∧ s.alive = true
  | .getConn _ => s.alive = true
  | .deleteServer t => Free s t ∧ s.alive = true
  | .getClientConn k => (s.client k).alive = true
  | .drop c => c ∈ s.held
  | .newClient => True
  | .connect k a => (s.client k).alive = true ∧ Connector.enabled (s.client k).connector a ∧ connects a ≠ none
  | .disconnect t k _ => Free s t ∧ (s.client k).alive = true
  | .enableRetry k => (s.client k).alive = true
  | .setCloseCallback k _ => (s.client k).alive = true
  | .deleteClient t k => Free s t ∧ (s.client k).alive = true

def exec (s : St) : Act → Option St
  | .poll l active => some { s with active := Function.update s.active l active }
  | .acceptor accepted => do
    assert (s.alive = true)
    if accepted then newConnection cfg (handled s 0) else return handled s 0
  | .wakeup l => some (doPendingFunctors (handled s l) l)
  | .timer l => some (handled s l)
  | .handleEvent l write read => do
    let c ← nextConn s l
    handleEvent cfg (handled s l) l c write read
  | .connectorEvent l err out soError selfConnect => do
    let (k, c) ← nextConnector s l
    runConnector cfg (handled s l) l k (.handleEvent c err out soError selfConnect)
  | .runFunctor l w => runFunctor cfg s l w
  | .endFunctors l => some (endFunctors s l)
  | .ret t savedErrno => ret cfg s t savedErrno
  | .connector k a => runConnector cfg s (cfg.clientLoop k) k a
  | .call t c f w => some (call s t c f w)
  | .pushBack t => pushBack s t
  | .setInterest t c i => some (setInterest s t c i)
  | .setWriteCompleteCallback c on => some (setConn s c { s.conn c with hasWriteComplete := on })
  | .removeConn t name => removeConn cfg s t name
  | .getConn name => some (getConn s name)
  | .deleteServer _ => some (deleteServer s)
  | .getClientConn k => some (getClientConn s k)
  | .drop c => some { s with held := s.held.erase c }
  | .newClient =>
    some { setClient s s.clients { s.client s.clients with alive := true } with clients := s.clients + 1 }
  | .connect k a => do
    let connect ← connects a
    runConnector cfg (setClient s k { s.client k with connect }) (cfg.clientLoop k) k a
  | .disconnect t k w => some (disconnect s t k w)
  | .enableRetry k => some (setClient s k { s.client k with retry := true })
  | .setCloseCallback k hasClose => some (setClient s k { s.client k with hasClose })
  | .deleteClient t k => deleteClient cfg s t k

instance (s : St) : ∀ a, Decidable (enabled cfg s a)
  | .poll l active => inferInstanceAs (Decidable (Idle s l ∧ s.active l = [] ∧ active.Nodup ∧
      ∀ ch ∈ active, Watched cfg s l ch))
  | .acceptor _ => inferInstanceAs (Decidable (Idle s 0 ∧ nextChannel s 0 = some .acceptor))
  | .wakeup l => inferInstanceAs (Decidable (Idle s l ∧ nextChannel s l = some .wakeup))
  | .timer l => inferInstanceAs (Decidable (Idle s l ∧ nextChannel s l = some .timer))
  | .handleEvent l _ _ => inferInstanceAs (Decidable (Idle s l ∧ nextConn s l ≠ none))
  | .connectorEvent l .. => inferInstanceAs (Decidable (Idle s l ∧ ∃ p ∈ nextConnector s l,
      Connector.Polling (s.client p.1).connector))
  | .runFunctor l _ => inferInstanceAs (Decidable (Returned s l ∧ nextFunctor s l ≠ none))
  | .endFunctors l => inferInstanceAs (Decidable (Returned s l ∧ s.callingPendingFunctors l = true ∧
      nextFunctor s l = none))
  | .ret t _ => inferInstanceAs (Decidable (Free s t ∧ Lanes.front s.stack t ≠ none))
  | .connector k a => inferInstanceAs (Decidable (Connector.enabled (s.client k).connector a ∧ ofLoop a = true ∧
      Idle s (cfg.clientLoop k)))
  | .call t c _ _ => inferInstanceAs (Decidable (Free s t ∧ Owned cfg s c))
  | .pushBack t => inferInstanceAs (Decidable (∃ p ∈ s.calls t, Owned cfg s p.1))
  | .setInterest t c _ => inferInstanceAs (Decidable (Free s t ∧ Owned cfg s c))
  | .setWriteCompleteCallback c _ => inferInstanceAs (Decidable (Owned cfg s c))
  | .removeConn t _ | .deleteServer t => inferInstanceAs (Decidable (Free s t ∧ s.alive = true))
  | .getConn _ => inferInstanceAs (Decidable (s.alive = true))
  | .newClient => .isTrue trivial
  | .getClientConn k | .enableRetry k | .setCloseCallback k _ =>
    inferInstanceAs (Decidable ((s.client k).alive = true))
  | .drop c => inferInstanceAs (Decidable (c ∈ s.held))
  | .connect k a => inferInstanceAs (Decidable ((s.client k).alive = true ∧
      Connector.enabled (s.client k).connector a ∧ connects a ≠ none))
  | .disconnect t k _ | .deleteClient t k => inferInstanceAs (Decidable (Free s t ∧ (s.client k).alive = true))

def machine : Machine St Act where
  init := {}
  enabled := enabled cfg
  exec := exec cfg

instance (s : St) (a : Act) : Decidable ((machine cfg).enabled s a) := inferInstanceAs (Decidable (enabled cfg s a))

/-- A server without a `closeCallback_`. -/
def plain (numThreads : Nat) : Config := { name := "s", numThreads, hasClose := false }

end Cppnetool.TcpThreads
