import Cppnetool.Buffer
import Cppnetool.Lib.Map
import Cppnetool.TcpClient
import Cppnetool.TcpServer
/-!
# The proxy

`proxy/Proxy.cc` and `proxy/Session.cc`, over one `TcpServer` and the
`TcpClient` of each session, all of them in one loop. A step is one event of
that loop, with all the callbacks that it comes to; the sweep of the sessions
is a step for each session that it erases. `serverManager_->getTcpClient()`
is never `NULL`, so `pairs_` stays empty.

A `Session`, its `TcpClient` and its `serverPair_` have the number of the
connection that they are made for: one of each is made for every connection
that is accepted. They go together, in `~Session`. A timestamp is the integer
that it holds, and the clock stands still within a step.
-/
open Lib

namespace Cppnetool.Proxy

open TcpConnection (StateE)
open TcpServer (ConnId connName)
open Connector (Sock Errno Timer)

abbrev SessionId := ConnId

/-- What `pair_` points to. -/
inductive Pair
  | tcpClient (k : SessionId)
  | serverPair (k : SessionId)
deriving DecidableEq

/-- What the proxy uses of a `TcpConnection` besides its state. -/
structure Link where
  pair : Option Pair := none
  inputBuffer : Buffer := .new
  /-- All that `readFd` has read, and all that `send` has accepted. -/
  received : List Byte := []
  accepted : List Byte := []

structure Session where
  tcpClient : TcpClient.St := {}
  /-- `tcpClient_->pair_`. -/
  pair : Option Pair := none
  /-- The connections that `tcpClient_` has made. -/
  upstream : TcpClient.ConnId → Link := fun _ => {}
  clientTime : Int
  serverTime : Int
  connecting : Bool := false

/-- A call of `onTcpServerClose_`: the connection that is closed, and the
session whose handler it is. -/
structure Notice where
  conn : ConnId
  session : SessionId
  /-- The session has not been destroyed. -/
  alive : Bool
deriving DecidableEq

structure St where
  server : TcpServer.St := {}
  /-- The connections of the server. -/
  link : ConnId → Link := fun _ => {}
  /-- The sessions that `messageCallback_` of a connection, and `closeCallback_`
  of the server, are bound to. -/
  messageCallback : ConnId → Option SessionId := fun _ => none
  closeCallback : Option SessionId := none
  sessionMap : Map String Session := ∅
  now : Int := 0
  notified : List Notice := []

def kMicroSecondsPerSecond : Int := 1000 * 1000

def TIMEOUT : Int := 6

def addTime (timestamp : Int) (seconds : Int) : Int := timestamp + seconds * kMicroSecondsPerSecond

variable (name : String)

/-- The server, as it is set up at this moment. -/
def St.config (s : St) : TcpServer.Config := { name, numThreads := 0, hasClose := s.closeCallback.isSome }

/-- The name of a connection, and the key of its session. -/
def clientName (c : ConnId) : String := connName { name, numThreads := 0, hasClose := true } c

def sessionName (k : SessionId) : String := "session " ++ clientName name k

def session (s : St) (k : SessionId) : Option Session := s.sessionMap.find (sessionName name k)

def setSession (s : St) (k : SessionId) (se : Session) : St :=
  { s with sessionMap := s.sessionMap.insert (sessionName name k) se }

def setLink (s : St) (c : ConnId) (l : Link) : St := { s with link := Function.update s.link c l }

def Session.setUpstream (se : Session) (n : TcpClient.ConnId) (l : Link) : Session :=
  { se with upstream := Function.update se.upstream n l }

/-! ## Connections -/

def Link.readFd (l : Link) (data : List Byte) : Option Link := do
  let (_, inputBuffer) ← l.inputBuffer.readFd (.ok data)
  return { l with inputBuffer, received := l.received ++ data }

def Link.retrieveAsString (l : Link) : List Byte × Link :=
  let (message, inputBuffer) := l.inputBuffer.retrieveAsString
  (message, { l with inputBuffer })

/-- `send` of a connection in this state. -/
def Link.send (l : Link) (state : StateE) (message : List Byte) : Link :=
  if state = .kConnected then { l with accepted := l.accepted ++ message } else l

/-- `tcpServer_->getConn`. -/
def getConn (s : St) (connName : String) : Option ConnId × St :=
  let (c, server) := TcpServer.getConn s.server connName
  (c, { s with server })

/-- `tcpServer_->removeConn`. Its callback, `onTcpServerConnection_`, does nothing. -/
def removeConn (s : St) (connName : String) : Option St := do
  let server ← TcpServer.removeConn s.server 0 connName
  if server.stack 0 = [] then return { s with server }
  else do
    let server ← TcpServer.ret (s.config name) server 0
    return { s with server }

/-- `tcpClient_->getConn()`. -/
def getTcpClientConn (tcpClient : TcpClient.St) : Option (Option TcpClient.ConnId) :=
  if tcpClient.state then tcpClient.connection.map some else some none

/-- `delete tcpClient_`. Its callback, `onTcpClientConnection_`, does nothing. -/
def deleteTcpClient (tcpClient : TcpClient.St) : Option Unit := do
  if tcpClient.state then
    let c ← tcpClient.connection
    let _ ← TcpClient.connectDestroyed (TcpClient.shutdown tcpClient c) c
  let _ ← Connector.exec tcpClient.connector .destroy
  return ()

/-! ## The session -/

/-- `Session::Session`, for connection `c`. -/
def newSession (s : St) (c : ConnId) (savedErrno : Errno) : Option St := do
  let clientTime := addTime s.now 60
  let (connPtr1, s) := getConn s (clientName name c)
  let connPtr1 ← connPtr1
  let s := { s with messageCallback := Function.update s.messageCallback connPtr1 (some c), closeCallback := some c }
  let s := setLink s connPtr1 { s.link connPtr1 with pair := some (.tcpClient c) }
  let tcpClient ← TcpClient.exec { hasClose := true } (.connect savedErrno)
  return setSession name s c
    { tcpClient, pair := some (.serverPair c), clientTime, serverTime := addTime clientTime TIMEOUT, connecting := true }

/-- `Session::~Session`, and its place in `sessionMap_`. -/
def eraseSession (s : St) (k : SessionId) : Option St := do
  let se ← session name s k
  let s ← removeConn name s (clientName name k)
  let _ ← deleteTcpClient se.tcpClient
  return { s with sessionMap := s.sessionMap.erase (sessionName name k) }

/-- `onTcpClientConnection_` of session `k`, for a connection of its client. -/
def onTcpClientConnection (s : St) (k : SessionId) (conn : TcpClient.ConnId) : Option St := do
  let se ← session name s k
  if (se.tcpClient.conn conn).state = .kConnected then do
    let p ← (se.upstream conn).pair
    assert (p = .serverPair k)
    let se := { se with connecting := false, serverTime := addTime s.now TIMEOUT }
    let (connPtr, s) := getConn s (clientName name k)
    match connPtr with
    | some c =>
      let (message, link) := (s.link c).retrieveAsString
      let se := se.setUpstream conn ((se.upstream conn).send (se.tcpClient.conn conn).state message)
      return setSession name (setLink s c link) k { se with clientTime := addTime s.now TIMEOUT }
    | none => return setSession name s k { se with clientTime := s.now }
  else return s

/-- `onTcpClientMessage_`. -/
def onTcpClientMessage (s : St) (k : SessionId) (conn : TcpClient.ConnId) : Option St := do
  let se ← session name s k
  let se := { se with serverTime := addTime s.now TIMEOUT }
  let p ← (se.upstream conn).pair
  assert (p = .serverPair k)
  let (connPtr, s) := getConn s (clientName name k)
  match connPtr with
  | some c =>
    let (message, link) := (se.upstream conn).retrieveAsString
    let s := setLink s c ((s.link c).send (s.server.conn c).state message)
    return setSession name s k { se.setUpstream conn link with clientTime := addTime s.now TIMEOUT }
  | none => return setSession name s k { se with serverTime := s.now }

/-- `onTcpServerMessage_` of session `k`, for a connection of the server. -/
def onTcpServerMessage (s : St) (k : SessionId) (conn : ConnId) (savedErrno : Errno) : Option St := do
  let se ← session name s k
  let se := { se with clientTime := addTime s.now TIMEOUT }
  assert ((s.link conn).pair = some (.tcpClient k))
  match ← getTcpClientConn se.tcpClient with
  | some n =>
    let (message, link) := (s.link conn).retrieveAsString
    let se := se.setUpstream n ((se.upstream n).send (se.tcpClient.conn n).state message)
    return setSession name (setLink s conn link) k { se with serverTime := addTime s.now TIMEOUT }
  | none =>
    if se.connecting then return setSession name s k se
    else do
      let tcpClient ← TcpClient.exec se.tcpClient (.connect savedErrno)
      return setSession name s k
        { se with tcpClient, connecting := true, serverTime := addTime se.clientTime TIMEOUT }

/-! ## Events -/

/-- `onTcpServerConnection_`, for a connection that is up. -/
def onTcpServerConnection (s : St) (c : ConnId) (savedErrno : Errno) : Option St :=
  if (s.server.conn c).state = .kConnected then newSession name s c savedErrno else some s

/-- `TcpServer::newConnection`. -/
def newConnection (s : St) (savedErrno : Errno) : Option St := do
  let c := s.server.nextConnId
  let server ← TcpServer.newConnection (s.config name) s.server
  let s ← onTcpServerConnection name { setLink s c {} with server } c savedErrno
  let server ← TcpServer.ret (s.config name) s.server 0
  return { s with server }

/-- A connection of the server is read. -/
def clientMessage (s : St) (c : ConnId) (data : List Byte) (savedErrno : Errno) : Option St := do
  let link ← (s.link c).readFd data
  let k ← s.messageCallback c
  onTcpServerMessage name (setLink s c link) k c savedErrno

/-- A connection of the server is closed by its peer. `onTcpServerClose_` of
whatever session `closeCallback_` is bound to is called, and does nothing. -/
def clientClose (s : St) (c : ConnId) : Option St := do
  let server ← TcpServer.handleClose (s.config name) s.server 0 c
  match s.closeCallback with
  | some k => do
    let notice : Notice := { conn := c, session := k, alive := (session name s k).isSome }
    let s := { s with notified := s.notified ++ [notice] }
    let server ← TcpServer.ret (s.config name) server 0
    let server ← TcpServer.ret (s.config name) server 0
    return { s with server }
  | none => do
    let server ← TcpServer.ret (s.config name) server 0
    return { s with server }

/-- An event of a connecting channel. -/
def connectorEvent (s : St) (k : SessionId) (d : Sock) (err out : Bool) (soError : Int) (selfConnect : Bool) :
    Option St := do
  let se ← session name s k
  let n := se.tcpClient.nextConnId
  let tcpClient ← TcpClient.exec se.tcpClient (.connector (.handleEvent d err out soError selfConnect))
  if tcpClient.connector.calling = none then return setSession name s k { se with tcpClient }
  else do
    let se := { se with tcpClient }
    let s ← onTcpClientConnection name (setSession name s k (se.setUpstream n { pair := se.pair })) k n
    let se ← session name s k
    let tcpClient ← TcpClient.exec se.tcpClient (.ret .success)
    return setSession name s k { se with tcpClient }

/-- A connection of a client is read. -/
def upstreamMessage (s : St) (k : SessionId) (n : TcpClient.ConnId) (data : List Byte) : Option St := do
  let se ← session name s k
  let link ← (se.upstream n).readFd data
  onTcpClientMessage name (setSession name s k (se.setUpstream n link)) k n

/-- A connection of a client is closed by its peer: `onTcpClientClose_` and
`onTcpClientConnection_` do nothing. -/
def upstreamClose (s : St) (k : SessionId) (n : TcpClient.ConnId) : Option St := do
  let se ← session name s k
  let tcpClient ← TcpClient.exec se.tcpClient (.handleClose n)
  let tcpClient ← TcpClient.exec tcpClient (.ret .success)
  let tcpClient ← TcpClient.exec tcpClient (.ret .success)
  return setSession name s k { se with tcpClient }

def runTimers (tcpClient : TcpClient.St) : List Errno → Option TcpClient.St
  | [] => some tcpClient
  | savedErrno :: rest => do
    let tcpClient ← TcpClient.exec tcpClient (.connector (.runTimer savedErrno))
    runTimers tcpClient rest

/-- The retry timers `ts` of a connector expire, and run with these results. -/
def timers (s : St) (k : SessionId) (ts rest : List Timer) (savedErrnos : List Errno) : Option St := do
  let se ← session name s k
  let tcpClient ← TcpClient.exec se.tcpClient (.connector (.expire ts rest))
  let tcpClient ← runTimers tcpClient savedErrnos
  return setSession name s k { se with tcpClient }

/-! ## Runs -/

inductive Act
  | tick (now : Int)
  | newConnection (savedErrno : Errno)
  | clientMessage (c : ConnId) (data : List Byte) (savedErrno : Errno)
  | clientClose (c : ConnId)
  | connectorEvent (k : SessionId) (d : Sock) (err out : Bool) (soError : Int) (selfConnect : Bool)
  | upstreamMessage (k : SessionId) (n : TcpClient.ConnId) (data : List Byte)
  | upstreamClose (k : SessionId) (n : TcpClient.ConnId)
  | timers (k : SessionId) (ts rest : List Timer) (savedErrnos : List Errno)
  /-- `processSession_` erases a session. -/
  | expire (k : SessionId)
deriving DecidableEq

/-- The test of `processSession_`. -/
def Session.Expired (se : Session) (now : Int) : Prop := se.clientTime < now ∨ se.serverTime < now

instance (se : Session) (now : Int) : Decidable (se.Expired now) := inferInstanceAs (Decidable (_ ∨ _))

def enabled (s : St) : Act → Prop
  | .tick now => s.now ≤ now
  | .newConnection _ => True
  | .clientMessage c data _ => (s.server.conn c).watched = true ∧ data ≠ []
  | .clientClose c => (s.server.conn c).watched = true
  | .connectorEvent k d err out soError selfConnect =>
    ∃ se ∈ session name s k, TcpClient.enabled se.tcpClient (.connector (.handleEvent d err out soError selfConnect))
  | .upstreamMessage k n data => data ≠ [] ∧ ∃ se ∈ session name s k, TcpClient.Established se.tcpClient n
  | .upstreamClose k n => ∃ se ∈ session name s k, TcpClient.enabled se.tcpClient (.handleClose n)
  | .timers k ts rest savedErrnos => savedErrnos.length = ts.length ∧
    ∃ se ∈ session name s k, TcpClient.enabled se.tcpClient (.connector (.expire ts rest))
  | .expire k => ∃ se ∈ session name s k, se.Expired s.now

instance (s : St) : ∀ a, Decidable (enabled name s a)
  | .tick now => inferInstanceAs (Decidable (s.now ≤ now))
  | .newConnection _ => .isTrue trivial
  | .clientMessage c data _ => inferInstanceAs (Decidable ((s.server.conn c).watched = true ∧ data ≠ []))
  | .clientClose c => inferInstanceAs (Decidable ((s.server.conn c).watched = true))
  | .connectorEvent k d err out soError selfConnect => inferInstanceAs (Decidable (∃ se ∈ session name s k,
      TcpClient.enabled se.tcpClient (.connector (.handleEvent d err out soError selfConnect))))
  | .upstreamMessage k n data => inferInstanceAs (Decidable (data ≠ [] ∧
      ∃ se ∈ session name s k, TcpClient.Established se.tcpClient n))
  | .upstreamClose k n => inferInstanceAs (Decidable (∃ se ∈ session name s k,
      TcpClient.enabled se.tcpClient (.handleClose n)))
  | .timers k ts rest savedErrnos => inferInstanceAs (Decidable (savedErrnos.length = ts.length ∧
      ∃ se ∈ session name s k, TcpClient.enabled se.tcpClient (.connector (.expire ts rest))))
  | .expire k => inferInstanceAs (Decidable (∃ se ∈ session name s k, se.Expired s.now))

def exec (s : St) : Act → Option St
  | .tick now => some { s with now }
  | .newConnection savedErrno => newConnection name s savedErrno
  | .clientMessage c data savedErrno => clientMessage name s c data savedErrno
  | .clientClose c => clientClose name s c
  | .connectorEvent k d err out soError selfConnect => connectorEvent name s k d err out soError selfConnect
  | .upstreamMessage k n data => upstreamMessage name s k n data
  | .upstreamClose k n => upstreamClose name s k n
  | .timers k ts rest savedErrnos => timers name s k ts rest savedErrnos
  | .expire k => eraseSession name s k

def machine : Machine St Act where
  init := {}
  enabled := enabled name
  exec := exec name

instance (s : St) (a : Act) : Decidable ((machine name).enabled s a) := inferInstanceAs (Decidable (enabled name s a))

end Cppnetool.Proxy
