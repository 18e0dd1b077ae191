import Cppnetool.Descriptors
import Cppnetool.TcpServerRuns
/-!
# A server on its loop's poller

`net/Acceptor.cc`, `net/TcpServer.cc` and `net/TcpConnection.cc` again, for a
server without a thread pool, with what `TcpServer` leaves out: the poller of
the loop, the descriptors, and the `TcpConnection` objects, which close their
sockets when the last `TcpConnectionPtr` goes. The loop has other channels
too, of timers, clients and other servers; their owners open, watch and close
descriptors of their own at any time.
-/
open Lib

namespace Cppnetool.TcpServerSockets

open TcpServer (ConnId Frame Lifecycle connName)
open Poller (Registered Removable PollResult)
open Descriptors (Inv asked)

inductive Chan
  | acceptor
  | conn (c : ConnId)
  /-- Of another owner. -/
  | other (n : Nat)
deriving DecidableEq

def Chan.conn? : Chan → Option ConnId
  | conn c => some c
  | _ => none

structure St where
  server : TcpServer.St := {}
  loop : Descriptors.St Chan := (Descriptors.machine Chan).init
  /-- `acceptSocket_`, once there is an `Acceptor`. -/
  listenFd : Option Nat := none
  listenning : Bool := false
  /-- The `TcpConnection` objects there are, with the descriptors of their sockets. -/
  sockets : List (ConnId × Nat) := []
  /-- The `TcpConnectionPtr`s that the user keeps. -/
  held : List ConnId := []
  activeChannels : List Chan := []

structure Setup where
  name : String
  hasClose : Bool

/-- All I/O is in the server's own loop. -/
def Setup.config (cfg : Setup) : TcpServer.Config := { name := cfg.name, numThreads := 0, hasClose := cfg.hasClose }

def Alive (s : St) (c : ConnId) : Prop := c ∈ s.sockets.map Prod.fst

instance (s : St) (c : ConnId) : Decidable (Alive s c) := inferInstanceAs (Decidable (_ ∈ _))

/-- A call of the kernel or of a channel, which fails where it breaks the rules. -/
def call (s : St) (a : Descriptors.Act Chan) : Option St := do
  assert (Descriptors.enabled s.loop a)
  let loop ← Descriptors.exec s.loop a
  return { s with loop := loop }

variable (cfg : Setup)

/-- `connections_` has the connection. -/
def Listed (s : St) (c : ConnId) : Prop := s.server.connections.find (connName cfg.config c) = some (some c)

instance (s : St) (c : ConnId) : Decidable (Listed cfg s c) := inferInstanceAs (Decidable (_ = _))

/-- A `TcpConnectionPtr` has gone. With the last one the object goes, and its
`Socket` closes the descriptor. -/
def release (s : St) (c : ConnId) : Option St :=
  if Listed cfg s c ∨ c ∈ s.held then some s
  else do
    let fd ← s.sockets.lookup c
    call { s with sockets := s.sockets.filter (·.1 ≠ c) } (.closed fd)

/-- `TcpServer::newConnection`, with `connectEstablished` up to its callback. -/
def newConnection (s : St) (fd : Nat) : Option St := do
  let c := s.server.nextConnId
  let server ← TcpServer.newConnection cfg.config s.server
  call { s with server := server, sockets := (c, fd) :: s.sockets } (.watch (.conn c) fd .enableReading)

/-- `Acceptor::handleRead`; `accept` gives a descriptor or fails. -/
def accept (s : St) (fd : Option Nat) : Option St :=
  let s := { s with activeChannels := s.activeChannels.tail }
  match fd with
  | none => some s
  | some fd => do
    let s ← call s (.opened fd)
    newConnection cfg s fd

/-- The channel of a connection is handled, and read to its end or not. At the
end `handleClose` calls `disableAll`, and `removeConnectionInLoop` its callback
or `connectDestroyed`, which calls `disableAll` again. -/
def handleRead (s : St) (c : ConnId) (close : Bool) : Option St := do
  assert (Alive s c)
  let server ← TcpServer.handleEvent cfg.config s.server 0 close
  let s := { s with server := server, activeChannels := s.activeChannels.tail }
  if close then
    let s ← call s (.set (.conn c) .disableAll)
    if cfg.hasClose then return s else call s (.set (.conn c) .disableAll)
  else return s

/-- A callback returns: after the close callback comes `connectDestroyed` up to
its callback, and after that `removeChannel` and the erase. -/
def ret (s : St) : Option St := do
  let server ← TcpServer.ret cfg.config s.server 0
  match s.server.stack 0 with
  | .closing c :: _ =>
    assert (Alive s c)
    call { s with server := server } (.set (.conn c) .disableAll)
  | .destroyed c :: _ =>
    assert (Alive s c)
    let s ← call s (.remove (.conn c))
    release cfg { s with server := server } c
  | _ => return { s with server := server }

/-- `removeConn`, up to the callback of `connectDestroyed`. -/
def removeConn (s : St) (name : String) : Option St := do
  let server ← TcpServer.removeConn s.server 0 name
  let s' := { s with server := server }
  match (TcpServer.getConn s.server name).1 with
  | none => return s'
  | some c => call s' (.set (.conn c) .disableAll)

/-- The user keeps what `getConn` gives. -/
def getConn (s : St) (name : String) : St :=
  let (conn, server) := TcpServer.getConn s.server name
  { s with server := server, held := conn.toList ++ s.held }

def drop (s : St) (c : ConnId) : Option St := release cfg { s with held := s.held.erase c } c

/-- `enableReading`, `enableWriting` and `disableAll` of a connection, and
what `send` and `handleWrite` do to its channel. A channel with no interest
left is one that `TcpServer` calls unwatched. -/
def setInterest (s : St) (c : ConnId) (i : Interest) : Option St := do
  assert (Alive s c)
  let t ← call s (.set (.conn c) i)
  if (t.loop.chan (.conn c)).events = kNoneEvent then
    let server ← (TcpServer.machine cfg.config).exec t.server (.disableAll c)
    return { t with server := server }
  else return t

def shutdown (s : St) (c : ConnId) : Option St := do
  assert (Alive s c)
  let server ← (TcpServer.machine cfg.config).exec s.server (.shutdown c)
  return { s with server := server }

def poll (s : St) (revents : List Nat) (numEvents : Nat) : Option St := do
  let (loop, activeChannels) ← Descriptors.poll s.loop revents numEvents
  return { s with
    loop := loop
    activeChannels := activeChannels
    server := { s.server with
      active := Function.update s.server.active 0 (activeChannels.filterMap Chan.conn?) } }

/-! ## Runs -/

inductive Act
  /-- The constructor of the `Acceptor`. -/
  | socket (fd : Nat)
  | listen
  | poll (revents : List Nat) (numEvents : Nat)
  /-- The next active channel is the acceptor's, a connection's or another one. -/
  | accept (fd : Option Nat)
  | handleRead (close : Bool)
  | pass
  | ret
  | removeConn (name : String)
  | getConn (name : String)
  | drop (c : ConnId)
  | setInterest (c : ConnId) (i : Interest)
  | shutdown (c : ConnId)
  /-- What the other owners do. -/
  | other (a : Descriptors.Act Chan)

/-- The descriptors of the server. -/
def Ours (s : St) (fd : Nat) : Prop := fd ∈ s.sockets.map Prod.snd ∨ s.listenFd = some fd

instance (s : St) (fd : Nat) : Decidable (Ours s fd) := inferInstanceAs (Decidable (_ ∨ _))

def Chan.isOther : Chan → Bool
  | other _ => true
  | _ => false

/-- The other owners keep to channels and descriptors of their own, and remove a
channel only where `removeChannel` does not fail. -/
def Theirs (s : St) : Descriptors.Act Chan → Prop
  | .opened _ => True
  | .closed fd => ¬ Ours s fd
  | .watch c fd _ => c.isOther ∧ ¬ Ours s fd
  | .set c _ => c.isOther
  | .remove c => c.isOther ∧ Removable s.loop.toSt c
  | .poll _ _ => False

def enabled (s : St) : Act → Prop
  | .socket fd => s.listenFd = none ∧ s.loop.leases fd = none
  | .listen => s.listenFd ≠ none ∧ s.listenning = false
  | .poll revents numEvents =>
    s.server.stack 0 = [] ∧ s.activeChannels = [] ∧ PollResult s.loop.pollfds revents numEvents
  | .accept fd => s.server.stack 0 = [] ∧ s.activeChannels.head? = some .acceptor ∧
      ∀ f ∈ fd, s.loop.leases f = none
  | .handleRead _ => s.server.stack 0 = [] ∧ (s.activeChannels.head?.bind Chan.conn?) ≠ none
  | .pass => s.server.stack 0 = [] ∧ (s.activeChannels.head?.map Chan.isOther) = some true
  | .ret => s.server.stack 0 ≠ []
  | .removeConn _ => True
  | .getConn _ => True
  | .drop c => c ∈ s.held
  | .setInterest _ _ => True
  | .shutdown _ => True
  | .other a => Descriptors.enabled s.loop a ∧ Theirs s a

instance (s : St) : ∀ a, Decidable (Theirs s a)
  | .opened _ => .isTrue trivial
  | .closed fd => inferInstanceAs (Decidable (¬ Ours s fd))
  | .watch _ fd _ => inferInstanceAs (Decidable (_ ∧ ¬ Ours s fd))
  | .set c _ => inferInstanceAs (Decidable (c.isOther = true))
  | .remove c => inferInstanceAs (Decidable (c.isOther = true ∧ Removable s.loop.toSt c))
  | .poll _ _ => .isFalse id

instance (s : St) : ∀ a, Decidable (enabled s a)
  | .socket _ => inferInstanceAs (Decidable (_ ∧ _))
  | .listen => inferInstanceAs (Decidable (_ ∧ _))
  | .poll _ _ => inferInstanceAs (Decidable (_ ∧ _ ∧ _))
  | .accept fd => inferInstanceAs (Decidable (_ ∧ _ ∧ ∀ f ∈ fd, _))
  | .handleRead _ => inferInstanceAs (Decidable (_ ∧ _))
  | .pass => inferInstanceAs (Decidable (_ ∧ _))
  | .ret => inferInstanceAs (Decidable (_ ≠ _))
  | .removeConn _ => .isTrue trivial
  | .getConn _ => .isTrue trivial
  | .drop c => inferInstanceAs (Decidable (c ∈ s.held))
  | .setInterest _ _ => .isTrue trivial
  | .shutdown _ => .isTrue trivial
  | .other a => inferInstanceAs (Decidable (Descriptors.enabled s.loop a ∧ Theirs s a))

def exec (s : St) : Act → Option St
  | .socket fd => (call s (.opened fd)).map fun s => { s with listenFd := some fd }
  | .listen => do
    let fd ← s.listenFd
    call { s with listenning := true } (.watch .acceptor fd .enableReading)
  | .poll revents numEvents => poll s revents numEvents
  | .accept fd => accept cfg s fd
  | .handleRead close => do
    let c ← s.activeChannels.head?.bind Chan.conn?
    handleRead cfg s c close
  | .pass => some { s with activeChannels := s.activeChannels.tail }
  | .ret => ret cfg s
  | .removeConn name => removeConn s name
  | .getConn name => some (getConn s name)
  | .drop c => drop cfg s c
  | .setInterest c i => setInterest cfg s c i
  | .shutdown c => shutdown cfg s c
  | .other a => call s a

def machine : Machine St Act where
  init := {}
  enabled := enabled
  exec := exec cfg

instance (s : St) (a : Act) : Decidable ((machine cfg).enabled s a) := inferInstanceAs (Decidable (enabled s a))

/-! ## What the server's functions change -/

/-- Only the object of `c` and the callbacks under way. -/
structure Touches (c : ConnId) (t t' : TcpServer.St) : Prop where
  conn : ∀ d, d ≠ c → t'.conn d = t.conn d
  home : (t'.conn c).loop = (t.conn c).loop
  connections : t'.connections = t.connections
  nextConnId : t'.nextConnId = t.nextConnId
  active : t'.active = t.active

section Touches
variable {t t' : TcpServer.St} {c : ConnId} {k : TcpServer.Conn}

theorem Touches.update (hk : k.loop = (t.conn c).loop) (stack : TcpServer.Loop → List Frame) :
    Touches c t { t with conn := Function.update t.conn c k, stack := stack } where
  conn d hd := Function.update_of_ne hd ..
  home := by simpa using hk
  connections := rfl
  nextConnId := rfl
  active := rfl

theorem Touches.connectDestroyed (hx : TcpServer.connectDestroyed t 0 c = some t') :
    Touches c t t' ∧ (t'.conn c).watched = false ∧ (t'.conn c).state = .kDisconnected := by
  obtain ⟨-, -, hx⟩ := Option.bind_eq_some_iff.1 hx
  cases hx
  refine ⟨Touches.update (by rfl) _, ?_, ?_⟩ <;> simp [TcpServer.callBack]

theorem Touches.trans {t₁ t₂ t₃ : TcpServer.St} (h : Touches c t₁ t₂) (h' : Touches c t₂ t₃) : Touches c t₁ t₃ where
  conn d hd := (h'.conn d hd).trans (h.conn d hd)
  home := h'.home.trans h.home
  connections := h'.connections.trans h.connections
  nextConnId := h'.nextConnId.trans h.nextConnId
  active := h'.active.trans h.active

/-- `disableAll`, as the server sees it. -/
def unwatched (t : TcpServer.St) (c : ConnId) : TcpServer.St :=
  { t with conn := Function.update t.conn c { t.conn c with watched := false } }

theorem Touches.unwatched (t : TcpServer.St) (c : ConnId) : Touches c t (unwatched t c) := Touches.update (by rfl) t.stack

theorem unwatched_watched : ((unwatched t c).conn c).watched = false := by simp [TcpServerSockets.unwatched]

theorem unwatched_state : ((unwatched t c).conn c).state = (t.conn c).state := by simp [TcpServerSockets.unwatched]

/-- With no thread pool the connection is removed at once. -/
theorem handleClose_eq (t : TcpServer.St) (c : ConnId) : TcpServer.handleClose cfg.config t 0 c =
    if cfg.hasClose then some (TcpServer.callBack (unwatched t c) 0 (.closing c))
    else TcpServer.connectDestroyed (unwatched t c) 0 c := by
  unfold TcpServer.handleClose
  rw [if_pos rfl]
  rfl

variable {cfg} in
theorem Touches.handleClose (hx : TcpServer.handleClose cfg.config t 0 c = some t') :
    Touches c (TcpServerSockets.unwatched t c) t' ∧ (t'.conn c).watched = false ∧
      (cfg.hasClose = true → (t'.conn c).state = (t.conn c).state) := by
  rw [handleClose_eq] at hx
  split at hx
  · cases hx
    refine ⟨?_, unwatched_watched, fun _ => unwatched_state⟩
    exact ⟨fun _ _ => rfl, rfl, rfl, rfl, rfl⟩
  · rename_i hc
    obtain ⟨h, hw, -⟩ := Touches.connectDestroyed hx
    exact ⟨h, hw, fun h => absurd h hc⟩

/-- A connection that was accepted, established, and is in its callback. -/
def accepted (t : TcpServer.St) : TcpServer.St :=
  { t with
    nextConnId := t.nextConnId + 1
    conn := Function.update t.conn t.nextConnId { state := .kConnected, watched := true, established := 1 }
    connections := t.connections.insert (connName cfg.config t.nextConnId) (some t.nextConnId)
    stack := Function.update t.stack 0 (.established t.nextConnId :: t.stack 0) }

theorem newConnection_eq (t : TcpServer.St) : TcpServer.newConnection cfg.config t = some (accepted cfg t) := by
  simp [TcpServer.newConnection, TcpServer.getNextLoop, Setup.config, TcpServer.connectEstablished,
    TcpServer.callBack, accepted]

end Touches

end Cppnetool.TcpServerSockets
