import Cppnetool.TcpConnectionFinish
/-!
# Two connections, end to end

A `TcpConnection` at each end of one TCP connection, each on its own loop. Of
the kernel it knows, beside what `TcpConnection` knows, the bytes that one end
has written and the other has not read: they arrive in order, and `readv` may
return any number of them, up to the room that it is given. It returns 0 when
they are all read and the other end has shut down its writing, or when reading
is shut down at this end; and `::write` fails once writing is shut down. The
sockets are not closed.
-/
open Lib

namespace Cppnetool.TcpPipe

open TcpConnection (Conn Sys WriteResult)

/-- The two ends. -/
inductive Side
  | client
  | server
deriving DecidableEq

def Side.other : Side → Side
  | client => server
  | server => client

structure End (C T : Type) where
  /-- The output side. -/
  sys : Sys C T := {}
  inputBuffer : Buffer := .new
  /-- All that `readFd` has read, and all that has been retrieved of it. -/
  received : List Byte := []
  retrieved : List Byte := []
  /-- What this end has written and the other has not read. -/
  wire : List Byte := []
  /-- How often `readv` has returned 0, and the calls of `closeCallback_`. -/
  eof : Nat := 0
  closed : Nat := 0

abbrev St (C T : Type) := Side → End C T

variable {C T : Type}

/-- `handleClose`, up to `closeCallback_`. -/
def handleClose (e : End C T) : End C T :=
  { e with sys := { e.sys with conn := e.sys.conn.setInterest .disableAll }, closed := e.closed + 1 }

/-- `handleRead`, for the result of `readv`, up to `messageCallback_` or
`closeCallback_`. `handleError` changes nothing. -/
def handleRead (e : End C T) (r : Except Nat (List Byte)) : Option (End C T) := do
  let (n, inputBuffer) ← e.inputBuffer.readFd r
  match n, r with
  | .ok n, .ok data =>
    if 0 < n then return { e with inputBuffer, received := e.received ++ data }
    else return handleClose { e with inputBuffer, eof := e.eof + 1 }
  | _, _ => return { e with inputBuffer }

inductive Act (C T : Type)
  /-- A step of the output side. -/
  | output (i : Side) (a : TcpConnection.Act C T)
  | handleRead (i : Side) (r : Except Nat (List Byte))
  /-- `poll` reports a hangup, with nothing to read. -/
  | hangup (i : Side)
  /-- A callback takes bytes from the input buffer. -/
  | retrieve (i : Side) (len : Nat)
  | connectDestroyed (i : Side)

variable [DecidableEq T] [DecidableEq C]

/-- What `readv` may return at end `i`. -/
def Readable (s : St C T) (i : Side) : Except Nat (List Byte) → Prop
  | .error _ => True
  | .ok [] => (s i.other).wire = [] ∧ 0 < (s i.other).sys.conn.shutWrite ∨ 0 < (s i).sys.conn.shutRead
  | .ok data => data <+: (s i.other).wire ∧ data.length ≤ (s i).inputBuffer.writableBytes + kExtraBuf

def enabled (self : C) (s : St C T) : Act C T → Prop
  | .output i a => (TcpConnection.machine self).enabled (s i).sys a ∧
      (0 < (s i).sys.conn.shutWrite → ∀ w ∈ a.result, w = .error)
  | .handleRead i r => (s i).sys.loop.pc.handles self = true ∧ Readable s i r
  | .hangup i => (s i).sys.loop.pc.handles self = true
  | .retrieve i len => (s i).sys.loop.pc.userCode = true ∧ len ≤ (s i).inputBuffer.readableBytes
  | .connectDestroyed i => (s i).sys.loop.pc.userCode = true ∧
      ((s i).sys.conn.state = .kConnected ∨ (s i).sys.conn.state = .kDisconnecting)

def exec (self : C) (s : St C T) : Act C T → Option (St C T)
  | .output i a => do
    let sys ← (TcpConnection.machine self).exec (s i).sys a
    -- what the step has written goes on the wire
    let written := sys.conn.transmitted.drop (s i).sys.conn.transmitted.length
    return Function.update s i { s i with sys, wire := (s i).wire ++ written }
  | .handleRead i r => do
    let e ← handleRead (s i) r
    let peer := s i.other
    let wire := match r with
      | .ok data => peer.wire.drop data.length
      | .error _ => peer.wire
    return Function.update (Function.update s i e) i.other { peer with wire }
  | .hangup i => some (Function.update s i (handleClose (s i)))
  | .retrieve i len => do
    let inputBuffer ← (s i).inputBuffer.retrieve len
    let taken := (s i).inputBuffer.readable.take len
    return Function.update s i { s i with inputBuffer, retrieved := (s i).retrieved ++ taken }
  | .connectDestroyed i => do
    let sys ← TcpConnection.connectDestroyed (s i).sys
    return Function.update s i { s i with sys }

def machine (self : C) : Machine (St C T) (Act C T) where
  init := fun _ => {}
  enabled := enabled self
  exec := exec self

instance (s : St C T) (i : Side) : ∀ r, Decidable (Readable s i r)
  | .error _ => .isTrue trivial
  | .ok [] => inferInstanceAs (Decidable (_ ∧ _ ∨ _))
  | .ok (_ :: _) => inferInstanceAs (Decidable (_ ∧ _))

instance (self : C) (s : St C T) : ∀ a, Decidable ((machine self).enabled s a)
  | .output _ _ | .handleRead _ _ | .retrieve _ _ | .connectDestroyed _ => inferInstanceAs (Decidable (_ ∧ _))
  | .hangup _ => inferInstanceAs (Decidable (_ = _))

end Cppnetool.TcpPipe
