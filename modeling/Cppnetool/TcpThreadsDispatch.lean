import Cppnetool.ConnectorChannel
import Cppnetool.TcpThreadsHomes
import Cppnetool.TcpThreadsOwners
/-!
# The channels of a dispatch pass

`loop` works through the list that one `poll` returned, while what it calls
takes channels out of pollers, gives up connections, and destroys connectors
and the server, whose acceptor never leaves its poller. A channel in the list
stays one that the poller has, and whose owner is there, as long as none of
this happens to one that is still to come.
-/
open Lib

namespace Cppnetool.TcpThreads

open TcpConnection (WriteResult)
open TcpServer (Loop connName)
open Connector (Errno)

variable {cfg : Config} {s s' t u : St} {l : Loop} {th : Thread} {c : ConnId} {k : ClientId} {n : Nat}

/-- The poller has the channel, and it has not been destroyed. -/
def Live (cfg : Config) (s : St) : Chan → Prop
  | .conn c => (s.conn c).registered = true ∧ Owned cfg s c
  | .connector k d => Connector.Owned (s.client k).connector d
  | .acceptor => s.alive = true
  | .wakeup | .timer => True

/-! ## What a step does to channels and their owners -/

/-- `~TcpServer` destroys the acceptor, and leaves its channel in the poller. -/
def Act.deletesServer : Act → Bool
  | .deleteServer _ => true
  | _ => false

/-- The loop whose next channel the step handles. -/
def Act.handles : Act → Option Loop
  | .acceptor _ => some 0
  | .wakeup l | .timer l | .handleEvent l .. | .connectorEvent l .. => some l
  | _ => none

/-- The connection whose channel leaves its poller when the callback returns. -/
def Frame.leaves : Frame → Option ConnId
  | removed n | removeConn _ n => some (.server n)
  | clientRemoved k _ c | clientDestroyed k c => some (.client k c)
  | _ => none

def leaves (s : St) : Act → Option ConnId
  | .ret t _ => (Lanes.front s.stack t).bind Frame.leaves
  | _ => none

/-- The step of a client's connector that the return of a callback comes to. -/
def Frame.connectorStep (s : St) (savedErrno : Errno) : Frame → Option (ClientId × Connector.Act)
  | clientNewConnection k _ => some (k, .callbackReturns)
  | clientRemoved k _ _ =>
    if (s.client k).retry = true ∧ (s.client k).connect = true then some (k, .restart savedErrno) else none
  | clientDestroyed k _ => some (k, .destroy)
  | _ => none

def connectorStep (s : St) : Act → Option (ClientId × Connector.Act)
  | .connectorEvent l err out soError selfConnect =>
    (nextConnector s l).map fun p => (p.1, .handleEvent p.2 err out soError selfConnect)
  | .connector k a | .connect k a => some (k, a)
  | .ret t e => (Lanes.front s.stack t).bind (Frame.connectorStep s e)
  | .deleteClient _ k => if (s.client k).state = true then none else some (k, .destroy)
  | _ => none

def connection (s : St) (k : ClientId) : List ConnId := (s.client k).connection.toList.map (.client k)

/-- The connections of which a pointer may be given up when the callback returns. -/
def Frame.releases (s : St) : Frame → List ConnId
  | removed n | newConnection n => [.server n]
  | removeConn name n => .server n :: (s.connections.find name).join.toList.map .server
  | clientNewConnection k n => [.client k n]
  | clientRemoved k _ _ | clientDestroyed k _ => connection s k
  | _ => []

def releases (s : St) : Act → List ConnId
  | .ret t _ => (Lanes.front s.stack t).elim [] (Frame.releases s)
  | .endFunctors l => (Lanes.lane s.done l).map fun p => p.2.conn
  | .drop c => [c]
  | .deleteServer _ => s.connections.entries.filterMap fun e => e.2.map .server
  | .connectorEvent l .. => (nextConnector s l).elim [] fun p => connection s p.1
  | .deleteClient _ k => connection s k
  | _ => []

/-- A step that takes a channel out of its poller, or a connector out of the
world, finds it in no list; one that replaces the channel of a connector finds
no attempt in flight; one that gives up the last pointer to a connection finds
its channel out of the poller, or takes it out. The server is not destroyed. -/
structure Spared (cfg : Config) (s : St) (a : Act) : Prop where
  acceptor : a.deletesServer = false
  leaves : ∀ c ∈ leaves s a, .conn c ∉ s.active (s.conn c).loop
  destroys : ∀ p ∈ connectorStep s a, p.2 = .destroy →
    ∀ d ∈ (s.client p.1).connector.registered, .connector p.1 d ∉ s.active (cfg.clientLoop p.1)
  attempts : ∀ p ∈ connectorStep s a, Connector.Spares (s.client p.1).connector p.2
  releases : ∀ c ∈ releases s a, (s.conn c).registered = true →
    TcpThreads.leaves s a = some c ∨ Owned cfg (released cfg s a) c

instance (s : St) (a : Act) : Decidable (Spared cfg s a) :=
  decidable_of_iff (a.deletesServer = false ∧ (∀ c ∈ leaves s a, .conn c ∉ s.active (s.conn c).loop) ∧
    (∀ p ∈ connectorStep s a, p.2 = .destroy →
      ∀ d ∈ (s.client p.1).connector.registered, .connector p.1 d ∉ s.active (cfg.clientLoop p.1)) ∧
    (∀ p ∈ connectorStep s a, Connector.Spares (s.client p.1).connector p.2) ∧
    ∀ c ∈ releases s a, (s.conn c).registered = true → leaves s a = some c ∨ Owned cfg (released cfg s a) c)
    ⟨fun ⟨h0, h1, h2, h3, h4⟩ => ⟨h0, h1, h2, h3, h4⟩, fun h => ⟨h.1, h.2, h.3, h.4, h.5⟩⟩

/-! ## Pointers that are not given up -/

theorem owned_returned (h : Owned cfg s c) (hp : ∀ fr, Lanes.front s.stack th = some fr → fr.pointer ≠ some c) :
    Owned cfg (returned s th) c := by
  rcases h with h | h | h | ⟨p, hm, hc⟩
  · exact .inl (by cases c <;> exact h)
  · exact .inr (.inl h)
  · exact .inr (.inr (.inl h))
  · rcases Lanes.mem_pop (l := th) hm with hm | ⟨-, hf⟩
    · exact .inr (.inr (.inr ⟨p, hm, hc⟩))
    · exact absurd hc (hp _ hf)

theorem owned_dropConnection (h : Owned cfg s c) (hn : c ∉ connection s k) : Owned cfg (dropConnection s k) c := by
  refine h.imp_left fun h => ?_
  cases c with
  | server n => exact h
  | client k' n =>
    by_cases hk : k' = k
    · subst hk
      have h : (s.client k').connection = some n := h
      exact absurd (by simp [connection, h]) hn
    · simpa [Listed, dropConnection, setClient, hk] using h

theorem owned_erase {name : String} (h : Owned cfg s c)
    (hn : ∀ n, c = .server n → connName cfg.toConfig n = name → s.connections.find name ≠ some (some n)) :
    Owned cfg { s with connections := s.connections.erase name } c := by
  refine h.imp_left fun h => ?_
  cases c with
  | client k n => exact h
  | server n =>
    by_cases e : connName cfg.toConfig n = name
    · have h : s.connections.find (connName cfg.toConfig n) = some (some n) := h
      rw [e] at h
      exact absurd h (hn n rfl e)
    · rw [Listed, Map.find_erase_ne e]
      exact h

theorem released_owned {a : Act} (h : Owned cfg s c) (hn : c ∉ releases s a) : Owned cfg (released cfg s a) c := by
  cases a with
  | ret t e =>
    cases hf : Lanes.front s.stack t with
    | none => simpa only [released, hf, Option.elim_none] using h
    | some fr =>
      simp only [released, releases, hf, Option.elim_some] at hn ⊢
      have hret : fr.pointer ≠ some c → Owned cfg (returned s t) c := by
        intro hp
        refine owned_returned h fun fr' hf' => ?_
        rw [hf] at hf'
        cases hf'
        exact hp
      cases fr with
      | established n => exact hret fun e => by cases e
      | newConnection n => exact hret fun e => by cases e; exact hn List.mem_cons_self
      | closing n => exact hret fun e => by cases e
      | removed n =>
        refine owned_erase (hret fun e => by cases e) ?_
        rintro m rfl hm
        rw [TcpServer.connName_injective cfg.toConfig hm] at hn
        exact absurd List.mem_cons_self hn
      | removeConn name n =>
        refine owned_erase (hret fun e => by cases e; exact hn List.mem_cons_self) ?_
        rintro m rfl - hm
        have hm : s.connections.find name = some (some m) := hm
        exact hn (List.mem_cons_of_mem _ (by simp [hm]))
      | clientNewConnection k n => exact hret fun e => by cases e; exact hn List.mem_cons_self
      | clientClosing k n => exact hret fun e => by cases e
      | clientRemoved k n d => exact owned_dropConnection (hret fun e => by cases e) hn
      | clientDestroyed k d => exact owned_dropConnection (hret fun e => by cases e) hn
  | endFunctors l =>
    rcases h with h | h | ⟨p, hp, ho, rfl⟩ | h
    · exact .inl (by cases c <;> exact h)
    · exact .inr (.inl h)
    · refine .inr (.inr (.inl ⟨p, ?_, ho, rfl⟩))
      rcases List.mem_append.1 hp with hp | hp
      · exact List.mem_append_left _ hp
      · refine List.mem_append_right _ (Lanes.mem_others.2 ⟨hp, fun hl => hn ?_⟩)
        exact List.mem_map.2 ⟨p, Lanes.mem_lane.2 ⟨hp, hl⟩, rfl⟩
    · exact .inr (.inr (.inr h))
  | drop d =>
    rcases h with h | h | h
    · exact .inl (by cases c <;> exact h)
    · refine .inr (.inl ((List.mem_erase_of_ne fun e => hn ?_).2 h))
      rw [e]
      exact List.mem_cons_self
    · exact .inr (.inr h)
  | deleteServer t =>
    refine h.imp_left fun h => ?_
    cases c with
    | client k n => exact h
    | server n =>
      have hm : (.server n : ConnId) ∈ releases s (.deleteServer t) :=
        List.mem_filterMap.2 ⟨_, AList.mem_lookup_iff.1 h, rfl⟩
      exact absurd hm hn
  | connectorEvent l err out soError selfConnect =>
    cases hc : nextConnector s l with
    | none => simpa only [released, hc, Option.elim_none] using h
    | some p =>
      simp only [released, releases, hc, Option.elim_some] at hn ⊢
      split
      · exact owned_dropConnection h hn
      · exact h
  | deleteClient t k =>
    simp only [released]
    split
    · exact h
    · exact owned_dropConnection h hn
  | _ => exact h

/-! ## Operations that take no channel -/

structure Polls (s t : St) : Prop where
  alive : t.alive = s.alive
  active : t.active = s.active
  conns : ∀ c, (s.conn c).registered = true → (t.conn c).registered = true
  connectors : ∀ k, (t.client k).connector = (s.client k).connector

namespace Polls

theorem refl (s : St) : Polls s s := ⟨rfl, rfl, fun _ h => h, fun _ => rfl⟩

theorem trans (h : Polls s t) (h' : Polls t u) : Polls s u where
  alive := h'.alive.trans h.alive
  active := h'.active.trans h.active
  conns c hc := h'.conns c (h.conns c hc)
  connectors k := (h'.connectors k).trans (h.connectors k)

/-- The connections stay as they are, and the clients keep their connectors. -/
theorem of_eq (hal : t.alive = s.alive) (ha : t.active = s.active) (hc : t.conn = s.conn)
    (hk : ∀ k, (t.client k).connector = (s.client k).connector) : Polls s t :=
  ⟨hal, ha, fun c h => by rw [hc]; exact h, hk⟩

end Polls

theorem Acts.polls (h : Acts th c s t) : Polls s t := by
  obtain ⟨conn, fs, n, e⟩ := h
  refine ⟨by rw [e.eq], by rw [e.eq], fun d hd => ?_, fun _ => by rw [e.eq]⟩
  rw [e.eq]
  by_cases hc : d = c
  · rw [hc] at hd ⊢
    simpa using e.registered hd
  · simpa [hc] using hd

/-- A connection that has just been made was not in any poller. -/
theorem conns_new {conn : ConnId → Conn} {new : Conn} {d : ConnId} (hd : (conn d).registered = false)
    (h : (conn c).registered = true) : (Function.update conn d new c).registered = true := by
  by_cases hc : c = d
  · rw [hc, hd] at h
    cases h
  · rwa [Function.update_of_ne hc]

theorem polls_setClient {client : Client} (h : client.connector = (s.client k).connector) :
    Polls s (setClient s k client) := by
  refine .of_eq rfl rfl rfl fun k' => ?_
  by_cases hk : k' = k
  · rw [hk]
    simpa [setClient] using h
  · simp [setClient, hk]

theorem polls_newConnection (H : Homed cfg s) (hx : newConnection cfg s = some s') : Polls s s' := by
  obtain ⟨ioLoop, next, s₁, h₁, hs⟩ := newConnection_cases hx
  have hnew : (s.conn (.server s.nextConnId)).registered = false := by rw [H.fresh (not_made_server s)]
  have g : Polls s s₁ := by
    rw [h₁]
    exact ⟨rfl, rfl, fun c hc => conns_new hnew hc, fun _ => rfl⟩
  rcases hs with ⟨-, s₂, h₂, rfl⟩ | ⟨-, rfl⟩
  · exact g.trans (h₂.polls.trans (.of_eq rfl rfl rfl fun _ => rfl))
  · exact g.trans (.of_eq rfl rfl rfl fun _ => rfl)

theorem polls_assert (s : St) (l : Loop) (th : Thread) : Polls s (assertInLoopThread s l th) :=
  .of_eq rfl rfl rfl fun _ => rfl

theorem polls_removeClosed (hx : removeClosed cfg s th n = some s') : Polls s s' := by
  obtain ⟨s₁, h₁, rfl⟩ := removeClosed_cases hx
  have g : Polls s s₁ := (polls_assert s _ th).trans h₁.acts.polls
  exact g.trans (.of_eq rfl rfl rfl fun _ => rfl)

theorem polls_removeConnectionInLoop (hx : removeConnectionInLoop cfg s th n = some s') : Polls s s' := by
  rcases removeConnectionInLoop_cases hx with ⟨-, rfl⟩ | ⟨-, hx⟩
  · exact .of_eq rfl rfl rfl fun _ => rfl
  · exact polls_removeClosed hx

theorem polls_removeConn {name : String} (hx : removeConn cfg s th name = some s') : Polls s s' := by
  rcases removeConn_cases hx with ⟨-, rfl⟩ | ⟨-, rfl⟩ | ⟨n, s₁, -, h₁, rfl⟩
  · exact .of_eq rfl rfl rfl fun _ => rfl
  · exact .refl s'
  · have g : Polls s s₁ := (polls_assert s _ th).trans h₁.acts.polls
    exact g.trans (.of_eq rfl rfl rfl fun _ => rfl)

theorem polls_getConn (s : St) (name : String) : Polls s (getConn s name) := by
  rcases getConn_cases s name with ⟨-, e⟩ | ⟨-, e⟩ | ⟨n, -, e⟩
  · rw [e]
    exact .of_eq rfl rfl rfl fun _ => rfl
  · rw [e]
    exact .refl s
  · rw [e]
    exact .of_eq rfl rfl rfl fun _ => rfl

theorem polls_clientNewConnection (H : Homed cfg s) (hx : clientNewConnection cfg s th k = some s') :
    Polls s s' := by
  obtain ⟨s₁, s₂, h₁, h₂, rfl⟩ := clientNewConnection_cases hx
  have hnew : (s.conn (.client k (s.client k).nextConnId)).registered = false := by rw [H.fresh (not_made_client s k)]
  have g : Polls s s₁ := by
    rw [h₁]
    refine ⟨rfl, rfl, fun c hc => conns_new hnew hc, fun k' => ?_⟩
    by_cases hk : k' = k
    · rw [hk]
      simp
    · simp [hk]
  exact g.trans (h₂.polls.trans (.of_eq rfl rfl rfl fun _ => rfl))

theorem polls_clientRemoveClosed (hx : clientRemoveClosed cfg s th k n = some s') : Polls s s' := by
  obtain ⟨-, -, d, s₁, -, h₁, rfl⟩ := clientRemoveClosed_cases hx
  have g : Polls s s₁ := (polls_assert s _ th).trans h₁.acts.polls
  exact g.trans (.of_eq rfl rfl rfl fun _ => rfl)

theorem polls_clientRemoveConnection (hx : clientRemoveConnection cfg s th k n = some s') : Polls s s' := by
  rcases clientRemoveConnection_cases hx with ⟨-, rfl⟩ | ⟨-, hx⟩
  · exact .of_eq rfl rfl rfl fun _ => rfl
  · exact polls_clientRemoveClosed hx

theorem polls_runFunctor {w : WriteResult} (hx : runFunctor cfg s l w = some s') : Polls s s' := by
  obtain ⟨f, s₁, -, h₁, -, h⟩ := runFunctor_cases hx
  have g : Polls s s₁ := by
    rw [h₁]
    exact .of_eq rfl rfl rfl fun _ => rfl
  refine g.trans ?_
  cases f with
  | connectEstablished n =>
    obtain ⟨s₂, h₂, rfl⟩ := h
    exact h₂.polls.trans (.of_eq rfl rfl rfl fun _ => rfl)
  | removeConnectionInLoop n => exact polls_removeConnectionInLoop h
  | sendInLoop | shutdownInLoop | shutdownAllInLoop | writeCompleteCallback => exact h.polls

theorem polls_handleClose (hx : handleClose cfg s th c = some s') : Polls s s' := by
  obtain ⟨s₁, h₁, hx⟩ := handleClose_cases hx
  refine h₁.polls.trans ?_
  cases c with
  | server n =>
    rcases hx with ⟨-, hx⟩ | ⟨-, rfl⟩
    · exact polls_removeConnectionInLoop hx
    · exact .of_eq rfl rfl rfl fun _ => rfl
  | client k n => exact polls_clientRemoveConnection hx

theorem polls_handleEvent {write : Option WriteResult} {read : Input}
    (hx : handleEvent cfg s l c write read = some s') : Polls s s' := by
  obtain ⟨-, s₁, h₁, ⟨-, hx⟩ | ⟨-, rfl⟩⟩ := handleEvent_cases hx
  · exact h₁.polls.trans (polls_handleClose hx)
  · exact h₁.polls

theorem polls_call (s : St) (th : Thread) (c : ConnId) (f : Call) (w : WriteResult) :
    Polls s (call s th c f w) := by
  rcases acts_call s th c f w with ⟨-, h⟩ | e | ⟨-, e⟩
  · exact h.polls
  · rw [e]
    exact .refl s
  · rw [e]
    have g : Polls s (setConn s c { s.conn c with state := f.leaves }) :=
      (acts_setState s th c f.leaves).polls
    exact g.trans (.of_eq rfl rfl rfl fun _ => rfl)

/-! ## Steps -/

/-- What a step does to the lists, the pollers and the connectors. -/
structure Turns (s : St) (a : Act) (s' : St) : Prop where
  alive : a.deletesServer = false → s'.alive = s.alive
  active : s'.active = a.handles.elim s.active fun l => (handled s l).active
  conns : ∀ c, (s.conn c).registered = true → leaves s a = some c ∨ (s'.conn c).registered = true
  left : ∀ c ∈ leaves s a, (s'.conn c).registered = false
  connectors : ∀ k, (s'.client k).connector = (s.client k).connector ∨
    ∃ b, connectorStep s a = some (k, b) ∧ Connector.exec (s.client k).connector b = some (s'.client k).connector

variable {a : Act} {b : Connector.Act} {connector : Connector.St}

theorem connectors_setClient (client : Client) (hs : connectorStep s a = some (k, b))
    (hx : Connector.exec (s.client k).connector b = some client.connector) (ht : t.client = s.client) (k' : ClientId) :
    ((setClient t k client).client k').connector = (s.client k').connector ∨ ∃ b,
      connectorStep s a = some (k', b) ∧
        Connector.exec (s.client k').connector b = some ((setClient t k client).client k').connector := by
  by_cases hk : k' = k
  · rw [hk]
    exact .inr ⟨b, hs, by simpa [setClient] using hx⟩
  · exact .inl (by simp [setClient, hk, ht])

/-- No connection leaves. -/
theorem Polls.turns (h : Polls t s') (hal : t.alive = s.alive) (hc : t.conn = s.conn) (hl : leaves s a = none)
    (ha : t.active = a.handles.elim s.active fun l => (handled s l).active)
    (hk : ∀ k, (t.client k).connector = (s.client k).connector ∨ ∃ b,
      connectorStep s a = some (k, b) ∧ Connector.exec (s.client k).connector b = some (t.client k).connector) :
    Turns s a s' where
  alive _ := h.alive.trans hal
  active := h.active.trans ha
  conns c hr := .inr (h.conns c (by rw [hc]; exact hr))
  left c hm := by
    rw [hl] at hm
    cases hm
  connectors k := by
    rw [h.connectors]
    exact hk k

/-- And no connector takes a step, and no channel is handled. -/
theorem Polls.turns_none (h : Polls s s') (hl : leaves s a = none) (ha : a.handles = none) : Turns s a s' :=
  h.turns rfl rfl hl (by rw [ha]; rfl) fun _ => .inl rfl

/-- A channel is handled. -/
theorem Polls.turns_handled (h : Polls (handled s l) s') (hl : leaves s a = none) (ha : a.handles = some l) :
    Turns s a s' :=
  h.turns rfl rfl hl (by rw [ha]; rfl) fun _ => .inl rfl

/-- The rest of `connectDestroyed` has run. -/
theorem turns_destroyed (h : destroyed cfg s th c = some t) (hl : leaves s a = some c) (ha : a.handles = none)
    (hal : s'.alive = t.alive) (hact : s'.active = t.active) (hc : s'.conn = t.conn)
    (hk : ∀ k, (s'.client k).connector = (s.client k).connector ∨ ∃ b,
      connectorStep s a = some (k, b) ∧ Connector.exec (s.client k).connector b = some (s'.client k).connector) :
    Turns s a s' := by
  obtain ⟨-, e⟩ := destroyed_eq h
  refine ⟨fun _ => by rw [hal, e], by rw [ha, hact, e]; rfl, fun d hd => ?_, fun d hd => ?_, hk⟩
  · by_cases hdc : d = c
    · exact .inl (by rw [hl, hdc])
    · refine .inr ?_
      rw [hc, e]
      simpa [hdc] using hd
  · rw [hl] at hd
    cases hd
    rw [hc, e]
    simp

theorem turns_runConnector {th : Thread} (ha : ∀ c err out e self, b ≠ .handleEvent c err out e self)
    (hs : connectorStep s a = some (k, b)) (hl : leaves s a = none) (hh : a.handles = none)
    (ht : t.client = s.client) (hc : t.conn = s.conn) (hac : t.active = s.active) (hal : t.alive = s.alive)
    (hx : runConnector cfg t th k b = some s') : Turns s a s' := by
  obtain ⟨connector, hb, rfl⟩ := runConnector_cases ha hx
  have hb : Connector.exec (s.client k).connector b = some connector := by rw [← ht]; exact hb
  exact (Polls.refl _).turns hal hc hl (by rw [hh]; exact hac) (connectors_setClient _ hs hb ht)

theorem turns_ret {e : Errno} (hx : ret cfg s th e = some s') : Turns s (.ret th e) s' := by
  obtain ⟨fr, hf, hx⟩ := Option.bind_eq_some_iff.1 hx
  have hl : leaves s (.ret th e) = fr.leaves := by simp [leaves, hf]
  have hs : connectorStep s (.ret th e) = fr.connectorStep s e := by simp [connectorStep, hf]
  have g : Polls s (returned s th) := .of_eq rfl rfl rfl fun _ => rfl
  cases fr with
  | established n =>
    cases hx
    exact g.turns_none hl rfl
  | newConnection n =>
    cases hx
    exact g.turns_none hl rfl
  | closing n => exact (g.trans (polls_removeClosed hx)).turns_none hl rfl
  | clientClosing k n => exact (g.trans (polls_clientRemoveClosed hx)).turns_none hl rfl
  | removed n =>
    obtain ⟨s₁, h₁, hx⟩ := Option.bind_eq_some_iff.1 hx
    cases eraseConn_eq hx
    exact turns_destroyed h₁ hl rfl rfl rfl rfl fun k => .inl (by rw [(destroyed_eq h₁).2]; rfl)
  | removeConn name n =>
    obtain ⟨s₁, h₁, hx⟩ := Option.bind_eq_some_iff.1 hx
    cases eraseConn_eq hx
    exact turns_destroyed h₁ hl rfl rfl rfl rfl fun k => .inl (by rw [(destroyed_eq h₁).2]; rfl)
  | clientNewConnection k n =>
    have hx : runConnector cfg (returned s th) th k .callbackReturns = some s' := hx
    refine turns_runConnector ?_ hs hl rfl ?_ ?_ ?_ ?_ hx
    · intro c err out e self h
      cases h
    all_goals rfl
  | clientRemoved k n d =>
    obtain ⟨s₁, h₁, hx⟩ := Option.bind_eq_some_iff.1 hx
    obtain ⟨-, connector, rfl, hc⟩ := clientReset_cases hx
    have hcl : (returned s₁ th).client = s.client := by rw [(destroyed_eq h₁).2]; rfl
    rw [hcl] at hc
    refine turns_destroyed h₁ hl rfl rfl rfl rfl fun k' => ?_
    rcases hc with rfl | ⟨hr, hc⟩
    · left
      by_cases hk : k' = k
      · rw [hk]
        simp [setClient]
      · simp [setClient, hk, hcl]
    · exact connectors_setClient _ (hs.trans (if_pos hr)) hc hcl k'
  | clientDestroyed k d =>
    obtain ⟨s₁, h₁, hx⟩ := Option.bind_eq_some_iff.1 hx
    obtain ⟨connector, hc, rfl⟩ := destroyMembers_cases hx
    have hcl : (returned s₁ th).client = s.client := by rw [(destroyed_eq h₁).2]; rfl
    rw [hcl] at hc
    exact turns_destroyed h₁ hl rfl rfl rfl rfl (connectors_setClient _ hs hc hcl)

/-- Every step but a `poll`. -/
theorem step_turns (H : Homed cfg s) (ha : enabled cfg s a) (hp : ∀ l active, a ≠ .poll l active)
    (hx : exec cfg s a = some s') : Turns s a s' := by
  cases a with
  | poll l active => exact absurd rfl (hp l active)
  | acceptor accepted =>
    have g : Confines cfg False 0 s (handled s 0) := confines_handled s 0
    obtain ⟨-, -, hx⟩ := Option.bind_eq_some_iff.1 hx
    split at hx
    · exact (polls_newConnection (H.confines g) hx).turns_handled rfl rfl
    · cases hx
      exact (Polls.refl _).turns_handled rfl rfl
  | wakeup l =>
    cases hx
    exact Polls.turns_handled (.of_eq rfl rfl rfl fun _ => rfl) rfl rfl
  | timer l =>
    cases hx
    exact (Polls.refl _).turns_handled rfl rfl
  | handleEvent l write read =>
    obtain ⟨c, -, hx⟩ := Option.bind_eq_some_iff.1 hx
    exact (polls_handleEvent hx).turns_handled rfl rfl
  | connectorEvent l err out soError selfConnect =>
    obtain ⟨⟨k, d⟩, hn, hx⟩ := Option.bind_eq_some_iff.1 hx
    obtain ⟨-, p, hm, hpoll⟩ := ha
    cases hn.symm.trans hm
    have hs : connectorStep s (.connectorEvent l err out soError selfConnect) =
        some (k, .handleEvent d err out soError selfConnect) := by simp [connectorStep, hn]
    obtain ⟨connector, hc, h⟩ := connectorEvent_cases (s := handled s l) hpoll.1 hx
    have hk := connectors_setClient { s.client k with connector } (t := handled s l) hs hc rfl
    rcases h with ⟨-, rfl⟩ | ⟨-, hx⟩
    · exact (Polls.refl _).turns rfl rfl rfl rfl hk
    · have g : Confines cfg False l s (setClient (handled s l) k { (handled s l).client k with connector }) :=
        (confines_handled s l).trans (confines_setClient rfl fun _ h => h)
      exact (polls_clientNewConnection (H.confines g) hx).turns rfl rfl rfl rfl hk
  | runFunctor l w => exact (polls_runFunctor hx).turns_none rfl rfl
  | endFunctors l =>
    cases hx
    exact Polls.turns_none (.of_eq rfl rfl rfl fun _ => rfl) rfl rfl
  | ret t e => exact turns_ret hx
  | connector k b =>
    exact turns_runConnector (not_event_of_ofLoop ha.2.1) rfl rfl rfl rfl rfl rfl rfl hx
  | call t c f w =>
    cases hx
    exact (polls_call s t c f w).turns_none rfl rfl
  | pushBack t =>
    obtain ⟨⟨c, f⟩, -, hx⟩ := Option.bind_eq_some_iff.1 hx
    cases hx
    exact Polls.turns_none (.of_eq rfl rfl rfl fun _ => rfl) rfl rfl
  | setInterest t c i =>
    cases hx
    exact (acts_setInterest s t c i).polls.turns_none rfl rfl
  | setWriteCompleteCallback c on =>
    cases hx
    have g : Acts 0 c s (setConn s c { s.conn c with hasWriteComplete := on }) := acts_setConn rfl rfl rfl
    exact g.polls.turns_none rfl rfl
  | removeConn t name => exact (polls_removeConn hx).turns_none rfl rfl
  | getConn name =>
    cases hx
    exact (polls_getConn s name).turns_none rfl rfl
  | getClientConn k =>
    cases hx
    unfold getClientConn
    split
    · exact Polls.turns_none (.of_eq rfl rfl rfl fun _ => rfl) rfl rfl
    · exact (Polls.refl s).turns_none rfl rfl
  | deleteServer t =>
    cases hx
    refine ⟨?_, rfl, fun _ h => .inr h, ?_, fun _ => .inl rfl⟩
    · rintro ⟨⟩
    · rintro c ⟨⟩
  | drop c =>
    cases hx
    exact Polls.turns_none (.of_eq rfl rfl rfl fun _ => rfl) rfl rfl
  | newClient =>
    cases hx
    have g : Polls s (setClient s s.clients { s.client s.clients with alive := true }) := polls_setClient rfl
    refine Polls.turns_none ?_ rfl rfl
    exact g.trans (.of_eq rfl rfl rfl fun _ => rfl)
  | connect k b =>
    obtain ⟨connect, hc, hx⟩ := Option.bind_eq_some_iff.1 hx
    obtain ⟨connector, hex, rfl⟩ := runConnector_cases (not_event_of_connects hc) hx
    have hex : Connector.exec (s.client k).connector b = some connector := by simpa [setClient] using hex
    refine (Polls.refl _).turns rfl rfl rfl rfl fun k' => ?_
    by_cases hk : k' = k
    · rw [hk]
      exact .inr ⟨b, rfl, by simpa [setClient] using hex⟩
    · exact .inl (by simp [setClient, hk])
  | disconnect t k w =>
    cases hx
    have g : Polls s (setClient s k { s.client k with connect := false }) := polls_setClient rfl
    unfold disconnect
    dsimp only
    split
    · exact (g.trans (polls_call _ t _ .shutdown w)).turns_none rfl rfl
    · exact g.turns_none rfl rfl
  | enableRetry k =>
    cases hx
    refine Polls.turns_none ?_ rfl rfl
    exact polls_setClient rfl
  | setCloseCallback k on =>
    cases hx
    refine Polls.turns_none ?_ rfl rfl
    exact polls_setClient rfl
  | deleteClient t k =>
    rcases deleteClient_cases hx with ⟨-, d, s₁, -, h₁, rfl⟩ | ⟨hst, hx⟩
    · have g : Polls s (callBack s₁ t (.clientDestroyed k d)) := h₁.acts.polls.trans (.of_eq rfl rfl rfl fun _ => rfl)
      exact g.turns_none rfl rfl
    · obtain ⟨connector, hc, rfl⟩ := destroyMembers_cases hx
      have hs : connectorStep s (.deleteClient t k) = some (k, .destroy) := by simp [connectorStep, hst]
      exact (Polls.refl _).turns rfl rfl rfl rfl (connectors_setClient _ hs hc rfl)

/-! ## Runs -/

/-- Every poller has channels of what is there only, and every list channels
that the pollers have. -/
structure Attached (cfg : Config) (s : St) : Prop where
  homed : Homed cfg s
  alive : s.alive = true
  whole : ∀ k, Connector.Whole (s.client k).connector
  owned : ∀ c, (s.conn c).registered = true → Owned cfg s c
  nodup : ∀ l, (s.active l).Nodup
  live : ∀ l, ∀ ch ∈ s.active l, Live cfg s ch

theorem attached_init : Attached cfg {} where
  homed := homed_init
  alive := rfl
  whole _ := Connector.whole_init
  owned _ h := by cases h
  nodup _ := List.nodup_nil
  live _ _ h := by cases h

/-- What `poll` returns is in the poller. -/
theorem Attached.poll {active : List Chan} (A : Attached cfg s) (ha : enabled cfg s (.poll l active)) :
    Attached cfg { s with active := Function.update s.active l active } := by
  have hlive : ∀ ch, Live cfg s ch → Live cfg { s with active := Function.update s.active l active } ch := by
    intro ch h
    cases ch with
    | conn c =>
      refine ⟨h.1, ?_⟩
      have ho := h.2
      cases c <;> exact ho
    | connector k d => exact h
    | acceptor => exact h
    | wakeup | timer => trivial
  refine ⟨step_homed A.homed ha rfl, A.alive, A.whole, ?_, ?_, ?_⟩
  · intro c hr
    have ho := A.owned c hr
    cases c <;> exact ho
  · intro l'
    by_cases hl : l' = l
    · rw [hl]
      simpa using ha.2.2.1
    · simpa [hl] using A.nodup l'
  · intro l' ch hch
    by_cases hl : l' = l
    · rw [hl] at hch
      have hw : Watched cfg s l ch := ha.2.2.2 ch (by simpa using hch)
      refine hlive ch ?_
      cases ch with
      | conn c => exact ⟨hw.1, A.owned c hw.1⟩
      | connector k d => exact (A.whole k).owned hw.1
      | acceptor => exact A.alive
      | wakeup | timer => trivial
    · exact hlive ch (A.live l' ch (by simpa [hl] using hch))

theorem mem_of_turns (T : Turns s a s') {ch : Chan} (h : ch ∈ s'.active l) : ch ∈ s.active l := by
  rw [T.active] at h
  cases hh : a.handles with
  | none => simpa [hh] using h
  | some l' =>
    rw [hh] at h
    by_cases hl : l = l'
    · rw [hl] at h ⊢
      simp only [Option.elim_some, handled, Function.update_self] at h
      exact List.mem_of_mem_tail h
    · simpa [handled, hl] using h

/-- An event of a connector is the next channel of its loop. -/
theorem connectorStep_handleEvent {d : Connector.Sock} {err out selfConnect : Bool} {soError : Int}
    (ha : enabled cfg s a) (h : connectorStep s a = some (k, .handleEvent d err out soError selfConnect)) :
    ∃ l, a.handles = some l ∧ (s.active l).head? = some (.connector k d) := by
  cases a with
  | connectorEvent l =>
    obtain ⟨p, hn, e⟩ := Option.map_eq_some_iff.1 h
    cases e
    refine ⟨l, rfl, ?_⟩
    unfold nextConnector nextChannel at hn
    split at hn
    · rename_i hd
      cases hn
      exact hd
    · cases hn
  | connector k b =>
    cases h
    cases ha.2.1
  | connect k b =>
    cases h
    exact absurd rfl ha.2.2
  | ret t e =>
    obtain ⟨fr, -, h⟩ := Option.bind_eq_some_iff.1 h
    cases fr with
    | clientRemoved k n c =>
      simp only [Frame.connectorStep] at h
      split at h <;> cases h
    | _ => cases h
  | deleteClient t k =>
    simp only [connectorStep] at h
    split at h <;> cases h
  | _ => cases h

theorem step_attached (A : Attached cfg s) (ha : enabled cfg s a) (hg : Spared cfg s a)
    (hx : exec cfg s a = some s') : Attached cfg s' := by
  by_cases hp : ∃ l active, a = .poll l active
  · obtain ⟨l, active, rfl⟩ := hp
    cases hx
    exact A.poll ha
  · have T : Turns s a s' := step_turns A.homed ha (fun l active e => hp ⟨l, active, e⟩) hx
    have g := step_grows ha hx
    have howned : ∀ c, (s'.conn c).registered = true → Owned cfg s' c := by
      intro c hr
      rcases g.polled c hr with hr' | ho
      · rw [(released_leaves s a).2.2] at hr'
        by_cases hc : c ∈ releases s a
        · rcases hg.releases c hc hr' with hl | ho
          · rw [T.left c hl] at hr
            cases hr
          · exact g.owned c ho
        · exact g.owned c (released_owned (A.owned c hr') hc)
      · exact ho
    have halive : s'.alive = true := (T.alive hg.acceptor).trans A.alive
    refine ⟨step_homed A.homed ha hx, halive, ?_, howned, ?_, ?_⟩
    · intro k
      rcases T.connectors k with e | ⟨b, hs, hb⟩
      · rw [e]
        exact A.whole k
      · exact (Connector.exec_whole (A.whole k) (hg.attempts _ hs) hb).1
    · intro l
      rw [T.active]
      cases hh : a.handles with
      | none => exact A.nodup l
      | some l' =>
        by_cases hl : l = l'
        · rw [hl]
          simpa [handled] using (A.nodup l').sublist (List.tail_sublist _)
        · simpa [handled, hl] using A.nodup l
    · intro l ch hch
      have hmem : ch ∈ s.active l := mem_of_turns T hch
      have hlive := A.live l ch hmem
      have hhome := A.homed.active l ch hmem
      cases ch with
      | conn c =>
        rcases T.conns c hlive.1 with hl | hr
        · have e : (s.conn c).loop = l := hhome _ rfl
          exact absurd (e ▸ hmem) (hg.leaves c hl)
        · exact ⟨hr, howned c hr⟩
      | connector k d =>
        have hk : cfg.clientLoop k = l := hhome _ rfl
        rcases T.connectors k with e | ⟨b, hs, hb⟩
        · have h : Connector.Owned (s'.client k).connector d := by
            rw [e]
            exact hlive
          exact h
        · rcases (Connector.exec_whole (A.whole k) (hg.attempts _ hs) hb).2 with h | ⟨c, err, out, e, self, rfl⟩ | rfl
          · exact h d hlive
          · -- the channel that is handled, which is not in the list again
            obtain ⟨l', hh, hd⟩ := connectorStep_handleEvent ha hs
            have hc : c = d :=
              Option.some.inj ((Connector.handleEvent_leaves hb).1.symm.trans hlive.1)
            subst hc
            have hl : cfg.clientLoop k = l' := A.homed.active l' _ (List.mem_of_mem_head? hd) _ rfl
            obtain rfl : l = l' := hk.symm.trans hl
            rw [T.active, hh] at hch
            simp only [Option.elim_some, handled, Function.update_self] at hch
            obtain ⟨rest, hrest⟩ := List.head?_eq_some_iff.1 hd
            have hnd := A.nodup l
            rw [hrest] at hnd hch
            exact absurd hch (List.nodup_cons.1 hnd).1
          · exact absurd (hk ▸ hmem) (hg.destroys _ hs rfl d hlive.2)
      | acceptor => exact halive
      | wakeup | timer => trivial

/-- In a run whose every step spares the channels that are still to come: the
next channel of a loop is in its poller, and has not been destroyed. -/
theorem no_stale_dispatch {tr : List (St × Act)} (hr : Run (machine cfg) tr s) (hg : Meets (Spared cfg) tr) :
    ∀ t, Visited tr s t → ∀ l ch, nextChannel t l = some ch → Live cfg t ch := by
  intro t ht l ch hch
  obtain ⟨pre, hpre, hsub⟩ := Steps.visited hr ht
  have A : Attached cfg t := Run.inv_if (Attached cfg) (Spared cfg) attached_init
    (fun _ _ _ A ha hg hx => step_attached A ha hg hx) hpre fun p hp => hg p (hsub.subset hp)
  exact A.live l ch (List.mem_of_mem_head? hch)

/-- Two connections are ready. The first one is closed by its peer, and a client
in the middle of an attempt is destroyed: the second one is still there. -/
theorem no_stale_dispatch_close : ∃ tr s, Run (machine (plain 0)) tr s ∧
    nextConn s 0 = some (.server 2) ∧ ¬ Owned (plain 0) s (.server 1) ∧ (s.client 0).alive = false ∧
    ∀ t, Visited tr s t → ∀ l ch, nextChannel t l = some ch → Live (plain 0) t ch := by
  obtain ⟨r, hr, hn, ho, hc, hg⟩ : ∃ r ∈ (machine (plain 0)).play {}
      [.poll 0 [.acceptor], .acceptor true, .ret 0 .success, .poll 0 [.acceptor], .acceptor true, .ret 0 .success,
        .newClient, .connect 0 (.start .EINPROGRESS), .poll 0 [.conn (.server 1), .conn (.server 2)],
        .handleEvent 0 none .close, .ret 0 .success, .deleteClient 0 0],
      nextConn r.2 0 = some (.server 2) ∧ ¬ Owned (plain 0) r.2 (.server 1) ∧ (r.2.client 0).alive = false ∧
        Meets (Spared (plain 0)) r.1 := by decide +kernel
  have hrun := Machine.play_steps hr
  exact ⟨r.1, r.2, hrun, hn, ho, hc, no_stale_dispatch hrun hg⟩

/-- The message callback of the first one calls `removeConn` for the second one:
the loop is about to handle a channel that has been destroyed. -/
theorem removeConn_stale_dispatch : ∃ tr s, Run (machine (plain 0)) tr s ∧
    enabled (plain 0) s (.handleEvent 0 none .message) ∧ nextChannel s 0 = some (.conn (.server 2)) ∧
    (s.conn (.server 2)).registered = false ∧ ¬ Owned (plain 0) s (.server 2) := by
  obtain ⟨r, hr, he, hn, hreg, ho⟩ : ∃ r ∈ (machine (plain 0)).play {}
      [.poll 0 [.acceptor], .acceptor true, .ret 0 .success, .poll 0 [.acceptor], .acceptor true, .ret 0 .success,
        .poll 0 [.conn (.server 1), .conn (.server 2)], .handleEvent 0 none .message, .removeConn 0 "s#2",
        .ret 0 .success],
      enabled (plain 0) r.2 (.handleEvent 0 none .message) ∧ nextChannel r.2 0 = some (.conn (.server 2)) ∧
        (r.2.conn (.server 2)).registered = false ∧ ¬ Owned (plain 0) r.2 (.server 2) := by decide +kernel
  exact ⟨r.1, r.2, Machine.play_steps hr, he, hn, hreg, ho⟩

/-- A timer's callback destroys the server: the next `poll` still has its acceptor. -/
theorem deleteServer_stale_dispatch : ∃ tr s, Run (machine (plain 0)) tr s ∧
    enabled (plain 0) s (.acceptor true) ∧ nextChannel s 0 = some .acceptor ∧ ¬ Live (plain 0) s .acceptor := by
  obtain ⟨r, hr, he, hn, ha⟩ : ∃ r ∈ (machine (plain 0)).play {}
      [.poll 0 [.timer], .timer 0, .deleteServer 0, .poll 0 [.acceptor]],
      enabled (plain 0) r.2 (.acceptor true) ∧ nextChannel r.2 0 = some .acceptor ∧ r.2.alive = false := by
    decide +kernel
  exact ⟨r.1, r.2, Machine.play_steps hr, he, hn, by simp [Live, ha]⟩

end Cppnetool.TcpThreads
