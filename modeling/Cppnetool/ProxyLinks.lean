import Cppnetool.ConnectorChannel
import Cppnetool.ProxyConnecting
/-!
# The links of a session

A session, its client and the two sides' connections find each other by plain
pointers: `pair_` of a connection, the key in `sessionMap_`, the session that a
callback is bound to. They are set when a session is made and when it is
connected again, and what they point to is there as long as they are followed.
-/
open Lib

namespace Cppnetool.Proxy

open TcpServer (ConnId)
open Connector (Sock Errno Timer load Ready)

variable {name : String} {s s' : St} {a : Act} {c : ConnId} {j k : SessionId} {n : TcpClient.ConnId} {se se' : Session}
  {l : Link} {data : List Byte} {e : Errno} {es : List Errno} {tc tc' : TcpClient.St} {connecting : Bool}

/-- Every open connection belongs to one session of `sessionMap_`, which is
there with its client, as `pair_` says; none outlives its session. Every
connection of a client that is up has the `serverPair_` of its session. -/
structure Linked (name : String) (s : St) : Prop where
  owned : ∀ c, Open s c → ∃! key, ∃ se, s.sessionMap.find key = some se ∧ se.pair = some (.serverPair c)
  client : ∀ c, Open s c → ∃ se, session name s c = some se ∧ se.tcpClient.connector.alive = true ∧
    s.messageCallback c = some c ∧ (s.link c).pair = some (.tcpClient c)
  survives : ∀ c, session name s c = none → ¬ Open s c
  upstream : ∀ k se, session name s k = some se → ∀ n, TcpClient.Established se.tcpClient n →
    (se.upstream n).pair = some (.serverPair k)

/-! ## The client of a session -/

theorem established_congr (h : tc'.conn = tc.conn) : TcpClient.Established tc' n ↔ TcpClient.Established tc n := by
  rw [TcpClient.Established, TcpClient.Established, h]

theorem connect_joined (R : Ready tc.connector) (hr : tc.connector.registered = [])
    (hx : TcpClient.exec tc (.connect e) = some tc') : Ready tc'.connector ∧ tc'.conn = tc.conn := by
  cases hx
  have R' : Ready { tc.connector with connect := true } := ⟨R.alive, R.whole, R.state⟩
  exact ⟨Connector.startInLoop_ready R' hr e, rfl⟩

/-- Only an event that completes an attempt makes a connection, and the channel is then out of the poller. -/
theorem handleEvent_joined (R : Ready tc.connector) {i : Sock} {err out self : Bool} {soError : Int}
    (ha : TcpClient.enabled tc (.connector (.handleEvent i err out soError self))) :
    ∃ tc', TcpClient.exec tc (.connector (.handleEvent i err out soError self)) = some tc' ∧ Ready tc'.connector ∧
      (tc'.connector.calling ≠ none → tc'.connector.registered = []) ∧
      ∀ n, TcpClient.Established tc' n →
        TcpClient.Established tc n ∨ tc'.connector.calling ≠ none ∧ n = tc.nextConnId := by
  obtain ⟨x, hx, Rx, hnil⟩ := Connector.handleEvent_ready R ha.1.2 err out soError self
  have hexec : TcpClient.exec tc (.connector (.handleEvent i err out soError self)) =
      match x.calling with
      | some sockfd => TcpClient.newConnection { tc with connector := x } sockfd
      | none => some { tc with connector := x } := by
    simp only [TcpClient.exec, TcpClient.runConnector, Connector.exec, hx, Option.bind_eq_bind, Option.bind_some]
    cases x.calling <;> rfl
  rw [hexec]
  rcases hcall : x.calling with _ | sockfd
  · exact ⟨_, rfl, Rx, fun h => absurd hcall h, fun _ => .inl⟩
  · have hnew := TcpClient.newConnection_eq { tc with connector := x } sockfd
    refine ⟨_, hnew, Rx, fun h => hnil ha.1.1.1 h, fun n hn => ?_⟩
    rcases (TcpClient.newConnection_established hnew).2.1 hn with rfl | hn
    · exact .inr ⟨by simp [hcall], rfl⟩
    · exact .inl hn

theorem ret_joined (R : Ready tc.connector) (hcall : tc.connector.calling ≠ none)
    (hr : tc.connector.registered = []) :
    ∃ tc', TcpClient.exec tc (.ret e) = some tc' ∧ Ready tc'.connector ∧ tc'.conn = tc.conn := by
  obtain ⟨x, hx, Rx⟩ := Connector.callbackReturns_ready R hr
  refine ⟨{ tc with connector := x }, ?_, Rx, rfl⟩
  simp only [TcpClient.exec, TcpClient.ret, if_pos hcall, TcpClient.runConnector, Connector.exec, hx,
    Option.bind_eq_bind, Option.bind_some]
  rfl

theorem close_joined (W : Wired tc connecting) (he : TcpClient.Established tc n) : ∃ t u v,
    TcpClient.exec tc (.handleClose n) = some t ∧ TcpClient.exec t (.ret .success) = some u ∧
      TcpClient.exec u (.ret .success) = some v := by
  have hn := W.only n he
  have hcall := W.polling.1
  have hup : (tc.conn n).state = .kConnected ∨ (tc.conn n).state = .kDisconnecting := he
  refine ⟨{ tc with frame := some (.closing n) }, { tc with
    frame := some (.destroyed n)
    conn := Function.update tc.conn n { tc.conn n with state := .kDisconnected } }, { tc with
    state := false
    connection := none
    frame := none
    conn := Function.update tc.conn n { tc.conn n with state := .kDisconnected } }, ?_, ?_, ?_⟩
  · simp only [TcpClient.exec, TcpClient.removeConnection, W.hasClose, if_true]
  · simp only [TcpClient.exec, TcpClient.ret, hcall, ne_eq, not_true_eq_false, if_false, TcpClient.destroyConnection,
      hn, TcpClient.connectDestroyed]
    rw [some_bind, assert_bind hup]
    rfl
  · simp only [TcpClient.exec, TcpClient.ret, hcall, ne_eq, not_true_eq_false, if_false, TcpClient.connectionDestroyed,
      W.retry]
    rw [assert_bind hn]
    rfl

theorem timers_joined (W : Wired tc connecting) (R : Ready tc.connector) {ts rest : List Timer}
    (ha : TcpClient.enabled tc (.connector (.expire ts rest))) (hl : es.length = ts.length) :
    ∃ t tc', TcpClient.exec tc (.connector (.expire ts rest)) = some t ∧ runTimers t es = some tc' ∧
      Ready tc'.connector ∧ tc'.conn = tc.conn := by
  have R' : Ready { tc.connector with expired := ts, waiting := rest } := ⟨R.alive, R.whole, R.state⟩
  refine ⟨{ tc with connector := { tc.connector with expired := ts, waiting := rest } }, ?_⟩
  rcases W.one_timer ha hl with rfl | ⟨e, rfl, -, hr, -⟩
  · exact ⟨_, rfl, rfl, R', rfl⟩
  · obtain ⟨t, rfl⟩ := List.length_eq_one_iff.1 hl.symm
    have R'' : Ready { tc.connector with expired := [], waiting := rest } := ⟨R.alive, R.whole, R.state⟩
    refine ⟨{ tc with connector := Connector.startInLoop { tc.connector with expired := [], waiting := rest } e }, rfl,
      ?_, Connector.startInLoop_ready R'' hr e, rfl⟩
    simp only [runTimers, TcpClient.exec, TcpClient.runConnector, Connector.exec, Connector.runTimer]
    rw [assert_bind R.alive]
    rfl

theorem deleteTcpClient_joined (W : Wired tc connecting) (R : Ready tc.connector) : deleteTcpClient tc = some () := by
  obtain ⟨x, hx⟩ := Connector.destroy_ready R
  have hd : Connector.exec tc.connector .destroy = some x := hx
  rcases hc : tc.connection with _ | n
  · have hst : tc.state = false := by rw [W.state, hc]; rfl
    simp [deleteTcpClient, hst, hd]
  · have hst : tc.state = true := by rw [W.state, hc]; rfl
    have hup := (W.last n hc).1
    simp [deleteTcpClient, hst, hc, hd, TcpClient.connectDestroyed, TcpClient.shutdown, hup, assert]

/-! ## Handlers -/

/-- The links that a session has. -/
structure Joined (k : SessionId) (se : Session) : Prop where
  pair : se.pair = some (.serverPair k)
  upstream : ∀ n, TcpClient.Established se.tcpClient n →
    (se.upstream n).pair = some (.serverPair k) ∧ (se.upstream n).inputBuffer.Wf
  ready : Ready se.tcpClient.connector

theorem onTcpClientConnection_some (hse : session name s k = some se)
    (hp : (se.upstream n).pair = some (.serverPair k)) : ∃ s', onTcpClientConnection name s k n = some s' := by
  simp only [onTcpClientConnection, hse, Option.bind_eq_bind, Option.bind_some]
  split
  · rw [hp, Option.bind_some, assert, if_pos rfl, Option.bind_some]
    split <;> exact ⟨_, rfl⟩
  · exact ⟨_, rfl⟩

theorem onTcpClientMessage_some (hse : session name s k = some se)
    (hp : (se.upstream n).pair = some (.serverPair k)) : ∃ s', onTcpClientMessage name s k n = some s' := by
  simp only [onTcpClientMessage, hse, Option.bind_eq_bind, Option.bind_some]
  rw [hp, Option.bind_some, assert, if_pos rfl, Option.bind_some]
  split <;> exact ⟨_, rfl⟩

theorem onTcpServerMessage_some (hse : session name s k = some se) (W : Wired se.tcpClient se.connecting)
    (hp : (s.link c).pair = some (.tcpClient k)) : ∃ s', onTcpServerMessage name s k c e = some s' := by
  simp only [onTcpServerMessage, hse, Option.bind_eq_bind, Option.bind_some]
  rw [assert, if_pos hp, Option.bind_some, getTcpClientConn_eq W, Option.bind_some]
  split
  · exact ⟨_, rfl⟩
  · split
    · exact ⟨_, rfl⟩
    · exact ⟨_, rfl⟩

theorem readFd_some (hw : l.inputBuffer.Wf) (data : List Byte) : ∃ l', l.readFd data = some l' := by
  obtain ⟨r, b, hb, -⟩ := Buffer.readFd_spec hw (.ok data)
  refine ⟨{ l with inputBuffer := b, received := l.received ++ data }, ?_⟩
  rw [Link.readFd, hb]
  rfl

/-! ## No event fails -/

theorem newSession_some (hf : s.server.connections.find (clientName name c) = some (some c)) :
    ∃ s', newSession name s c e = some s' ∧ s'.server = s.server := by
  have hg : getConn s (clientName name c) = (some c, s) := by simp [getConn, TcpServer.getConn, hf]
  simp only [newSession, hg, Option.bind_eq_bind, Option.bind_some]
  exact ⟨_, rfl, rfl⟩

theorem newConnection_some (s : St) (e : Errno) : ∃ s', newConnection name s e = some s' := by
  obtain ⟨server, hnew, hst, hf, hstack⟩ : ∃ server, TcpServer.newConnection (s.config name) s.server = some server ∧
      (server.conn s.server.nextConnId).state = .kConnected ∧
      server.connections.find (clientName name s.server.nextConnId) = some (some s.server.nextConnId) ∧
      server.stack 0 = .established s.server.nextConnId :: s.server.stack 0 :=
    ⟨_, server_newConnection _ rfl _, by simp, Map.find_insert_self, by simp⟩
  obtain ⟨t, ht, hs⟩ := newSession_some (s := { setLink s s.server.nextConnId {} with server }) (e := e) hf
  have hup : onTcpServerConnection name { setLink s s.server.nextConnId {} with server } s.server.nextConnId e =
      some t := (if_pos hst).trans ht
  rw [newConnection, hnew, some_bind, hup, some_bind, TcpServer.ret, hs]
  simp only [hstack]
  exact ⟨_, rfl⟩

theorem clientMessage_some (C : Conserved name s) (hc : Open s c) : ∃ s', clientMessage name s c data e = some s' := by
  obtain ⟨se, hse⟩ := Option.ne_none_iff_exists'.1 (C.served.alive c hc)
  obtain ⟨hcb, hp⟩ := C.served.bound c hc
  obtain ⟨l, hl⟩ := readFd_some (C.relays c se hse hc).wf data
  have hp' : ((setLink s c l).link c).pair = some (.tcpClient c) := by
    rw [link_setLink, readFd_pair hl]
    exact hp
  rw [clientMessage, hl, some_bind, hcb, some_bind]
  exact onTcpServerMessage_some (s := setLink s c l) hse (C.wired c se hse) hp'

/-- `connectDestroyed` of a connection that is up, its callback, and `erase`. -/
theorem connectDestroyed_some (cfg : TcpServer.Config) (server : TcpServer.St)
    (hst : (server.conn c).state = .kConnected ∨ (server.conn c).state = .kDisconnecting)
    (hf : server.connections.find (TcpServer.connName cfg c) = some (some c)) : ∃ t,
    TcpServer.connectDestroyed server 0 c = some t ∧ t.stack 0 ≠ [] ∧ ∃ u, TcpServer.ret cfg t 0 = some u := by
  refine ⟨_, assert_bind hst, by simp [TcpServer.callBack], ?_⟩
  simp only [TcpServer.ret, TcpServer.callBack, Function.update_self, TcpServer.eraseConn]
  exact ⟨_, assert_bind (by rw [hf]; simp)⟩

theorem clientClose_some (S : Served name s) (hc : Open s c) : ∃ s', clientClose name s c = some s' := by
  have hn := S.newest c hc
  let server : TcpServer.St := { s.server with
    conn := Function.update s.server.conn c { s.server.conn c with watched := false } }
  have hclose : TcpServer.handleClose (s.config name) s.server 0 c =
      some (TcpServer.callBack server 0 (.closing c)) := by
    simp [TcpServer.handleClose, TcpServer.removeConnectionInLoop, St.config, hn, server]
  have hret : ∀ cfg, TcpServer.ret cfg (TcpServer.callBack server 0 (.closing c)) 0 =
      TcpServer.connectDestroyed server 0 c := by
    intro cfg
    simp [TcpServer.ret, TcpServer.callBack]
  have hst : (server.conn c).state = .kConnected := by
    simpa [server] using (show (s.server.conn c).state = .kConnected from hc)
  obtain ⟨t, ht, -, u, hu⟩ := connectDestroyed_some (s.config name) server (.inl hst) (S.entry c hc)
  rw [clientClose, hclose, some_bind]
  split
  · exact ⟨_, Option.bind_eq_some_iff.2 ⟨t, (hret _).trans ht, Option.bind_eq_some_iff.2 ⟨u, hu, rfl⟩⟩⟩
  · rename_i hnone
    rw [hn] at hnone
    cases hnone

theorem removeConn_some (S : Served name s) (k : SessionId) :
    ∃ s', removeConn name s (clientName name k) = some s' := by
  have hg : TcpServer.getConn s.server (clientName name k) =
      (if Open s k then some k else none, (getConn s (clientName name k)).2.server) := Prod.ext (S.getConn_fst k) rfl
  rw [removeConn, TcpServer.removeConn, hg]
  by_cases ho : Open s k
  · have hs : (getConn s (clientName name k)).2 = s := by simp [getConn, TcpServer.getConn, S.entry k ho]
    have hst : (s.server.conn k).state = .kConnected := ho
    rw [if_pos ho, hs]
    dsimp only
    rw [if_pos hst]
    obtain ⟨t, ht, hne, u, hu⟩ := connectDestroyed_some (s.config name) { s.server with
      conn := Function.update s.server.conn k { s.server.conn k with state := .kDisconnecting } }
      (.inr (by simp)) (S.entry k ho)
    rw [ht, some_bind, if_neg hne, hu]
    exact ⟨_, rfl⟩
  · rw [if_neg ho]
    have hk : Keeps name k s (getConn s (clientName name k)).2 := keeps_getConn k s _
    rw [some_bind, if_pos (by rw [hk.stack]; exact S.idle)]
    exact ⟨_, rfl⟩

/-! ## Steps -/

/-- What the proxy keeps of its sessions: each has the key of its connection and its links. -/
structure Tied (name : String) (s : St) : Prop where
  conserved : Conserved name s
  keyed : ∀ key se, s.sessionMap.find key = some se → ∃ k, key = sessionName name k
  joined : ∀ k se, session name s k = some se → Joined k se

theorem tied_init : Tied name (machine name).init where
  conserved := conserved_init
  keyed _ _ h := by cases h
  joined _ _ h := by cases h

theorem upstreamMessage_some (T : Tied name s) (hse : session name s k = some se)
    (he : TcpClient.Established se.tcpClient n) : ∃ s', upstreamMessage name s k n data = some s' := by
  obtain ⟨hp, hw⟩ := (T.joined k se hse).upstream n he
  obtain ⟨l, hl⟩ := readFd_some hw data
  rw [upstreamMessage, hse, some_bind, hl, some_bind]
  refine onTcpClientMessage_some session_setSession ?_
  rw [upstream_setUpstream, readFd_pair hl]
  exact hp

theorem connectorEvent_some (T : Tied name s) {i : Sock} {err out self : Bool} {soError : Int}
    (hse : session name s k = some se)
    (ha : TcpClient.enabled se.tcpClient (.connector (.handleEvent i err out soError self))) :
    ∃ s', connectorEvent name s k i err out soError self = some s' := by
  have J := T.joined k se hse
  obtain ⟨t, ht, R, hnil, -⟩ := handleEvent_joined J.ready ha
  rw [connectorEvent, hse, some_bind, ht, some_bind]
  split
  · exact ⟨_, rfl⟩
  · rename_i hcall
    let se₀ := { se with tcpClient := t }.setUpstream se.tcpClient.nextConnId { pair := se.pair }
    have hk : Keeps name k s (setSession name s k se₀) := keeps_setSession s k _
    have hse₀ : session name (setSession name s k se₀) k = some se₀ := session_setSession
    have hp : (se₀.upstream se.tcpClient.nextConnId).pair = some (.serverPair k) := by
      rw [upstream_setUpstream]
      exact J.pair
    obtain ⟨u, hu⟩ := onTcpClientConnection_some hse₀ hp
    obtain ⟨-, -, se', hse', -, -, htc, -⟩ := onTcpClientConnection_spec (hk.served T.conserved.served) hse₀ hu
    obtain ⟨v, hv, -⟩ := ret_joined (e := .success) R hcall (hnil hcall)
    refine ⟨setSession name u k { se' with tcpClient := v }, Option.bind_eq_some_iff.2 ⟨u, hu, ?_⟩⟩
    rw [hse', some_bind, show se'.tcpClient = t from htc, hv]
    rfl

theorem step_some (T : Tied name s) (ha : enabled name s a) : ∃ s', exec name s a = some s' := by
  have C := T.conserved
  cases a with
  | tick now => exact ⟨_, rfl⟩
  | newConnection e => exact newConnection_some s e
  | clientMessage c data e => exact clientMessage_some C (C.served.watched c ha.1)
  | clientClose c => exact clientClose_some C.served (C.served.watched c ha)
  | connectorEvent k i err out soError self =>
    obtain ⟨se, hse, ha⟩ := ha
    exact connectorEvent_some T hse ha
  | upstreamMessage k n data =>
    obtain ⟨-, se, hse, he⟩ := ha
    exact upstreamMessage_some T hse he
  | upstreamClose k n =>
    obtain ⟨se, hse, ha⟩ := ha
    obtain ⟨t, u, v, ht, hu, hv⟩ := close_joined (C.wired k se hse) ha.2.2
    refine ⟨setSession name s k { se with tcpClient := v }, ?_⟩
    rw [exec, upstreamClose, hse, some_bind, ht, some_bind, hu, some_bind, hv]
    rfl
  | timers k ts rest es =>
    obtain ⟨hl, se, hse, ha⟩ := ha
    obtain ⟨t, u, ht, hu, -⟩ := timers_joined (C.wired k se hse) (T.joined k se hse).ready ha hl
    refine ⟨setSession name s k { se with tcpClient := u }, ?_⟩
    rw [exec, timers, hse, some_bind, ht, some_bind, hu]
    rfl
  | expire k =>
    obtain ⟨se, hse, -⟩ := ha
    obtain ⟨t, ht⟩ := removeConn_some C.served k
    refine ⟨{ t with sessionMap := t.sessionMap.erase (sessionName name k) }, ?_⟩
    rw [exec, eraseSession, hse, some_bind, ht, some_bind,
      deleteTcpClient_joined (C.wired k se hse) (T.joined k se hse).ready]
    rfl

theorem Joined.congr (J : Joined k se) (hp : se'.pair = se.pair) (hl : se.Links se')
    (he : ∀ n, TcpClient.Established se'.tcpClient n → TcpClient.Established se.tcpClient n)
    (R : Ready se'.tcpClient.connector) : Joined k se' where
  pair := hp.trans J.pair
  upstream n hn := by
    obtain ⟨h1, h2⟩ := J.upstream n (he n hn)
    exact ⟨(hl n).1.trans h1, (hl n).2 h2⟩
  ready := R

/-- A step of session `k` leaves the others alone. -/
theorem Tied.keeps (T : Tied name s) (C' : Conserved name s') (h : Keeps name k s s')
    (hse : session name s' k = some se) (J : Joined k se) : Tied name s' := by
  refine ⟨C', ?_, ?_⟩
  · intro key se' hkey
    by_cases hk : key = sessionName name k
    · exact ⟨k, hk⟩
    · rw [h.entries key hk] at hkey
      exact T.keyed key se' hkey
  · exact forall_session h.other hse J fun j se' _ => T.joined j se'

theorem newConnection_tied (T : Tied name s) (C' : Conserved name s') (hx : newConnection name s e = some s') :
    Tied name s' := by
  obtain ⟨h, se, hse, hp, -, hu, ht⟩ := newConnection_spec hx
  have J : Joined s.server.nextConnId se := by
    obtain ⟨R, hconn⟩ := connect_joined (Connector.ready_of_idle rfl rfl (fun h => by cases h)) rfl ht
    refine ⟨hp, fun n hn => ?_, R⟩
    have hn := (established_congr hconn).1 hn
    simp [TcpClient.Established] at hn
  refine ⟨C', ?_, ?_⟩
  · intro key se' hkey
    by_cases hk : key = sessionName name s.server.nextConnId
    · exact ⟨_, hk⟩
    · rw [h.entries key hk] at hkey
      exact T.keyed key se' hkey
  · exact forall_session h.other hse J fun j se' _ => T.joined j se'

theorem clientMessage_tied (T : Tied name s) (C' : Conserved name s') (hc : Open s c)
    (hx : clientMessage name s c data e = some s') : Tied name s' := by
  have C := T.conserved
  obtain ⟨l, -, hk, hx⟩ := clientMessage_spec C.served hc hx
  obtain ⟨se, hse⟩ := Option.ne_none_iff_exists'.1 (C.served.alive c hc)
  have J := T.joined c se hse
  have W := C.wired c se hse
  obtain ⟨hk', se', hse', hp, hl, h⟩ := onTcpServerMessage_spec (s := setLink s c l) hse hx
  refine T.keeps C' (hk.trans hk') hse' ?_
  have same : se'.tcpClient = se.tcpClient → Joined c se' := fun htc =>
    J.congr hp hl (by rw [htc]; exact fun _ => id) (by rw [htc]; exact J.ready)
  rcases h with ⟨n, -, -, htc, -⟩ | ⟨-, -, -, -, htc⟩
  · exact same htc
  · split at htc
    · exact same htc
    · rename_i hcon
      rw [Bool.eq_false_iff.2 hcon] at W
      obtain ⟨hr, -⟩ := Connector.load_eq_zero.1 (Nat.le_zero.1 W.attempts)
      obtain ⟨R, hconn⟩ := connect_joined J.ready hr htc
      exact J.congr hp hl (fun n => (established_congr hconn).1) R

/-- The connection that the client is given has the pair of its session. -/
theorem connectorEvent_tied (T : Tied name s) (C' : Conserved name s') {i : Sock} {err out self : Bool}
    {soError : Int} (hse : session name s k = some se)
    (ha : TcpClient.enabled se.tcpClient (.connector (.handleEvent i err out soError self)))
    (hx : connectorEvent name s k i err out soError self = some s') : Tied name s' := by
  have J := T.joined k se hse
  obtain ⟨t, ht, h⟩ := connectorEvent_spec T.conserved.served hse hx
  obtain ⟨t', ht', R, hnil, hest⟩ := handleEvent_joined J.ready ha
  rw [ht] at ht'
  cases ht'
  rcases h with ⟨hcall, rfl⟩ | ⟨hcall, hk, -, se', hse', hp, hl, hv, -⟩
  · refine T.keeps C' (keeps_setSession s k _) session_setSession
      (J.congr rfl (fun _ => ⟨rfl, id⟩) (fun n hn => ?_) R)
    exact (hest n hn).resolve_right fun h => h.1 hcall
  · obtain ⟨v, hv', R', hconn⟩ := ret_joined (e := .success) R hcall (hnil hcall)
    rw [hv] at hv'
    cases hv'
    refine T.keeps C' hk hse' ⟨hp.trans J.pair, fun n hn => ?_, R'⟩
    obtain ⟨h1, h2⟩ := hl n
    by_cases hne : n = se.tcpClient.nextConnId
    · subst hne
      rw [upstream_setUpstream] at h1 h2
      exact ⟨h1.trans J.pair, h2 Buffer.new_wf⟩
    · rw [upstream_setUpstream_ne hne] at h1 h2
      have hn := (hest n ((established_congr hconn).1 hn)).resolve_right fun h => hne h.2
      obtain ⟨h3, h4⟩ := J.upstream n hn
      exact ⟨h1.trans h3, h2 h4⟩

theorem Tied.closes (T : Tied name s) (C' : Conserved name s')
    (hs : ∀ key se, s'.sessionMap.find key = some se → s.sessionMap.find key = some se) : Tied name s' where
  conserved := C'
  keyed key se h := T.keyed key se (hs key se h)
  joined k se h := T.joined k se (hs _ se h)

theorem step_tied (T : Tied name s) (ha : enabled name s a) (hx : exec name s a = some s') : Tied name s' := by
  have C := T.conserved
  have C' := step_conserved C ha hx
  cases a with
  | tick now =>
    cases hx
    exact ⟨C', T.keyed, T.joined⟩
  | newConnection e => exact newConnection_tied T C' hx
  | clientMessage c data e => exact clientMessage_tied T C' (C.served.watched c ha.1) hx
  | clientClose c =>
    obtain ⟨-, hs, -⟩ := clientClose_spec C.served (C.served.watched c ha) hx
    refine T.closes C' fun key se h => ?_
    rw [hs] at h
    exact h
  | connectorEvent k i err out soError self =>
    obtain ⟨se, hse, ha⟩ := ha
    exact connectorEvent_tied T C' hse ha hx
  | upstreamMessage k n data =>
    obtain ⟨-, se, hse, -⟩ := ha
    have J := T.joined k se hse
    obtain ⟨h, -, -, se', hse', hp, hl, htc, -⟩ := upstreamMessage_spec C.served hse hx
    exact T.keeps C' h hse' (J.congr hp hl (by rw [htc]; exact fun _ => id) (by rw [htc]; exact J.ready))
  | upstreamClose k n =>
    obtain ⟨se, hse, ha⟩ := ha
    have J := T.joined k se hse
    obtain ⟨t, u, v, ht, hu, hv, rfl⟩ := upstreamClose_spec hse hx
    obtain ⟨W, hnone, -, hk⟩ := (C.wired k se hse).close ha.2.2 ht hu hv
    have hdown : ∀ m, ¬ TcpClient.Established v m := by
      intro m hm
      have := W.only m hm
      rw [hnone] at this
      cases this
    exact T.keeps C' (keeps_setSession s k _) session_setSession
      (J.congr rfl (fun _ => ⟨rfl, id⟩) (fun m hm => absurd hm (hdown m)) (by rw [hk]; exact J.ready))
  | timers k ts rest es =>
    obtain ⟨hl, se, hse, ha⟩ := ha
    have J := T.joined k se hse
    obtain ⟨t, u, ht, hu, rfl⟩ := timers_spec hse hx
    obtain ⟨t', u', ht', hu', R, hconn⟩ := timers_joined (C.wired k se hse) J.ready ha hl
    rw [ht] at ht'
    cases ht'
    rw [hu] at hu'
    cases hu'
    exact T.keeps C' (keeps_setSession s k _) session_setSession
      (J.congr rfl (fun _ => ⟨rfl, id⟩) (fun m => (established_congr hconn).1) R)
  | expire k =>
    obtain ⟨h, hnone, -⟩ := eraseSession_spec C.served hx
    refine T.closes C' fun key se hkey => ?_
    by_cases hk : key = sessionName name k
    · rw [hk] at hkey
      rw [session, hkey] at hnone
      cases hnone
    · rw [← h.entries key hk]
      exact hkey

theorem tied_run {tr : List (St × Act)} (h : Run (machine name) tr s) : Tied name s :=
  h.inv (Tied name) tied_init fun _ _ _ T ha hx => step_tied T ha hx

/-! ## Runs -/

/-- The key of a session's entry is the name of the connection that its `serverPair_` has. -/
theorem Tied.key_eq (T : Tied name s) {key : String} (hse : s.sessionMap.find key = some se)
    (hp : se.pair = some (.serverPair c)) : key = sessionName name c := by
  obtain ⟨k, rfl⟩ := T.keyed key se hse
  have h := (T.joined k se hse).pair
  rw [hp] at h
  cases h
  rfl

theorem Tied.linked (T : Tied name s) : Linked name s where
  owned c hc := by
    obtain ⟨se, hse⟩ := Option.ne_none_iff_exists'.1 (T.conserved.served.alive c hc)
    refine ⟨sessionName name c, ⟨se, hse, (T.joined c se hse).pair⟩, ?_⟩
    rintro key ⟨se', hse', hp⟩
    exact T.key_eq hse' hp
  client c hc := by
    obtain ⟨se, hse⟩ := Option.ne_none_iff_exists'.1 (T.conserved.served.alive c hc)
    exact ⟨se, hse, (T.joined c se hse).ready.alive, T.conserved.served.bound c hc⟩
  survives c hnone hc := T.conserved.served.alive c hc hnone
  upstream k se hse n hn := ((T.joined k se hse).upstream n hn).1

/-- In every state that the proxy reaches its sessions are linked, and no event
that may come fails, at an assert or at a pointer to what is gone. -/
theorem sessions_linked {tr : List (St × Act)} (h : Run (machine name) tr s) :
    Linked name s ∧ ∀ a, enabled name s a → exec name s a ≠ none := by
  have T := tied_run h
  refine ⟨T.linked, fun a ha hnone => ?_⟩
  obtain ⟨s', hx⟩ := step_some T ha
  rw [hnone] at hx
  cases hx

/-- Two clients. The first has been connected, lost its upstream connection and
been connected again; the second is closed, and its session is erased. -/
theorem sessions_linked_reconnect : ∃ tr s, Run (machine "0.0.0.0:8000") tr s ∧ Open s 1 ∧
    session "0.0.0.0:8000" s 2 = none ∧
    (∃ se ∈ session "0.0.0.0:8000" s 1, TcpClient.Established se.tcpClient 2) ∧ Linked "0.0.0.0:8000" s ∧
    ∀ a, enabled "0.0.0.0:8000" s a → exec "0.0.0.0:8000" s a ≠ none := by
  obtain ⟨r, hr, h1, h2, h3⟩ : ∃ r ∈ (machine "0.0.0.0:8000").play (machine "0.0.0.0:8000").init
      [.newConnection .EINPROGRESS, .newConnection .EINPROGRESS, .connectorEvent 1 0 false true 0 false,
        .connectorEvent 2 0 false true 0 false, .upstreamClose 1 1, .clientClose 2, .upstreamMessage 2 1 [7],
        .tick 5000000, .clientMessage 1 [1] .EINPROGRESS, .connectorEvent 1 1 false true 0 false, .tick 7000000,
        .expire 2],
      Open r.2 1 ∧ (session "0.0.0.0:8000" r.2 2).isNone ∧
      ∃ se ∈ session "0.0.0.0:8000" r.2 1, TcpClient.Established se.tcpClient 2 := by decide +kernel
  have hrun := Machine.play_steps hr
  exact ⟨r.1, r.2, hrun, h1, Option.isNone_iff_eq_none.1 h2, h3, sessions_linked hrun⟩

end Cppnetool.Proxy
