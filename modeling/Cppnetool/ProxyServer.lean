import Cppnetool.Lib.Runs
import Cppnetool.Proxy
/-!
# What the proxy keeps

What there is for a connection that is open: its entry at the server, its
session, and the session that its messages go to are its own. Its close goes
to the session that was made last, as there is one close callback for the
server. A step of a session leaves the others alone.
-/
open Lib

namespace Cppnetool.Proxy

open TcpConnection (StateE)
open TcpServer (ConnId)
open Connector (Sock Errno Timer)

variable {name : String} {s s' t : St} {a : Act} {c d : ConnId} {j k : SessionId} {n : TcpClient.ConnId} {se : Session}
  {l : Link} {data : List Byte} {e : Errno}

def Open (s : St) (c : ConnId) : Prop := (s.server.conn c).state = .kConnected

instance : Decidable (Open s c) := inferInstanceAs (Decidable (_ = _))

theorem clientName_injective : Function.Injective (clientName name) := TcpServer.connName_injective _

theorem sessionName_injective : Function.Injective (sessionName name) := by
  intro j k h
  have h := congrArg String.toList h
  simp only [sessionName, String.toList_append, List.append_cancel_left_eq] at h
  exact clientName_injective (String.toList_inj.1 h : clientName name j = clientName name k)

/-! ## What a session touches -/

@[simp] theorem session_setSession : session name (setSession name s k se) k = some se := Map.find_insert_self

theorem session_setSession_ne (h : j ≠ k) : session name (setSession name s k se) j = session name s j :=
  Map.find_insert_ne fun hn => h (sessionName_injective hn)

/-- What holds of every session but one, and of that one in the new state. -/
theorem forall_session {P : SessionId → Session → Prop} (other : ∀ j, j ≠ k → session name s' j = session name s j)
    (hse : session name s' k = some se) (hk : P k se)
    (h : ∀ j se, j ≠ k → session name s j = some se → P j se) : ∀ j se, session name s' j = some se → P j se := by
  intro j se' hj
  by_cases hjk : j = k
  · subst hjk
    rw [hse] at hj
    cases hj
    exact hk
  · rw [other j hjk] at hj
    exact h j se' hjk hj

/-- What the handlers of session `k` leave as it was. -/
structure Keeps (name : String) (k : SessionId) (s s' : St) : Prop where
  conn : s'.server.conn = s.server.conn
  nextConnId : s'.server.nextConnId = s.server.nextConnId
  stack : s'.server.stack = s.server.stack
  found : ∀ n c, s'.server.connections.find n = some (some c) ↔ s.server.connections.find n = some (some c)
  messageCallback : s'.messageCallback = s.messageCallback
  closeCallback : s'.closeCallback = s.closeCallback
  notified : s'.notified = s.notified
  link : ∀ c, c ≠ k → s'.link c = s.link c
  pair : (s'.link k).pair = (s.link k).pair
  other : ∀ j, j ≠ k → session name s' j = session name s j
  entries : ∀ key, key ≠ sessionName name k → s'.sessionMap.find key = s.sessionMap.find key
  alive : session name s k ≠ none → session name s' k ≠ none

theorem Keeps.refl (k : SessionId) (s : St) : Keeps name k s s :=
  ⟨rfl, rfl, rfl, fun _ _ => Iff.rfl, rfl, rfl, rfl, fun _ _ => rfl, rfl, fun _ _ => rfl, fun _ _ => rfl, id⟩

theorem Keeps.trans (h : Keeps name k s t) (h' : Keeps name k t s') : Keeps name k s s' where
  conn := h'.conn.trans h.conn
  nextConnId := h'.nextConnId.trans h.nextConnId
  stack := h'.stack.trans h.stack
  found n c := (h'.found n c).trans (h.found n c)
  messageCallback := h'.messageCallback.trans h.messageCallback
  closeCallback := h'.closeCallback.trans h.closeCallback
  notified := h'.notified.trans h.notified
  link c hc := (h'.link c hc).trans (h.link c hc)
  pair := h'.pair.trans h.pair
  other j hj := (h'.other j hj).trans (h.other j hj)
  entries key hk := (h'.entries key hk).trans (h.entries key hk)
  alive hk := h'.alive (h.alive hk)

theorem keeps_setSession (s : St) (k : SessionId) (se : Session) : Keeps name k s (setSession name s k se) := by
  refine { (Keeps.refl k s : Keeps name k s s) with other := ?_, entries := ?_, alive := ?_ }
  · intro j hj
    exact session_setSession_ne hj
  · intro key hk
    exact Map.find_insert_ne hk
  · intro _
    simp

theorem keeps_setLink (h : l.pair = (s.link k).pair) : Keeps name k s (setLink s k l) :=
  { Keeps.refl k s with
    link := fun _ hc => Function.update_of_ne hc _ _
    pair := by simpa [setLink] using h }

theorem getConn_found (s : St) (connName : String) :
    (getConn s connName).1 = (s.server.connections.find connName).join := by
  rcases h : s.server.connections.find connName with _ | c <;> simp [getConn, TcpServer.getConn, h]

theorem keeps_set (h : l.pair = (s.link k).pair) : Keeps name k s (setSession name (setLink s k l) k se) :=
  (keeps_setLink h).trans (keeps_setSession _ _ _)

theorem keeps_getConn (k : SessionId) (s : St) (connName : String) : Keeps name k s (getConn s connName).2 := by
  rcases h : s.server.connections.find connName with _ | c
  · have hs : (getConn s connName).2 =
        { s with server := { s.server with connections := s.server.connections.insert connName none } } := by
      simp [getConn, TcpServer.getConn, h]
    rw [hs]
    refine { (Keeps.refl k s : Keeps name k s s) with found := ?_ }
    intro m c
    dsimp only
    by_cases hm : m = connName
    · subst hm
      simp [h]
    · rw [Map.find_insert_ne hm]
  · have hs : (getConn s connName).2 = s := by simp [getConn, TcpServer.getConn, h]
    rw [hs]
    exact Keeps.refl k s

theorem Keeps.open_iff (h : Keeps name k s s') : Open s' c ↔ Open s c := by rw [Open, Open, h.conn]

/-! ## What the proxy keeps -/

/-- Between two events, what there is for a connection that is open. -/
structure Served (name : String) (s : St) : Prop where
  idle : s.server.stack 0 = []
  watched : ∀ c, (s.server.conn c).watched = true → Open s c
  fresh : ∀ c, Open s c → c < s.server.nextConnId
  entry : ∀ c, Open s c → s.server.connections.find (clientName name c) = some (some c)
  named : ∀ n c, s.server.connections.find n = some (some c) → n = clientName name c ∧ Open s c
  alive : ∀ c, Open s c → session name s c ≠ none
  bound : ∀ c, Open s c → s.messageCallback c = some c ∧ (s.link c).pair = some (.tcpClient c)
  /-- The close callback is bound to the session that was made last. -/
  newest : ∀ c, Open s c → s.closeCallback = some (s.server.nextConnId - 1)

theorem served_init : Served name (machine name).init where
  idle := rfl
  watched _ h := by cases h
  fresh _ h := by cases h
  entry _ h := by cases h
  named _ _ h := by cases h
  alive _ h := by cases h
  bound _ h := by cases h
  newest _ h := by cases h

/-- `getConn` of a session's connection, which it finds only while that is open. -/
theorem Served.getConn_fst (S : Served name s) (k : SessionId) :
    (getConn s (clientName name k)).1 = if Open s k then some k else none := by
  rw [getConn_found]
  by_cases ho : Open s k
  · rw [S.entry k ho, if_pos ho]
    rfl
  · rw [if_neg ho]
    rcases h : s.server.connections.find (clientName name k) with _ | _ | c
    · rfl
    · rfl
    · obtain ⟨hn, hc⟩ := S.named _ c h
      rw [clientName_injective hn] at ho
      exact absurd hc ho

theorem Keeps.served (h : Keeps name k s s') (S : Served name s) : Served name s' where
  idle := by rw [h.stack]; exact S.idle
  watched c hc := by
    rw [h.conn] at hc
    exact h.open_iff.2 (S.watched c hc)
  fresh c hc := by
    rw [h.nextConnId]
    exact S.fresh c (h.open_iff.1 hc)
  entry c hc := (h.found _ _).2 (S.entry c (h.open_iff.1 hc))
  named n c hn := by
    rw [h.open_iff]
    exact S.named n c ((h.found n c).1 hn)
  alive c hc := by
    by_cases hk : c = k
    · subst hk
      exact h.alive (S.alive c (h.open_iff.1 hc))
    · rw [h.other c hk]
      exact S.alive c (h.open_iff.1 hc)
  bound c hc := by
    obtain ⟨h1, h2⟩ := S.bound c (h.open_iff.1 hc)
    refine ⟨by rw [h.messageCallback]; exact h1, ?_⟩
    by_cases hk : c = k
    · subst hk
      rw [h.pair]
      exact h2
    · rw [h.link c hk]
      exact h2
  newest c hc := by
    rw [h.closeCallback, h.nextConnId]
    exact S.newest c (h.open_iff.1 hc)

/-! ## Handlers -/

/-- What the handlers keep of the upstream connections: `pair_`, and a buffer
that is well formed. -/
def Session.Links (se se' : Session) : Prop := ∀ m, (se'.upstream m).pair = (se.upstream m).pair ∧
  ((se.upstream m).inputBuffer.Wf → (se'.upstream m).inputBuffer.Wf)

theorem Session.Links.trans {se' se₂ : Session} (h : se.Links se') (h' : se'.Links se₂) : se.Links se₂ :=
  fun m => ⟨(h' m).1.trans (h m).1, fun hw => (h' m).2 ((h m).2 hw)⟩

@[simp] theorem upstream_setUpstream : (se.setUpstream n l).upstream n = l := Function.update_self ..

theorem upstream_setUpstream_ne {m : TcpClient.ConnId} (h : m ≠ n) : (se.setUpstream n l).upstream m = se.upstream m :=
  Function.update_of_ne h ..

theorem links_setUpstream (hp : l.pair = (se.upstream n).pair)
    (hw : (se.upstream n).inputBuffer.Wf → l.inputBuffer.Wf) : se.Links (se.setUpstream n l) := by
  intro m
  by_cases hm : m = n
  · rw [hm, upstream_setUpstream]
    exact ⟨hp, hw⟩
  · rw [upstream_setUpstream_ne hm]
    exact ⟨rfl, id⟩

@[simp] theorem link_setLink : (setLink s c l).link c = l := Function.update_self ..

theorem retrieveAsString_pair (l : Link) : l.retrieveAsString.2.pair = l.pair := rfl

theorem retrieveAsString_wf (h : l.inputBuffer.Wf) : l.retrieveAsString.2.inputBuffer.Wf := Buffer.retrieveAll_wf h

theorem send_spec (l : Link) (state : StateE) (message : List Byte) : (l.send state message).pair = l.pair ∧
    (l.send state message).inputBuffer = l.inputBuffer ∧ (l.send state message).received = l.received := by
  unfold Link.send
  split <;> exact ⟨rfl, rfl, rfl⟩

theorem links_send (se : Session) (n : TcpClient.ConnId) (state : StateE) (message : List Byte) :
    se.Links (se.setUpstream n ((se.upstream n).send state message)) := by
  obtain ⟨hp, hb, -⟩ := send_spec (se.upstream n) state message
  exact links_setUpstream hp fun hw => by rw [hb]; exact hw

/-- What is taken from the client's connection is what `send` is given. -/
theorem onTcpClientConnection_spec (S : Served name s) (hse : session name s k = some se)
    (hx : onTcpClientConnection name s k n = some s') : Keeps name k s s' ∧
    (s'.link k).received = (s.link k).received ∧
    ∃ se', session name s' k = some se' ∧ se'.pair = se.pair ∧ se.Links se' ∧ se'.tcpClient = se.tcpClient ∧
      ((se.tcpClient.conn n).state = .kConnected → se'.connecting = false ∧
        (Open s k → s'.link k = (s.link k).retrieveAsString.2 ∧ se'.upstream = Function.update se.upstream n
          ((se.upstream n).send .kConnected (s.link k).inputBuffer.readable))) := by
  have hk : Keeps name k s (getConn s (clientName name k)).2 := keeps_getConn k s _
  simp only [onTcpClientConnection, hse, Option.bind_eq_bind, Option.bind_some] at hx
  split at hx
  · rename_i hc
    obtain ⟨p, -, hx⟩ := Option.bind_eq_some_iff.1 hx
    obtain ⟨-, -, hx⟩ := Option.bind_eq_some_iff.1 hx
    rw [S.getConn_fst] at hx
    by_cases ho : Open s k
    · rw [if_pos ho] at hx
      cases hx
      refine ⟨hk.trans (keeps_set (retrieveAsString_pair _)), (congrArg Link.received link_setLink).trans rfl, _,
        session_setSession, rfl, links_send se n _ _, rfl, ?_⟩
      intro _
      refine ⟨rfl, fun _ => ⟨link_setLink, ?_⟩⟩
      rw [hc]
      rfl
    · rw [if_neg ho] at hx
      cases hx
      exact ⟨hk.trans (keeps_setSession _ _ _), rfl, _, session_setSession, rfl, fun _ => ⟨rfl, id⟩, rfl,
        fun _ => ⟨rfl, fun h => absurd h ho⟩⟩
  · rename_i hc
    cases hx
    exact ⟨.refl k s, rfl, se, hse, rfl, fun _ => ⟨rfl, id⟩, rfl, fun h => absurd h hc⟩

/-- What the upstream connection has read goes to the client, and nothing that
came from the client is touched. -/
theorem onTcpClientMessage_spec (S : Served name s) (hse : session name s k = some se)
    (hx : onTcpClientMessage name s k n = some s') : Keeps name k s s' ∧
    (s'.link k).inputBuffer = (s.link k).inputBuffer ∧ (s'.link k).received = (s.link k).received ∧
    ∃ se', session name s' k = some se' ∧ se'.pair = se.pair ∧ se.Links se' ∧ se'.tcpClient = se.tcpClient ∧
      se'.connecting = se.connecting ∧ ∀ m, (se'.upstream m).accepted = (se.upstream m).accepted := by
  have hk : Keeps name k s (getConn s (clientName name k)).2 := keeps_getConn k s _
  simp only [onTcpClientMessage, hse, Option.bind_eq_bind, Option.bind_some] at hx
  obtain ⟨p, -, hx⟩ := Option.bind_eq_some_iff.1 hx
  obtain ⟨-, -, hx⟩ := Option.bind_eq_some_iff.1 hx
  rw [S.getConn_fst] at hx
  by_cases ho : Open s k
  · rw [if_pos ho] at hx
    cases hx
    refine ⟨hk.trans (keeps_set (send_spec _ _ _).1), ?_, ?_, _, session_setSession,
      rfl, links_setUpstream (retrieveAsString_pair _) retrieveAsString_wf, rfl, rfl, ?_⟩
    · exact (congrArg Link.inputBuffer link_setLink).trans (send_spec _ _ _).2.1
    · exact (congrArg Link.received link_setLink).trans (send_spec _ _ _).2.2
    · intro m
      by_cases hm : m = n
      · subst hm
        simp [Session.setUpstream, Link.retrieveAsString]
      · simp [Session.setUpstream, hm]
  · rw [if_neg ho] at hx
    cases hx
    exact ⟨hk.trans (keeps_setSession _ _ _), rfl, rfl, _, session_setSession, rfl, fun _ => ⟨rfl, id⟩, rfl, rfl,
      fun _ => rfl⟩

theorem onTcpServerMessage_spec (hse : session name s k = some se)
    (hx : onTcpServerMessage name s k k e = some s') : Keeps name k s s' ∧
    ∃ se', session name s' k = some se' ∧ se'.pair = se.pair ∧ se.Links se' ∧
      ((∃ n, getTcpClientConn se.tcpClient = some (some n) ∧ s'.link k = (s.link k).retrieveAsString.2 ∧
        se'.tcpClient = se.tcpClient ∧ se'.connecting = se.connecting ∧ se'.upstream = Function.update se.upstream n
          ((se.upstream n).send (se.tcpClient.conn n).state (s.link k).inputBuffer.readable)) ∨
      (getTcpClientConn se.tcpClient = some none ∧ s'.link k = s.link k ∧ se'.upstream = se.upstream ∧
        se'.connecting = true ∧ if se.connecting then se'.tcpClient = se.tcpClient
          else TcpClient.exec se.tcpClient (.connect e) = some se'.tcpClient)) := by
  simp only [onTcpServerMessage, hse, Option.bind_eq_bind, Option.bind_some] at hx
  obtain ⟨-, -, hx⟩ := Option.bind_eq_some_iff.1 hx
  obtain ⟨conn, hn, hx⟩ := Option.bind_eq_some_iff.1 hx
  rcases conn with _ | n
  · dsimp only at hx
    split at hx
    · rename_i hc
      cases hx
      exact ⟨keeps_setSession _ _ _, _, session_setSession, rfl, fun _ => ⟨rfl, id⟩,
        .inr ⟨hn, rfl, rfl, hc, by rw [if_pos hc]⟩⟩
    · rename_i hc
      obtain ⟨tcpClient, ht, hx⟩ := Option.bind_eq_some_iff.1 hx
      cases hx
      exact ⟨keeps_setSession _ _ _, _, session_setSession, rfl, fun _ => ⟨rfl, id⟩,
        .inr ⟨hn, rfl, rfl, rfl, by rw [if_neg hc]; exact ht⟩⟩
  · cases hx
    exact ⟨keeps_set (retrieveAsString_pair _), _, session_setSession, rfl, links_send se n _ _,
      .inl ⟨n, hn, link_setLink, rfl, rfl, rfl⟩⟩

/-! ## Events of a session -/

theorem readFd_pair {l' : Link} (h : l.readFd data = some l') : l'.pair = l.pair := by
  obtain ⟨⟨r, b⟩, -, h⟩ := Option.bind_eq_some_iff.1 h
  cases h
  rfl

theorem readFd_spec (hw : l.inputBuffer.Wf) {l' : Link} (h : l.readFd data = some l') : l'.inputBuffer.Wf ∧
    l'.inputBuffer.readable = l.inputBuffer.readable ++ data ∧ l'.received = l.received ++ data := by
  obtain ⟨⟨r, b⟩, hb, h⟩ := Option.bind_eq_some_iff.1 h
  cases h
  obtain ⟨r', b', hb', hw', -, hr⟩ := Buffer.readFd_spec hw (.ok data)
  rw [hb] at hb'
  cases hb'
  exact ⟨hw', hr, rfl⟩

theorem clientMessage_spec (S : Served name s) (hc : Open s c) (hx : clientMessage name s c data e = some s') :
    ∃ l, (s.link c).readFd data = some l ∧ Keeps name c s (setLink s c l) ∧
      onTcpServerMessage name (setLink s c l) c c e = some s' := by
  obtain ⟨l, hl, hx⟩ := Option.bind_eq_some_iff.1 hx
  obtain ⟨k, hk, hx⟩ := Option.bind_eq_some_iff.1 hx
  obtain rfl := Option.some.inj ((S.bound c hc).1.symm.trans hk)
  exact ⟨l, hl, keeps_setLink (readFd_pair hl), hx⟩

/-- The connection that the client is given takes what has come in the meantime. -/
theorem connectorEvent_spec (S : Served name s) (hse : session name s k = some se) {i : Sock} {err out self : Bool}
    {soError : Int} (hx : connectorEvent name s k i err out soError self = some s') :
    ∃ tcpClient, TcpClient.exec se.tcpClient (.connector (.handleEvent i err out soError self)) = some tcpClient ∧
      ((tcpClient.connector.calling = none ∧ s' = setSession name s k { se with tcpClient }) ∨
      (tcpClient.connector.calling ≠ none ∧ Keeps name k s s' ∧ (s'.link k).received = (s.link k).received ∧
        ∃ se', session name s' k = some se' ∧ se'.pair = se.pair ∧
        (se.setUpstream se.tcpClient.nextConnId { pair := se.pair }).Links se' ∧
        TcpClient.exec tcpClient (.ret .success) = some se'.tcpClient ∧
        ((tcpClient.conn se.tcpClient.nextConnId).state = .kConnected → se'.connecting = false ∧
          (Open s k → s'.link k = (s.link k).retrieveAsString.2 ∧
            se'.upstream = Function.update se.upstream se.tcpClient.nextConnId
              { pair := se.pair, accepted := (s.link k).inputBuffer.readable })))) := by
  simp only [connectorEvent, hse, Option.bind_eq_bind, Option.bind_some] at hx
  obtain ⟨tcpClient, ht, hx⟩ := Option.bind_eq_some_iff.1 hx
  refine ⟨tcpClient, ht, ?_⟩
  split at hx
  · rename_i hc
    cases hx
    exact .inl ⟨hc, rfl⟩
  · rename_i hc
    obtain ⟨t, h1, hx⟩ := Option.bind_eq_some_iff.1 hx
    have hk : Keeps name k s (setSession name s k ({ se with tcpClient }.setUpstream se.tcpClient.nextConnId
        { pair := se.pair })) := keeps_setSession s k _
    obtain ⟨hk', hr, se₁, hse₁, hp, hlinks, htc, hcon⟩ := onTcpClientConnection_spec (hk.served S) session_setSession h1
    rw [hse₁, Option.bind_some] at hx
    obtain ⟨u, h2, hx⟩ := Option.bind_eq_some_iff.1 hx
    cases hx
    rw [htc] at h2
    refine .inr ⟨hc, (hk.trans hk').trans (keeps_setSession _ _ _), hr, _, session_setSession, hp, hlinks, h2, ?_⟩
    intro hconn
    obtain ⟨h3, h4⟩ := hcon hconn
    refine ⟨h3, fun ho => ?_⟩
    obtain ⟨h5, h6⟩ := h4 ho
    refine ⟨h5, h6.trans ?_⟩
    simp [Session.setUpstream, Link.send, setSession]

theorem upstreamMessage_spec (S : Served name s) (hse : session name s k = some se)
    (hx : upstreamMessage name s k n data = some s') : Keeps name k s s' ∧
    (s'.link k).inputBuffer = (s.link k).inputBuffer ∧ (s'.link k).received = (s.link k).received ∧
    ∃ se', session name s' k = some se' ∧ se'.pair = se.pair ∧ se.Links se' ∧ se'.tcpClient = se.tcpClient ∧
      se'.connecting = se.connecting ∧ ∀ m, (se'.upstream m).accepted = (se.upstream m).accepted := by
  simp only [upstreamMessage, hse, Option.bind_eq_bind, Option.bind_some] at hx
  obtain ⟨l, hl, hx⟩ := Option.bind_eq_some_iff.1 hx
  have hk : Keeps name k s (setSession name s k (se.setUpstream n l)) := keeps_setSession s k _
  obtain ⟨hk', h1, h2, se', hse', h3, h4, h5, h6, h7⟩ := onTcpClientMessage_spec (hk.served S) session_setSession hx
  have hlinks : se.Links (se.setUpstream n l) := links_setUpstream (readFd_pair hl) fun hw => (readFd_spec hw hl).1
  refine ⟨hk.trans hk', h1, h2, se', hse', h3, hlinks.trans h4, h5, h6, ?_⟩
  intro m
  rw [h7 m]
  by_cases hm : m = n
  · subst hm
    obtain ⟨⟨r, b⟩, -, hl⟩ := Option.bind_eq_some_iff.1 hl
    cases hl
    simp [Session.setUpstream]
  · simp [Session.setUpstream, hm]

theorem upstreamClose_spec (hse : session name s k = some se) (hx : upstreamClose name s k n = some s') :
    ∃ t u v, TcpClient.exec se.tcpClient (.handleClose n) = some t ∧ TcpClient.exec t (.ret .success) = some u ∧
      TcpClient.exec u (.ret .success) = some v ∧ s' = setSession name s k { se with tcpClient := v } := by
  simp only [upstreamClose, hse, Option.bind_eq_bind, Option.bind_some] at hx
  obtain ⟨t, ht, hx⟩ := Option.bind_eq_some_iff.1 hx
  obtain ⟨u, hu, hx⟩ := Option.bind_eq_some_iff.1 hx
  obtain ⟨v, hv, hx⟩ := Option.bind_eq_some_iff.1 hx
  cases hx
  exact ⟨t, u, v, ht, hu, hv, rfl⟩

theorem timers_spec (hse : session name s k = some se) {ts rest : List Timer} {es : List Errno}
    (hx : timers name s k ts rest es = some s') :
    ∃ t u, TcpClient.exec se.tcpClient (.connector (.expire ts rest)) = some t ∧ runTimers t es = some u ∧
      s' = setSession name s k { se with tcpClient := u } := by
  simp only [timers, hse, Option.bind_eq_bind, Option.bind_some] at hx
  obtain ⟨t, ht, hx⟩ := Option.bind_eq_some_iff.1 hx
  obtain ⟨u, hu, hx⟩ := Option.bind_eq_some_iff.1 hx
  cases hx
  exact ⟨t, u, ht, hu, rfl⟩

/-! ## Accepting -/

/-- A connection is accepted with a session of its own, whose handler takes
the place of the one for closes. -/
structure Accepts (name : String) (c : ConnId) (s s' : St) : Prop where
  up : Open s' c
  conn : ∀ d, d ≠ c → s'.server.conn d = s.server.conn d
  nextConnId : s'.server.nextConnId = c + 1
  stack : s'.server.stack = s.server.stack
  connections : s'.server.connections = s.server.connections.insert (clientName name c) (some c)
  messageCallback : s'.messageCallback = Function.update s.messageCallback c (some c)
  closeCallback : s'.closeCallback = some c
  link : s'.link = Function.update s.link c { pair := some (.tcpClient c) }
  notified : s'.notified = s.notified
  other : ∀ j, j ≠ c → session name s' j = session name s j
  entries : ∀ key, key ≠ sessionName name c → s'.sessionMap.find key = s.sessionMap.find key

theorem server_newConnection (cfg : TcpServer.Config) (h : cfg.numThreads = 0) (server : TcpServer.St) :
    TcpServer.newConnection cfg server = some { server with
      nextConnId := server.nextConnId + 1
      conn := Function.update server.conn server.nextConnId { state := .kConnected, watched := true, established := 1 }
      connections := server.connections.insert (TcpServer.connName cfg server.nextConnId) (some server.nextConnId)
      stack := Function.update server.stack 0 (.established server.nextConnId :: server.stack 0) } := by
  simp [TcpServer.newConnection, TcpServer.getNextLoop, h, TcpServer.connectEstablished, TcpServer.callBack]

theorem newSession_spec (hf : s.server.connections.find (clientName name c) = some (some c))
    (hx : newSession name s c e = some s') : ∃ tcpClient,
    TcpClient.exec { hasClose := true } (.connect e) = some tcpClient ∧
      s' = setSession name
        { s with
          messageCallback := Function.update s.messageCallback c (some c)
          closeCallback := some c
          link := Function.update s.link c { s.link c with pair := some (.tcpClient c) } } c
        { tcpClient, pair := some (.serverPair c), clientTime := addTime s.now 60,
          serverTime := addTime (addTime s.now 60) TIMEOUT, connecting := true } := by
  have hg : getConn s (clientName name c) = (some c, s) := by simp [getConn, TcpServer.getConn, hf]
  simp only [newSession, hg, Option.bind_eq_bind, Option.bind_some] at hx
  obtain ⟨tcpClient, ht, hx⟩ := Option.bind_eq_some_iff.1 hx
  cases hx
  exact ⟨tcpClient, ht, rfl⟩

theorem newConnection_spec (hx : newConnection name s e = some s') : Accepts name s.server.nextConnId s s' ∧
    ∃ se, session name s' s.server.nextConnId = some se ∧ se.pair = some (.serverPair s.server.nextConnId) ∧
      se.connecting = true ∧ (∀ n, se.upstream n = {}) ∧
      TcpClient.exec { hasClose := true } (.connect e) = some se.tcpClient := by
  simp only [newConnection, server_newConnection _ (show (s.config name).numThreads = 0 from rfl),
    Option.bind_eq_bind, Option.bind_some] at hx
  obtain ⟨t, h1, hx⟩ := Option.bind_eq_some_iff.1 hx
  obtain ⟨server, h2, hx⟩ := Option.bind_eq_some_iff.1 hx
  cases hx
  simp only [onTcpServerConnection, Function.update_self, if_true] at h1
  obtain ⟨tcpClient, ht, rfl⟩ := newSession_spec (by exact Map.find_insert_self) h1
  simp only [TcpServer.ret, setSession, setLink, Function.update_self] at h2
  cases h2
  refine ⟨⟨?_, ?_, rfl, ?_, rfl, rfl, rfl, ?_, rfl, ?_, ?_⟩, _, Map.find_insert_self, rfl, rfl, fun _ => rfl, ht⟩
  · simp [Open]
  · intro d hd
    exact Function.update_of_ne hd _ _
  · simp
  · simp [setSession, setLink]
  · intro j hj
    exact session_setSession_ne hj
  · intro key hk
    exact Map.find_insert_ne hk

theorem Accepts.open_iff (h : Accepts name c s s') : Open s' d ↔ d = c ∨ Open s d := by
  by_cases hd : d = c
  · subst hd
    simp [h.up]
  · rw [Open, h.conn d hd]
    simp [hd, Open]

theorem Accepts.served (h : Accepts name s.server.nextConnId s s') (ha : session name s' s.server.nextConnId ≠ none)
    (S : Served name s) : Served name s' := by
  -- an older connection is another one than the one that is accepted
  have hne : ∀ {c}, Open s c → c ≠ s.server.nextConnId := fun hc => Nat.ne_of_lt (S.fresh _ hc)
  refine ⟨?_, ?_, ?_, ?_, ?_, ?_, ?_, ?_⟩
  · rw [h.stack]
    exact S.idle
  · intro c hc
    rw [h.open_iff]
    by_cases hd : c = s.server.nextConnId
    · exact .inl hd
    · rw [h.conn c hd] at hc
      exact .inr (S.watched c hc)
  · intro c hc
    rw [h.nextConnId]
    rcases h.open_iff.1 hc with rfl | hc
    · exact Nat.lt_succ_self _
    · exact Nat.lt_succ_of_lt (S.fresh c hc)
  · intro c hc
    rw [h.connections]
    rcases h.open_iff.1 hc with rfl | hc
    · exact Map.find_insert_self
    · rw [Map.find_insert_ne fun hn => hne hc (clientName_injective hn)]
      exact S.entry c hc
  · intro n c hn
    rw [h.connections] at hn
    by_cases hm : n = clientName name s.server.nextConnId
    · rw [hm, Map.find_insert_self] at hn
      cases hn
      exact ⟨hm, h.up⟩
    · rw [Map.find_insert_ne hm] at hn
      obtain ⟨h1, h2⟩ := S.named n c hn
      exact ⟨h1, h.open_iff.2 (.inr h2)⟩
  · intro c hc
    rcases h.open_iff.1 hc with rfl | hc
    · exact ha
    · rw [h.other c (hne hc)]
      exact S.alive c hc
  · intro c hc
    rw [h.messageCallback, h.link]
    rcases h.open_iff.1 hc with rfl | hc
    · simp
    · rw [Function.update_of_ne (hne hc), Function.update_of_ne (hne hc)]
      exact S.bound c hc
  · intro c _
    rw [h.closeCallback, h.nextConnId]
    rfl

/-! ## Closing -/

/-- Connection `c` is closed, and its entry is gone. -/
structure Closes (name : String) (c : ConnId) (s s' : St) : Prop where
  down : ¬ Open s' c
  conn : ∀ d, d ≠ c → s'.server.conn d = s.server.conn d
  unwatched : (s'.server.conn c).watched = false
  nextConnId : s'.server.nextConnId = s.server.nextConnId
  stack : s'.server.stack = s.server.stack
  found : ∀ n d, s'.server.connections.find n = some (some d) ↔ d ≠ c ∧ s.server.connections.find n = some (some d)
  messageCallback : s'.messageCallback = s.messageCallback
  closeCallback : s'.closeCallback = s.closeCallback
  link : s'.link = s.link
  other : ∀ j, j ≠ c → session name s' j = session name s j
  entries : ∀ key, key ≠ sessionName name c → s'.sessionMap.find key = s.sessionMap.find key

theorem Closes.open_iff (h : Closes name c s s') : Open s' d ↔ d ≠ c ∧ Open s d := by
  by_cases hd : d = c
  · subst hd
    simp [h.down]
  · rw [Open, h.conn d hd]
    simp [hd, Open]

theorem Closes.served (h : Closes name c s s') (S : Served name s) : Served name s' := by
  refine ⟨?_, ?_, ?_, ?_, ?_, ?_, ?_, ?_⟩
  · rw [h.stack]
    exact S.idle
  · intro d hd
    have hne : d ≠ c := by
      rintro rfl
      rw [h.unwatched] at hd
      cases hd
    rw [h.conn d hne] at hd
    exact h.open_iff.2 ⟨hne, S.watched d hd⟩
  · intro d hd
    rw [h.nextConnId]
    exact S.fresh d (h.open_iff.1 hd).2
  · intro d hd
    obtain ⟨hne, hd⟩ := h.open_iff.1 hd
    exact (h.found _ _).2 ⟨hne, S.entry d hd⟩
  · intro n d hn
    obtain ⟨hne, hn⟩ := (h.found n d).1 hn
    obtain ⟨h1, h2⟩ := S.named n d hn
    exact ⟨h1, h.open_iff.2 ⟨hne, h2⟩⟩
  · intro d hd
    obtain ⟨hne, hd⟩ := h.open_iff.1 hd
    rw [h.other d hne]
    exact S.alive d hd
  · intro d hd
    rw [h.messageCallback, h.link]
    exact S.bound d (h.open_iff.1 hd).2
  · intro d hd
    rw [h.closeCallback, h.nextConnId]
    exact S.newest d (h.open_iff.1 hd).2

/-- `connectDestroyed`, its callback, and `erase`. -/
theorem connectDestroyed_ret {cfg : TcpServer.Config} {server t u : TcpServer.St}
    (h1 : TcpServer.connectDestroyed server 0 c = some t) (h2 : TcpServer.ret cfg t 0 = some u) : u =
      { server with
        conn := Function.update server.conn c { server.conn c with
          state := .kDisconnected, watched := false, destroyed := (server.conn c).destroyed + 1 }
        connections := server.connections.erase (TcpServer.connName cfg c) } := by
  obtain ⟨-, -, h1⟩ := Option.bind_eq_some_iff.1 h1
  cases h1
  simp only [TcpServer.ret, TcpServer.callBack, Function.update_self] at h2
  obtain ⟨-, -, h2⟩ := Option.bind_eq_some_iff.1 h2
  cases h2
  simp

theorem Served.find_erase (S : Served name s) (c d : ConnId) (n : String) :
    Map.find (s.server.connections.erase (clientName name c)) n = some (some d) ↔
      d ≠ c ∧ s.server.connections.find n = some (some d) := by
  by_cases hn : n = clientName name c
  · subst hn
    rw [Map.find_erase_self]
    refine ⟨nofun, ?_⟩
    rintro ⟨hne, hd⟩
    exact absurd (clientName_injective (S.named _ d hd).1).symm hne
  · rw [Map.find_erase_ne hn]
    refine ⟨fun hd => ⟨?_, hd⟩, And.right⟩
    rintro rfl
    exact hn (S.named n d hd).1

theorem clientClose_spec (S : Served name s) (hc : Open s c) (hx : clientClose name s c = some s') :
    Closes name c s s' ∧ s'.sessionMap = s.sessionMap ∧ s'.notified = s.notified ++
      [⟨c, s.server.nextConnId - 1, (session name s (s.server.nextConnId - 1)).isSome⟩] := by
  have hn := S.newest c hc
  obtain ⟨server, h1, hx⟩ := Option.bind_eq_some_iff.1 hx
  simp only [hn] at hx
  obtain ⟨t, h2, hx⟩ := Option.bind_eq_some_iff.1 hx
  obtain ⟨u, h3, hx⟩ := Option.bind_eq_some_iff.1 hx
  cases hx
  simp only [TcpServer.handleClose, TcpServer.removeConnectionInLoop, St.config, hn, if_true, Option.isSome_some] at h1
  cases h1
  simp only [TcpServer.ret, TcpServer.callBack, Function.update_self] at h2
  obtain rfl := connectDestroyed_ret h2 h3
  refine ⟨⟨?_, ?_, ?_, rfl, ?_, ?_, rfl, ?_, rfl, fun _ _ => rfl, fun _ _ => rfl⟩, rfl, rfl⟩
  · simp [Open]
  · intro d hd
    simp [hd]
  · simp
  · simp
  · exact fun n d => S.find_erase c d n
  · exact hn.symm

/-- A connection that is not open has no entry to lose. -/
theorem Keeps.closes (h : Keeps name k s s') (hl : s'.link = s.link) (S : Served name s) (ho : ¬ Open s k) :
    Closes name k s s' where
  down := fun hc => ho (h.open_iff.1 hc)
  conn d _ := by rw [h.conn]
  unwatched := by
    rw [h.conn, Bool.eq_false_iff]
    exact fun hw => ho (S.watched k hw)
  nextConnId := h.nextConnId
  stack := h.stack
  found n d := by
    rw [h.found]
    refine ⟨fun hd => ⟨?_, hd⟩, And.right⟩
    rintro rfl
    exact ho (S.named n d hd).2
  messageCallback := h.messageCallback
  closeCallback := h.closeCallback
  link := hl
  other := h.other
  entries := h.entries

theorem removeConn_spec (S : Served name s) (hx : removeConn name s (clientName name k) = some s') :
    Closes name k s s' ∧ s'.sessionMap = s.sessionMap ∧ s'.notified = s.notified := by
  have hk : Keeps name k s (getConn s (clientName name k)).2 := keeps_getConn k s _
  have hg : TcpServer.getConn s.server (clientName name k) =
      (if Open s k then some k else none, (getConn s (clientName name k)).2.server) := Prod.ext (S.getConn_fst k) rfl
  simp only [removeConn, TcpServer.removeConn, hg] at hx
  by_cases ho : Open s k
  · have hs : (getConn s (clientName name k)).2 = s := by simp [getConn, TcpServer.getConn, S.entry k ho]
    simp only [hs, if_pos ho] at hx
    obtain ⟨t, h1, hx⟩ := Option.bind_eq_some_iff.1 hx
    have hstack : t.stack 0 ≠ [] := by
      obtain ⟨-, -, h1⟩ := Option.bind_eq_some_iff.1 h1
      cases h1
      simp [TcpServer.callBack]
    rw [if_neg hstack] at hx
    obtain ⟨u, h2, hx⟩ := Option.bind_eq_some_iff.1 hx
    cases hx
    obtain rfl := connectDestroyed_ret h1 h2
    refine ⟨⟨?_, ?_, ?_, rfl, rfl, ?_, rfl, rfl, rfl, fun _ _ => rfl, fun _ _ => rfl⟩, rfl, rfl⟩
    · simp [Open]
    · intro d hd
      simp [hd]
    · simp
    · exact fun n d => S.find_erase k d n
  · simp only [if_neg ho, Option.bind_eq_bind, Option.bind_some, hk.stack, S.idle, if_true] at hx
    cases hx
    exact ⟨hk.closes rfl S ho, rfl, rfl⟩

theorem eraseSession_spec (S : Served name s) (hx : eraseSession name s k = some s') :
    Closes name k s s' ∧ session name s' k = none ∧ s'.notified = s.notified := by
  obtain ⟨se, -, hx⟩ := Option.bind_eq_some_iff.1 hx
  obtain ⟨t, ht, hx⟩ := Option.bind_eq_some_iff.1 hx
  obtain ⟨-, -, hx⟩ := Option.bind_eq_some_iff.1 hx
  cases hx
  obtain ⟨h, hs, hn⟩ := removeConn_spec S ht
  have hentries : ∀ key, key ≠ sessionName name k →
      Map.find (t.sessionMap.erase (sessionName name k)) key = s.sessionMap.find key :=
    fun key hk => (Map.find_erase_ne hk).trans (congrArg (Map.find · key) hs)
  refine ⟨{ h with other := ?_, entries := hentries }, Map.find_erase_self, hn⟩
  intro j hj
  exact hentries _ fun h => hj (sessionName_injective h)

/-! ## Steps -/

/-- The calls of `onTcpServerClose_` in a step. -/
def notices (name : String) (s : St) : Act → List Notice
  | .clientClose c => [⟨c, s.server.nextConnId - 1, (session name s (s.server.nextConnId - 1)).isSome⟩]
  | _ => []

theorem Keeps.notices (h : Keeps name k s s') (S : Served name s) : Served name s' ∧ s'.notified = s.notified ++ [] :=
  ⟨h.served S, h.notified.trans (List.append_nil _).symm⟩

theorem step_served (S : Served name s) (ha : enabled name s a) (hx : exec name s a = some s') :
    Served name s' ∧ s'.notified = s.notified ++ notices name s a := by
  cases a with
  | tick now =>
    cases hx
    exact ⟨⟨S.idle, S.watched, S.fresh, S.entry, S.named, S.alive, S.bound, S.newest⟩, (List.append_nil _).symm⟩
  | newConnection e =>
    obtain ⟨h, se, hse, -⟩ := newConnection_spec hx
    exact ⟨h.served (by simp [hse]) S, h.notified.trans (List.append_nil _).symm⟩
  | clientMessage c data e =>
    have hc := S.watched c ha.1
    obtain ⟨l, -, hk, h⟩ := clientMessage_spec S hc hx
    obtain ⟨se, hse⟩ := Option.ne_none_iff_exists'.1 (S.alive c hc)
    exact (hk.trans (onTcpServerMessage_spec (s := setLink s c l) hse h).1).notices S
  | clientClose c =>
    obtain ⟨h, -, hn⟩ := clientClose_spec S (S.watched c ha) hx
    exact ⟨h.served S, hn⟩
  | connectorEvent k i err out soError self =>
    obtain ⟨se, hse, -⟩ := ha
    obtain ⟨t, -, ⟨-, rfl⟩ | ⟨-, h, -⟩⟩ := connectorEvent_spec S hse hx
    · exact (keeps_setSession s k _).notices S
    · exact h.notices S
  | upstreamMessage k n data =>
    obtain ⟨-, se, hse, -⟩ := ha
    exact (upstreamMessage_spec S hse hx).1.notices S
  | upstreamClose k n =>
    obtain ⟨se, hse, -⟩ := ha
    obtain ⟨t, u, v, -, -, -, rfl⟩ := upstreamClose_spec hse hx
    exact (keeps_setSession s k _).notices S
  | timers k ts rest es =>
    obtain ⟨-, se, hse, -⟩ := ha
    obtain ⟨t, u, -, -, rfl⟩ := timers_spec hse hx
    exact (keeps_setSession s k _).notices S
  | expire k =>
    obtain ⟨h, -, hn⟩ := eraseSession_spec S hx
    exact ⟨h.served S, hn.trans (List.append_nil _).symm⟩

end Cppnetool.Proxy
