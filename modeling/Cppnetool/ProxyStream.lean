import Cppnetool.ProxyServer
import Cppnetool.TcpClientAttempts
/-!
# The stream of a client

What a session's client sends is read into the input buffer of its connection,
and stays there while there is no upstream connection. It leaves the buffer in
one piece, for a connection that takes it.
-/
open Lib

namespace Cppnetool.Proxy

open TcpConnection (StateE)
open TcpServer (ConnId)
open Connector (Sock Errno Timer load)

variable {name : String} {s s' : St} {a : Act} {c : ConnId} {j k : SessionId} {n : TcpClient.ConnId} {se se' : Session}
  {l : Link} {data : List Byte} {e : Errno} {tc tc' : TcpClient.St} {connecting : Bool}

/-! ## The client of a session -/

/-- Between two events: `connection_` is the only connection that is
established, and there is one attempt at most, which `connecting_` tells of. -/
structure Wired (tc : TcpClient.St) (connecting : Bool) : Prop where
  polling : Connector.Polling tc.connector
  frame : tc.frame = none
  retry : tc.retry = false
  hasClose : tc.hasClose = true
  state : tc.state = tc.connection.isSome
  only : ∀ n, TcpClient.Established tc n → tc.connection = some n
  last : ∀ n, tc.connection = some n → (tc.conn n).state = .kConnected ∧ n + 1 = tc.nextConnId
  attempts : load tc.connector ≤ if connecting then 1 else 0
  waits : connecting = true → tc.connection = none

theorem getTcpClientConn_eq (W : Wired tc connecting) : getTcpClientConn tc = some tc.connection := by
  unfold getTcpClientConn
  rw [W.state]
  rcases tc.connection with _ | n <;> rfl

/-- A step of the connector that makes no connection. -/
theorem Wired.connector (W : Wired tc connecting) {x : Connector.St} (hp : Connector.Polling x)
    (hl : load x ≤ load tc.connector) : Wired { tc with connector := x } connecting where
  polling := hp
  frame := W.frame
  retry := W.retry
  hasClose := W.hasClose
  state := W.state
  only := W.only
  last := W.last
  attempts := Nat.le_trans hl W.attempts
  waits := W.waits

/-- A session calls `connect` when it has no connection and no attempt. -/
theorem Wired.connect (W : Wired tc false) (hc : tc.connection = none)
    (hx : TcpClient.exec tc (.connect e) = some tc') :
    Wired tc' true ∧ tc'.connection = none ∧ tc'.nextConnId = tc.nextConnId := by
  cases hx
  obtain ⟨h1, h2⟩ := Connector.startInLoop_leaves { tc.connector with connect := true } e
  have hl := Connector.startInLoop_load { tc.connector with connect := true } e
  have h0 : load { tc.connector with connect := true } = 0 := Nat.le_zero.1 W.attempts
  refine ⟨⟨⟨h1.trans W.polling.1, h2.trans W.polling.2⟩, W.frame, W.retry, W.hasClose, W.state, W.only, W.last, ?_,
    fun _ => hc⟩, hc, rfl⟩
  show load (Connector.startInLoop { tc.connector with connect := true } e) ≤ 1
  rw [hl, h0]
  split <;> omega

theorem wired_init : Wired { hasClose := true } false where
  polling := ⟨rfl, rfl⟩
  frame := rfl
  retry := rfl
  hasClose := rfl
  state := rfl
  only n h := by simp [TcpClient.Established] at h
  last n h := by cases h
  attempts := Nat.zero_le _
  waits h := by cases h

/-- An event either keeps what there is or, where an attempt was waited for,
completes it, and there is no other one. -/
theorem Wired.handleEvent (W : Wired tc connecting) {i : Sock} {err out self : Bool} {soError : Int}
    (ha : TcpClient.enabled tc (.connector (.handleEvent i err out soError self)))
    (hx : TcpClient.exec tc (.connector (.handleEvent i err out soError self)) = some tc') :
    (tc'.connector.calling = none ∧ Wired tc' connecting ∧ tc'.connection = tc.connection ∧
      tc'.nextConnId = tc.nextConnId) ∨
    (tc'.connector.calling ≠ none ∧ tc.connection = none ∧ (tc'.conn tc.nextConnId).state = .kConnected ∧
      ∀ v, TcpClient.exec tc' (.ret .success) = some v →
        Wired v false ∧ v.connection = some tc.nextConnId ∧ v.nextConnId = tc.nextConnId + 1) := by
  obtain ⟨x, hc, ⟨hn, rfl⟩ | ⟨hn, sockfd, hnew⟩⟩ := TcpClient.runConnector_cases ha.1 hx
  · obtain ⟨hl, hcall⟩ := Connector.handleEvent_load ha.1.2 hc
    have hcall : x.calling = none := (hcall.trans (if_neg hn)).trans W.polling.1
    have hexp : x.expired = [] := (Connector.handleEvent_expired hc).trans W.polling.2
    exact .inl ⟨hcall, W.connector ⟨hcall, hexp⟩ hl, rfl, rfl⟩
  · obtain ⟨rfl, hl⟩ := Connector.handleEvent_completes ha.1.2 hn hc
    rw [TcpClient.newConnection_eq] at hnew
    cases hnew
    -- there is an attempt, so `connecting_` is set
    have hw : connecting = true := by
      have := W.attempts
      by_contra hf
      rw [if_neg hf] at this
      omega
    have hnone := W.waits hw
    refine .inr ⟨by simp, hnone, by simp, ?_⟩
    intro v hv
    have := W.attempts
    rw [hw, if_pos rfl] at this
    obtain ⟨y, hy, hv⟩ := Option.bind_eq_some_iff.1 hv
    obtain ⟨-, -, hy⟩ := Option.bind_eq_some_iff.1 hy
    cases hy
    cases hv
    refine ⟨⟨⟨rfl, W.polling.2⟩, W.frame, W.retry, W.hasClose, rfl, ?_, ?_, ?_, ?_⟩, rfl, rfl⟩
    · intro n hn
      rw [TcpClient.established_update rfl] at hn
      split at hn
      · rename_i h
        rw [h]
      · rw [W.only n hn] at hnone
        cases hnone
    · intro n hn
      cases hn
      simp
    · simp only [Connector.resetChannel, load] at *
      omega
    · intro h
      cases h

/-- The peer closes the connection: `removeConnection` to its end. -/
theorem Wired.close (W : Wired tc connecting) {t u v : TcpClient.St} (he : TcpClient.Established tc n)
    (ht : TcpClient.exec tc (.handleClose n) = some t) (hu : TcpClient.exec t (.ret .success) = some u)
    (hv : TcpClient.exec u (.ret .success) = some v) :
    Wired v connecting ∧ v.connection = none ∧ v.nextConnId = tc.nextConnId ∧ v.connector = tc.connector := by
  have hn := W.only n he
  simp only [TcpClient.exec, TcpClient.removeConnection, W.hasClose, if_true] at ht
  cases ht
  simp only [TcpClient.exec, TcpClient.ret, W.polling.1, ne_eq, not_true_eq_false, if_false,
    TcpClient.destroyConnection, hn] at hu
  rw [Option.bind_eq_bind, Option.bind_some] at hu
  obtain ⟨w, hw, hu⟩ := Option.bind_eq_some_iff.1 hu
  obtain ⟨-, -, hw⟩ := Option.bind_eq_some_iff.1 hw
  cases hw
  cases hu
  simp only [TcpClient.exec, TcpClient.ret, W.polling.1, ne_eq, not_true_eq_false, if_false] at hv
  obtain ⟨-, -, hv⟩ := Option.bind_eq_some_iff.1 hv
  simp only [W.retry, Bool.false_eq_true, false_and, if_false] at hv
  cases hv
  refine ⟨⟨W.polling, rfl, rfl, rfl, rfl, ?_, ?_, W.attempts, fun _ => rfl⟩, rfl, rfl, rfl⟩
  · intro m hm
    rw [TcpClient.established_update rfl] at hm
    split at hm
    · simp at hm
    · rename_i hne
      have := W.only m hm
      rw [hn] at this
      exact absurd (Option.some.inj this).symm hne
  · intro m hm
    cases hm

theorem runTimers_spec {es : List Errno} (hx : runTimers tc es = some tc') (hc : tc.connector.calling = none)
    (hl : tc.connector.expired.length = es.length) :
    ∃ x, tc' = { tc with connector := x } ∧ Connector.Polling x ∧ load x ≤ load tc.connector := by
  induction es generalizing tc with
  | nil =>
    cases hx
    exact ⟨_, rfl, ⟨hc, List.length_eq_zero_iff.1 hl⟩, Nat.le_refl _⟩
  | cons e es ih =>
    obtain ⟨t, ht, hx⟩ := Option.bind_eq_some_iff.1 hx
    obtain ⟨y, hy, ht⟩ := Option.bind_eq_some_iff.1 ht
    cases ht
    have hle := Connector.runTimer_load hy
    -- one timer of the batch has run
    have hy' : y.calling = none ∧ y.expired.length = es.length := by
      obtain ⟨t, rest, he, -, rfl⟩ := Connector.runTimer_cases hy
      obtain ⟨h1, h2⟩ := Connector.startInLoop_leaves { tc.connector with expired := rest } e
      rw [h1, h2]
      rw [he, List.length_cons, List.length_cons] at hl
      exact ⟨hc, Nat.succ.inj hl⟩
    obtain ⟨x, rfl, hp, hlx⟩ := ih hx hy'.1 hy'.2
    exact ⟨x, rfl, hp, Nat.le_trans hlx hle⟩

theorem Wired.timers (W : Wired tc connecting) {ts rest : List Timer} {es : List Errno} {t : TcpClient.St}
    (ha : TcpClient.enabled tc (.connector (.expire ts rest))) (hl : es.length = ts.length)
    (ht : TcpClient.exec tc (.connector (.expire ts rest)) = some t) (hx : runTimers t es = some tc') :
    Wired tc' connecting ∧ tc'.connection = tc.connection ∧ tc'.nextConnId = tc.nextConnId := by
  obtain ⟨y, hy, ⟨-, rfl⟩ | ⟨h, -⟩⟩ := TcpClient.runConnector_cases ha.1 ht
  · have hly : load y ≤ load tc.connector := by
      rcases Connector.exec_gains ha.1 hy with ⟨_, h, -⟩ | ⟨-, h⟩
      · cases h
      · exact h
    cases hy
    obtain ⟨x, rfl, hp, hlx⟩ := runTimers_spec hx W.polling.1 hl.symm
    exact ⟨W.connector hp (Nat.le_trans hlx hly), rfl, rfl⟩
  · exact h.elim

/-! ## The stream -/

/-- What the upstream connections of a session have taken, one connection after the other. -/
def requests (se : Session) : List Byte :=
  (List.range se.tcpClient.nextConnId).flatMap fun n => (se.upstream n).accepted

theorem requests_congr (hn : se'.tcpClient.nextConnId = se.tcpClient.nextConnId)
    (hu : ∀ m, (se'.upstream m).accepted = (se.upstream m).accepted) : requests se' = requests se := by
  simp only [requests, hn, hu]

/-- Only what the last connection has taken is another. -/
theorem requests_last (hn : se'.tcpClient.nextConnId = n + 1) (hu : se'.upstream = Function.update se.upstream n l) :
    requests se' = ((List.range n).flatMap fun m => (se.upstream m).accepted) ++ l.accepted := by
  have hlt : ∀ m ∈ List.range n, (Function.update se.upstream n l m).accepted = (se.upstream m).accepted := by
    intro m hm
    rw [Function.update_of_ne (Nat.ne_of_lt (List.mem_range.1 hm))]
  rw [requests, hn, hu, List.range_succ, List.flatMap_append, List.flatMap_congr hlt]
  simp

/-- Nothing that a client sent is lost, and nothing waits for a connection that is up. -/
structure Relays (l : Link) (se : Session) : Prop where
  wf : l.inputBuffer.Wf
  stream : requests se ++ l.inputBuffer.readable = l.received
  flushed : ∀ n, se.tcpClient.connection = some n → l.inputBuffer.readable = []

theorem Relays.congr (R : Relays l se) {l' : Link} (hb : l'.inputBuffer = l.inputBuffer)
    (hr : l'.received = l.received)
    (hn : se'.tcpClient.nextConnId = se.tcpClient.nextConnId)
    (hc : ∀ n, se'.tcpClient.connection = some n → se.tcpClient.connection = some n)
    (hu : ∀ m, (se'.upstream m).accepted = (se.upstream m).accepted) : Relays l' se' where
  wf := by
    rw [hb]
    exact R.wf
  stream := by
    rw [hb, hr, requests_congr hn hu]
    exact R.stream
  flushed n h := by
    rw [hb]
    exact R.flushed n (hc n h)

/-- All that is in the buffer goes to the last connection. -/
theorem Relays.flush {b : Link} (hw : b.inputBuffer.Wf) (hn : se'.tcpClient.nextConnId = n + 1)
    (hu : se'.upstream = Function.update se.upstream n l)
    (hs : ((List.range n).flatMap fun m => (se.upstream m).accepted) ++ l.accepted = b.received) :
    Relays b.retrieveAsString.2 se' where
  wf := Buffer.retrieveAll_wf hw
  stream := by
    rw [requests_last hn hu, hs]
    simp [Link.retrieveAsString, Buffer.retrieveAsString]
  flushed _ _ := Buffer.retrieveAll_readable

/-! ## Steps -/

/-- Every session has its client as it should be, and its stream as long as
the connection that it is made for is open. -/
structure Conserved (name : String) (s : St) : Prop where
  served : Served name s
  wired : ∀ k se, session name s k = some se → Wired se.tcpClient se.connecting
  relays : ∀ k se, session name s k = some se → Open s k → Relays (s.link k) se

theorem conserved_init : Conserved name (machine name).init where
  served := served_init
  wired _ _ h := by cases h
  relays _ _ h := by cases h

/-- A step of session `k` leaves the others alone. -/
theorem Conserved.keeps (C : Conserved name s) (h : Keeps name k s s') (hse : session name s' k = some se)
    (W : Wired se.tcpClient se.connecting) (R : Open s k → Relays (s'.link k) se) : Conserved name s' := by
  refine ⟨h.served C.served, ?_, ?_⟩
  · exact forall_session h.other hse W fun j se' _ => C.wired j se'
  · refine forall_session h.other hse (fun ho => R (h.open_iff.1 ho)) fun j se' hk hj ho => ?_
    rw [h.link j hk]
    exact C.relays j se' hj (h.open_iff.1 ho)

/-- A step of session `k` that is one of its client only. -/
theorem Conserved.setClient (C : Conserved name s) (hse : session name s k = some se)
    (W : Wired tc se.connecting) (hn : tc.nextConnId = se.tcpClient.nextConnId)
    (hc : ∀ n, tc.connection = some n → se.tcpClient.connection = some n) :
    Conserved name (setSession name s k { se with tcpClient := tc }) :=
  C.keeps (keeps_setSession s k _) session_setSession W fun ho =>
    (C.relays k se hse ho).congr rfl rfl hn hc fun _ => rfl

theorem clientMessage_conserved (C : Conserved name s) (hc : Open s c) (hx : clientMessage name s c data e = some s') :
    Conserved name s' := by
  obtain ⟨l, hl, hk, hx⟩ := clientMessage_spec C.served hc hx
  obtain ⟨se, hse⟩ := Option.ne_none_iff_exists'.1 (C.served.alive c hc)
  have W := C.wired c se hse
  have R := C.relays c se hse hc
  obtain ⟨hw, hb, hr⟩ := readFd_spec R.wf hl
  obtain ⟨hk', se', hse', -, -, h⟩ := onTcpServerMessage_spec (s := setLink s c l) hse hx
  rw [link_setLink, getTcpClientConn_eq W] at h
  rcases h with ⟨n, hn, h1, h2, h3, h4⟩ | ⟨hn, h1, h2, h3, h4⟩
  · have hn := Option.some.inj hn
    obtain ⟨hst, hlast⟩ := W.last n hn
    refine C.keeps (hk.trans hk') hse' (by rw [h2, h3]; exact W) fun _ => ?_
    rw [h1]
    refine Relays.flush hw (by rw [h2]; exact hlast.symm) h4 ?_
    -- the buffer was empty, and what has been read is all that is sent
    have hreq : requests se = _ := requests_last hlast.symm (Function.update_eq_self n se.upstream).symm
    have hs := R.stream
    rw [R.flushed n hn, List.append_nil, hreq] at hs
    rw [hr, hb, ← hs, R.flushed n hn, hst]
    simp [Link.send]
  · have hw' : Wired se'.tcpClient true ∧ se'.tcpClient.connection = none ∧
        se'.tcpClient.nextConnId = se.tcpClient.nextConnId := by
      split at h4
      · rename_i hcon
        rw [hcon] at W
        rw [h4]
        exact ⟨W, Option.some.inj hn, rfl⟩
      · rename_i hcon
        rw [Bool.eq_false_iff.2 hcon] at W
        exact W.connect (Option.some.inj hn) h4
    obtain ⟨W', hnone, hnext⟩ := hw'
    refine C.keeps (hk.trans hk') hse' (by rw [h3]; exact W') fun _ => ⟨?_, ?_, ?_⟩
    · rw [h1]
      exact hw
    · rw [h1, hb, hr, requests_congr hnext fun m => by rw [h2], ← List.append_assoc, R.stream]
    · intro m hm
      rw [hnone] at hm
      cases hm

theorem connectorEvent_conserved (C : Conserved name s) {i : Sock} {err out self : Bool} {soError : Int}
    (hse : session name s k = some se)
    (ha : TcpClient.enabled se.tcpClient (.connector (.handleEvent i err out soError self)))
    (hx : connectorEvent name s k i err out soError self = some s') : Conserved name s' := by
  obtain ⟨t, ht, h⟩ := connectorEvent_spec C.served hse hx
  have W := C.wired k se hse
  rcases W.handleEvent ha ht with ⟨hcall, W', hc, hn⟩ | ⟨hcall, hnone, hst, hret⟩
  · rcases h with ⟨-, rfl⟩ | ⟨h, -⟩
    · exact C.setClient hse W' hn fun m hm => hc ▸ hm
    · exact absurd hcall h
  · rcases h with ⟨h, -⟩ | ⟨-, hk, -, se', hse', -, -, hv, h⟩
    · exact absurd h hcall
    · obtain ⟨W', hc, hn⟩ := hret _ hv
      obtain ⟨hcon, h⟩ := h hst
      refine C.keeps hk hse' (by rw [hcon]; exact W') fun ho => ?_
      obtain ⟨hl, hu⟩ := h ho
      have R := C.relays k se hse ho
      rw [hl]
      exact Relays.flush R.wf hn hu R.stream

theorem newConnection_conserved (C : Conserved name s) (S' : Served name s') (hx : newConnection name s e = some s') :
    Conserved name s' := by
  obtain ⟨h, se, hse, -, hcon, hu, ht⟩ := newConnection_spec hx
  obtain ⟨W, hnone, -⟩ := wired_init.connect rfl ht
  have R : Relays { pair := some (.tcpClient s.server.nextConnId) } se := by
    refine ⟨Buffer.new_wf, ?_, ?_⟩
    · simp [requests, hu]
    · intro m hm
      rw [hnone] at hm
      cases hm
  refine ⟨S', ?_, ?_⟩
  · refine forall_session h.other hse ?_ fun j se' _ => C.wired j se'
    rw [hcon]
    exact W
  · rw [h.link]
    refine forall_session h.other hse (fun _ => ?_) fun j se' hc hj ho => ?_
    · rw [Function.update_self]
      exact R
    · rw [Function.update_of_ne hc]
      exact C.relays j se' hj ((h.open_iff.1 ho).resolve_left hc)

theorem Conserved.closes (C : Conserved name s) (h : Closes name c s s')
    (hs : ∀ j se, session name s' j = some se → session name s j = some se) : Conserved name s' := by
  refine ⟨h.served C.served, ?_, ?_⟩
  · intro j se hj
    exact C.wired j se (hs j se hj)
  · intro j se hj ho
    rw [h.link]
    exact C.relays j se (hs j se hj) (h.open_iff.1 ho).2

theorem step_conserved (C : Conserved name s) (ha : enabled name s a) (hx : exec name s a = some s') :
    Conserved name s' := by
  have S := C.served
  have S' := (step_served S ha hx).1
  cases a with
  | tick now =>
    cases hx
    exact ⟨S', C.wired, C.relays⟩
  | newConnection e => exact newConnection_conserved C S' hx
  | clientMessage c data e => exact clientMessage_conserved C (S.watched c ha.1) hx
  | clientClose c =>
    obtain ⟨h, hs, -⟩ := clientClose_spec S (S.watched c ha) hx
    refine C.closes h fun j se hj => ?_
    rw [session, hs] at hj
    exact hj
  | connectorEvent k i err out soError self =>
    obtain ⟨se, hse, ha⟩ := ha
    exact connectorEvent_conserved C hse ha hx
  | upstreamMessage k n data =>
    obtain ⟨-, se, hse, -⟩ := ha
    obtain ⟨h, hb, hr, se', hse', -, -, htc, hcon, hacc⟩ := upstreamMessage_spec S hse hx
    have W := C.wired k se hse
    rw [← htc, ← hcon] at W
    refine C.keeps h hse' W fun ho => (C.relays k se hse ho).congr hb hr (by rw [htc]) ?_ hacc
    rw [htc]
    exact fun _ => id
  | upstreamClose k n =>
    obtain ⟨se, hse, ha⟩ := ha
    obtain ⟨t, u, v, ht, hu, hv, rfl⟩ := upstreamClose_spec hse hx
    obtain ⟨W, hnone, hn, -⟩ := (C.wired k se hse).close ha.2.2 ht hu hv
    refine C.setClient hse W hn fun m hm => ?_
    rw [hnone] at hm
    cases hm
  | timers k ts rest es =>
    obtain ⟨hl, se, hse, ha⟩ := ha
    obtain ⟨t, u, ht, hu, rfl⟩ := timers_spec hse hx
    obtain ⟨W, hc, hn⟩ := (C.wired k se hse).timers ha hl ht hu
    exact C.setClient hse W hn fun m hm => hc ▸ hm
  | expire k =>
    obtain ⟨h, hnone, -⟩ := eraseSession_spec S hx
    refine C.closes h fun j se hj => ?_
    by_cases hk : j = k
    · subst hk
      rw [hnone] at hj
      cases hj
    · rw [← h.other j hk]
      exact hj

theorem conserved_run {tr : List (St × Act)} (h : Run (machine name) tr s) : Conserved name s :=
  h.inv (Conserved name) conserved_init fun _ _ _ C ha hx => step_conserved C ha hx

/-! ## What a client sends -/

/-- What an event reads from connection `c`. -/
def Act.reads (c : ConnId) : Act → List Byte
  | .clientMessage d data _ => if d = c then data else []
  | _ => []

/-- What has been read from connection `c` in a run. -/
def reads (c : ConnId) (tr : List (St × Act)) : List Byte := (tr.map Prod.snd).flatMap (Act.reads c)

structure Reads (a : Act) (s s' : St) : Prop where
  nextConnId : s.server.nextConnId ≤ s'.server.nextConnId
  received : ∀ c, (s'.link c).received = (s.link c).received ++ a.reads c

/-- Nothing is read from a connection before it is accepted. -/
def Unread (s : St) : Prop := ∀ c, s.server.nextConnId ≤ c → (s.link c).received = []

theorem reads_none (hn : s'.server.nextConnId = s.server.nextConnId) (hl : s'.link = s.link)
    (ha : ∀ c, a.reads c = []) : Reads a s s' where
  nextConnId := Nat.le_of_eq hn.symm
  received c := by rw [hl, ha, List.append_nil]

theorem Keeps.reads (h : Keeps name k s s') (hr : (s'.link k).received = (s.link k).received)
    (ha : ∀ c, a.reads c = []) : Reads a s s' where
  nextConnId := Nat.le_of_eq h.nextConnId.symm
  received c := by
    rw [ha, List.append_nil]
    by_cases hc : c = k
    · rw [hc, hr]
    · rw [h.link c hc]

theorem clientMessage_reads (C : Conserved name s) (hc : Open s c) (hx : clientMessage name s c data e = some s') :
    Reads (.clientMessage c data e) s s' := by
  obtain ⟨l, hl, hk, hx⟩ := clientMessage_spec C.served hc hx
  obtain ⟨se, hse⟩ := Option.ne_none_iff_exists'.1 (C.served.alive c hc)
  obtain ⟨hk', se', -, -, -, h⟩ := onTcpServerMessage_spec (s := setLink s c l) hse hx
  obtain ⟨-, -, hr⟩ := readFd_spec (C.relays c se hse hc).wf hl
  have hlink : (s'.link c).received = l.received := by
    rw [link_setLink] at h
    rcases h with ⟨n, -, h, -⟩ | ⟨-, h, -⟩
    · rw [h]
      rfl
    · rw [h]
  refine ⟨Nat.le_of_eq (hk.trans hk').nextConnId.symm, ?_⟩
  intro d
  by_cases hd : c = d
  · rw [← hd, hlink, hr, Act.reads, if_pos rfl]
  · rw [(hk.trans hk').link d (Ne.symm hd), Act.reads, if_neg hd, List.append_nil]

theorem newConnection_reads (U : Unread s) (hx : newConnection name s e = some s') :
    Reads (.newConnection e) s s' := by
  obtain ⟨h, -⟩ := newConnection_spec hx
  refine ⟨by rw [h.nextConnId]; exact Nat.le_succ _, ?_⟩
  intro c
  rw [h.link]
  by_cases hc : c = s.server.nextConnId
  · rw [hc, Function.update_self, U _ (Nat.le_refl _)]
    rfl
  · rw [Function.update_of_ne hc]
    exact (List.append_nil _).symm

theorem step_reads (C : Conserved name s) (U : Unread s) (ha : enabled name s a) (hx : exec name s a = some s') :
    Reads a s s' := by
  have S := C.served
  cases a with
  | tick now =>
    cases hx
    exact reads_none rfl rfl fun _ => rfl
  | newConnection e => exact newConnection_reads U hx
  | clientMessage c data e => exact clientMessage_reads C (S.watched c ha.1) hx
  | clientClose c =>
    obtain ⟨h, -⟩ := clientClose_spec S (S.watched c ha) hx
    exact reads_none h.nextConnId h.link fun _ => rfl
  | connectorEvent k i err out soError self =>
    obtain ⟨se, hse, -⟩ := ha
    obtain ⟨t, -, ⟨-, rfl⟩ | ⟨-, h, hr, -⟩⟩ := connectorEvent_spec S hse hx
    · exact reads_none rfl rfl fun _ => rfl
    · exact h.reads hr fun _ => rfl
  | upstreamMessage k n data =>
    obtain ⟨-, se, hse, -⟩ := ha
    obtain ⟨h, -, hr, -⟩ := upstreamMessage_spec S hse hx
    exact h.reads hr fun _ => rfl
  | upstreamClose k n =>
    obtain ⟨se, hse, -⟩ := ha
    obtain ⟨t, u, v, -, -, -, rfl⟩ := upstreamClose_spec hse hx
    exact reads_none rfl rfl fun _ => rfl
  | timers k ts rest es =>
    obtain ⟨-, se, hse, -⟩ := ha
    obtain ⟨t, u, -, -, rfl⟩ := timers_spec hse hx
    exact reads_none rfl rfl fun _ => rfl
  | expire k =>
    obtain ⟨h, -⟩ := eraseSession_spec S hx
    exact reads_none h.nextConnId h.link fun _ => rfl

theorem step_unread (S : Served name s) (U : Unread s) (ha : enabled name s a) (h : Reads a s s') : Unread s' := by
  intro c hc
  have hle : s.server.nextConnId ≤ c := Nat.le_trans h.nextConnId hc
  rw [h.received c, U c hle, List.nil_append]
  cases a with
  | clientMessage d data e =>
    -- what is read is open, and has been accepted
    have hd := S.fresh d (S.watched d ha.1)
    exact if_neg fun hdc => absurd (hdc ▸ hd) (Nat.not_lt.2 hle)
  | _ => rfl

theorem received_run {tr : List (St × Act)} (h : Run (machine name) tr s) (c : ConnId) :
    (s.link c).received = reads c tr := by
  rw [reads, List.flatMap_eq_foldl]
  refine h.refines (fun s => Conserved name s ∧ Unread s) (fun s => (s.link c).received) (fun r a => r ++ a.reads c)
    ⟨conserved_init, fun _ _ => rfl⟩ ?_
  rintro t a t' ⟨C, U⟩ ha hx
  have R := step_reads C U ha hx
  exact ⟨⟨step_conserved C ha hx, step_unread C.served U ha R⟩, R.received c⟩

/-! ## Runs -/

/-- As long as a client is connected it has its session, and what that one's
upstream connections have taken and what is in the client's input buffer are
together what has been read from it; the buffer is empty while one of them is up. -/
theorem requests_conserved {tr : List (St × Act)} (h : Run (machine name) tr s) (ho : Open s k) :
    ∃ se, session name s k = some se ∧ requests se ++ (s.link k).inputBuffer.readable = reads k tr ∧
      ∀ n, TcpClient.Established se.tcpClient n → (s.link k).inputBuffer.readable = [] := by
  have C := conserved_run h
  obtain ⟨se, hse⟩ := Option.ne_none_iff_exists'.1 (C.served.alive k ho)
  have R := C.relays k se hse ho
  refine ⟨se, hse, R.stream.trans (received_run h k), ?_⟩
  intro n hn
  exact R.flushed n ((C.wired k se hse).only n hn)

/-- Two clients. What the first sends finds no connection yet, one that is up,
none again, one that is refused and tried again, and one that is up. -/
theorem requests_conserved_reconnect : ∃ tr s, Run (machine "0.0.0.0:8000") tr s ∧
    reads 1 tr = [1, 2, 3, 4, 5, 6] ∧ reads 2 tr = [9] ∧
    ∃ se, session "0.0.0.0:8000" s 1 = some se ∧
      requests se ++ (s.link 1).inputBuffer.readable = reads 1 tr ∧
      ∀ n, TcpClient.Established se.tcpClient n → (s.link 1).inputBuffer.readable = [] := by
  obtain ⟨r, hr, h1, h2, ho⟩ : ∃ r ∈ (machine "0.0.0.0:8000").play (machine "0.0.0.0:8000").init
      [.newConnection .EINPROGRESS, .newConnection .ECONNREFUSED, .clientMessage 1 [1, 2] .success,
        .connectorEvent 1 0 false true 0 false, .clientMessage 1 [3] .success, .clientMessage 2 [9] .success,
        .upstreamClose 1 1, .clientMessage 1 [4] .ECONNREFUSED, .clientMessage 1 [5] .success,
        .timers 1 [⟨0, 500⟩] [] [.EINPROGRESS], .connectorEvent 1 2 false true 0 false, .clientMessage 1 [6] .success],
      reads 1 r.1 = [1, 2, 3, 4, 5, 6] ∧ reads 2 r.1 = [9] ∧ Open r.2 1 := by decide +kernel
  have hrun := Machine.play_steps hr
  exact ⟨r.1, r.2, hrun, h1, h2, requests_conserved hrun ho⟩

end Cppnetool.Proxy
