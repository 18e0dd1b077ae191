import Cppnetool.ProxyStream
/-!
# Sessions that wait

A session that finds no upstream connection sets `connecting_` and calls
`connect`, and from then on only waits. The connector tries again after each
result that it may try again after; after the others it gives up, and the
session is not told.
-/
open Lib

namespace Cppnetool.Proxy

open TcpServer (ConnId)
open Connector (Sock Errno Timer load)

variable {name : String} {s s' : St} {a : Act} {c : ConnId} {j k : SessionId} {se se' : Session}
  {data : List Byte} {e : Errno} {es : List Errno} {tc tc' : TcpClient.St} {connecting : Bool}

/-- The connector has a connecting channel registered, or a retry timer pending. -/
def Session.Trying (se : Session) : Prop :=
  se.tcpClient.connector.registered ≠ [] ∨ se.tcpClient.connector.waiting ≠ []

instance (se : Session) : Decidable se.Trying := inferInstanceAs (Decidable (_ ∨ _))

/-- A session that is connecting, or has bytes of its client to send, is trying. -/
def Attended (name : String) (s : St) : Prop := ∀ k se, session name s k = some se →
  (se.connecting = true → se.Trying) ∧ (Open s k → (s.link k).inputBuffer.readable ≠ [] → se.Trying)

/-- The results of `connect(2)` in a step. -/
def tries (name : String) (s : St) : Act → List Errno
  | .newConnection e => [e]
  | .clientMessage c _ e =>
    match session name s c with
    | some se => if se.tcpClient.connection = none ∧ se.connecting = false then [e] else []
    | none => []
  | .timers _ _ _ es => es
  | _ => []

/-- After these results there is another attempt. -/
def Retried (name : String) (s : St) (a : Act) : Prop := ∀ e ∈ tries name s a, e.attempts = true

instance (s : St) (a : Act) : Decidable (Retried name s a) := inferInstanceAs (Decidable (∀ _ ∈ _, _))

/-! ## The client of a session -/

/-- Between two events no timer is in the hands of the timer queue. -/
theorem trying_iff (W : Wired se.tcpClient connecting) : se.Trying ↔ 0 < load se.tcpClient.connector := by
  unfold Session.Trying load
  rw [W.polling.2, List.append_nil, Nat.add_pos_iff_pos_or_pos, List.length_pos_iff, List.length_pos_iff]

theorem connect_attempt (hl : load tc.connector = 0) (hx : TcpClient.exec tc (.connect e) = some tc') :
    tc'.connector.connect = true ∧ load tc'.connector = if e.attempts then 1 else 0 := by
  cases hx
  refine ⟨Connector.startInLoop_connect _ e, ?_⟩
  have h := Connector.startInLoop_load { tc.connector with connect := true } e
  simp only [true_and] at h
  refine h.trans ?_
  rw [show load { tc.connector with connect := true } = 0 from hl, Nat.zero_add]

theorem handleEvent_client (hcon : tc.connector.connect = true) {i : Sock} {err out self : Bool} {soError : Int}
    (ha : TcpClient.enabled tc (.connector (.handleEvent i err out soError self)))
    (hx : TcpClient.exec tc (.connector (.handleEvent i err out soError self)) = some tc') :
    tc'.connector.connect = true ∧ (tc'.connector.calling = none → load tc'.connector = load tc.connector) := by
  obtain ⟨x, hc, ⟨hn, rfl⟩ | ⟨hn, sockfd, hnew⟩⟩ := TcpClient.runConnector_cases ha.1 hx
  · obtain ⟨h1, h2⟩ := Connector.handleEvent_attempt hcon ha.1.2 hc
    exact ⟨h1, fun _ => h2 hn⟩
  · have hk : tc'.connector = x := (TcpClient.newConnection_established (d := 0) hnew).1
    rw [hk]
    refine ⟨(Connector.handleEvent_attempt hcon ha.1.2 hc).1, fun hcall => ?_⟩
    have hsome : x.calling = some i := (Connector.handleEvent_load ha.1.2 hc).2.trans (if_pos hn)
    rw [hcall] at hsome
    cases hsome

/-- `newConnectionCallback_` returns. -/
theorem ret_connect (hcall : tc.connector.calling ≠ none) (hx : TcpClient.exec tc (.ret e) = some tc') :
    tc'.connector.connect = tc.connector.connect := by
  simp only [TcpClient.exec, TcpClient.ret, if_pos hcall] at hx
  obtain ⟨x, hc, hx⟩ := Option.bind_eq_some_iff.1 hx
  obtain ⟨-, -, hc⟩ := Option.bind_eq_some_iff.1 hc
  cases hc
  cases hx
  rfl

/-- There is one retry timer at most, and there is one only while the session
is connecting, and then nothing else. -/
theorem Wired.one_timer (W : Wired tc connecting) {ts rest : List Timer}
    (ha : TcpClient.enabled tc (.connector (.expire ts rest))) (hl : es.length = ts.length) :
    es = [] ∨ ∃ e, es = [e] ∧ connecting = true ∧ tc.connector.registered = [] ∧ load tc.connector = 1 := by
  have hp := ha.1.2.length_eq
  have hle := W.attempts
  simp only [load, W.polling.2, List.append_nil, List.length_append] at hp hle ⊢
  rcases es with _ | ⟨e, _ | ⟨e', es⟩⟩
  · exact .inl rfl
  · simp only [List.length_singleton] at hl
    split at hle
    · rename_i hw
      refine .inr ⟨e, rfl, hw, List.length_eq_zero_iff.1 ?_, ?_⟩ <;> omega
    · omega
  · simp only [List.length_cons] at hl
    split at hle <;> omega

theorem timers_attempt (W : Wired tc connecting) (hcon : tc.connector.connect = true) {ts rest : List Timer}
    {t : TcpClient.St} (ha : TcpClient.enabled tc (.connector (.expire ts rest))) (hl : es.length = ts.length)
    (ht : TcpClient.exec tc (.connector (.expire ts rest)) = some t) (hx : runTimers t es = some tc') :
    tc'.connector.connect = true ∧ ((es = [] ∧ load tc'.connector = load tc.connector) ∨
      ∃ e, es = [e] ∧ connecting = true ∧ load tc'.connector = if e.attempts then 1 else 0) := by
  have hload : load { tc.connector with expired := ts, waiting := rest } = load tc.connector := by
    have hp := ha.1.2.length_eq
    simp only [load, W.polling.2, List.length_append, List.length_nil] at *
    omega
  cases ht
  rcases W.one_timer ha hl with rfl | ⟨e, rfl, hw, -, hone⟩
  · cases hx
    exact ⟨hcon, .inl ⟨rfl, hload⟩⟩
  · obtain ⟨u, hu, hx⟩ := Option.bind_eq_some_iff.1 hx
    cases hx
    obtain ⟨y, hy, hu⟩ := Option.bind_eq_some_iff.1 hu
    cases hu
    obtain ⟨h1, h2⟩ := Connector.runTimer_attempt (s := { tc.connector with expired := ts, waiting := rest }) hcon hy
    refine ⟨h1, .inr ⟨e, rfl, hw, ?_⟩⟩
    show load y = _
    omega

/-! ## Steps -/

/-- What holds whatever `connect(2)` returns: each session's connector is to
connect, and what its client has sent waits only while it is connecting. -/
structure Pending (name : String) (s : St) : Prop where
  conserved : Conserved name s
  connect : ∀ k se, session name s k = some se → se.tcpClient.connector.connect = true
  waits : ∀ k se, session name s k = some se → Open s k → (s.link k).inputBuffer.readable ≠ [] → se.connecting = true

theorem pending_init : Pending name (machine name).init where
  conserved := conserved_init
  connect _ _ h := by cases h
  waits _ _ h := by cases h

/-- The attempts of a step in which `connect(2)` returns `es`. -/
def Tries (name : String) (s s' : St) (es : List Errno) : Prop :=
  (es = [] ∧ ∀ k se', session name s' k = some se' → se'.connecting = true → ∃ se, session name s k = some se ∧
    se.connecting = true ∧ load se'.tcpClient.connector = load se.tcpClient.connector) ∨
  ∃ e k se', es = [e] ∧ session name s' k = some se' ∧ se'.connecting = true ∧
    (load se'.tcpClient.connector = if e.attempts then 1 else 0) ∧
    ∀ j, j ≠ k → session name s' j = session name s j

theorem Pending.keeps (P : Pending name s) (C' : Conserved name s') (h : Keeps name k s s')
    (hse : session name s' k = some se) (hcon : se.tcpClient.connector.connect = true)
    (hw : Open s k → (s'.link k).inputBuffer.readable ≠ [] → se.connecting = true) : Pending name s' := by
  refine ⟨C', ?_, ?_⟩
  · exact forall_session h.other hse hcon fun j se' _ => P.connect j se'
  · refine forall_session h.other hse (fun ho => hw (h.open_iff.1 ho)) fun j se' hk hj ho => ?_
    rw [h.link j hk]
    exact P.waits j se' hj (h.open_iff.1 ho)

/-- No `connect(2)`: a session that is connecting was, with as many attempts. -/
theorem Keeps.tries (h : Keeps name k s s') (hse : session name s k = some se) (hse' : session name s' k = some se')
    (hc : se'.connecting = true →
      se.connecting = true ∧ load se'.tcpClient.connector = load se.tcpClient.connector) : Tries name s s' [] := by
  refine .inl ⟨rfl, forall_session h.other hse' ?_ fun j sj _ hj hcj => ⟨sj, hj, hcj, rfl⟩⟩
  intro hcon
  obtain ⟨h1, h2⟩ := hc hcon
  exact ⟨se, hse, h1, h2⟩

theorem newConnection_tries (P : Pending name s) (C' : Conserved name s') (hx : newConnection name s e = some s') :
    Pending name s' ∧ Tries name s s' [e] := by
  obtain ⟨h, se, hse, -, hcon, -, ht⟩ := newConnection_spec hx
  obtain ⟨h1, h2⟩ := connect_attempt rfl ht
  refine ⟨⟨C', ?_, ?_⟩, .inr ⟨e, _, se, rfl, hse, hcon, h2, h.other⟩⟩
  · exact forall_session h.other hse h1 fun j se' _ => P.connect j se'
  · refine forall_session h.other hse (fun _ _ => hcon) fun j se' hc hj ho => ?_
    rw [h.link, Function.update_of_ne hc]
    exact P.waits j se' hj ((h.open_iff.1 ho).resolve_left hc)

theorem clientMessage_tries (P : Pending name s) (C' : Conserved name s') (hc : Open s c)
    (hx : clientMessage name s c data e = some s') :
    Pending name s' ∧ Tries name s s' (tries name s (.clientMessage c data e)) := by
  have C := P.conserved
  obtain ⟨l, -, hk, hx⟩ := clientMessage_spec C.served hc hx
  obtain ⟨se, hse⟩ := Option.ne_none_iff_exists'.1 (C.served.alive c hc)
  have W := C.wired c se hse
  obtain ⟨hk', se', hse', -, -, h⟩ := onTcpServerMessage_spec (s := setLink s c l) hse hx
  have hkeep := hk.trans hk'
  have htries : tries name s (.clientMessage c data e) =
      if se.tcpClient.connection = none ∧ se.connecting = false then [e] else [] := by simp [tries, hse]
  rw [htries]
  rw [getTcpClientConn_eq W] at h
  rcases h with ⟨n, hn, h1, h2, h3, -⟩ | ⟨hn, -, -, h3, h4⟩
  · -- what has come is sent
    rw [if_neg (by simp [Option.some.inj hn])]
    refine ⟨P.keeps C' hkeep hse' (by rw [h2]; exact P.connect c se hse) fun _ hne => ?_,
      hkeep.tries hse hse' fun hcon => ⟨h3 ▸ hcon, by rw [h2]⟩⟩
    rw [h1] at hne
    exact absurd Buffer.retrieveAll_readable hne
  · split at h4
    · -- the session is connecting already
      rename_i hcon
      rw [if_neg (by simp [hcon])]
      exact ⟨P.keeps C' hkeep hse' (by rw [h4]; exact P.connect c se hse) fun _ _ => h3,
        hkeep.tries hse hse' fun _ => ⟨hcon, by rw [h4]⟩⟩
    · rename_i hcon
      have hcon : se.connecting = false := Bool.eq_false_iff.2 hcon
      rw [if_pos ⟨Option.some.inj hn, hcon⟩]
      rw [hcon] at W
      obtain ⟨h5, h6⟩ := connect_attempt (Nat.le_zero.1 W.attempts) h4
      exact ⟨P.keeps C' hkeep hse' h5 fun _ _ => h3, .inr ⟨e, c, se', rfl, hse', h3, h6, hkeep.other⟩⟩

theorem connectorEvent_tries (P : Pending name s) (C' : Conserved name s') {i : Sock} {err out self : Bool}
    {soError : Int} (hse : session name s k = some se)
    (ha : TcpClient.enabled se.tcpClient (.connector (.handleEvent i err out soError self)))
    (hx : connectorEvent name s k i err out soError self = some s') : Pending name s' ∧ Tries name s s' [] := by
  have C := P.conserved
  have W := C.wired k se hse
  obtain ⟨t, ht, h⟩ := connectorEvent_spec C.served hse hx
  obtain ⟨h1, h2⟩ := handleEvent_client (P.connect k se hse) ha ht
  rcases h with ⟨hcall, rfl⟩ | ⟨hcall, hk, -, se', hse', -, -, hv, h⟩
  · have hk : Keeps name k s (setSession name s k { se with tcpClient := t }) := keeps_setSession s k _
    exact ⟨P.keeps C' hk session_setSession h1 (P.waits k se hse),
      hk.tries hse session_setSession fun hcon => ⟨hcon, h2 hcall⟩⟩
  · -- the session is not connecting any more, and has sent what there was
    obtain ⟨hcall', -⟩ | ⟨-, -, hst, -⟩ := W.handleEvent ha ht
    · exact absurd hcall' hcall
    · obtain ⟨hcon, h⟩ := h hst
      refine ⟨P.keeps C' hk hse' ((ret_connect hcall hv).trans h1) fun ho hne => ?_, hk.tries hse hse' fun hcon' => ?_⟩
      · rw [(h ho).1] at hne
        exact absurd Buffer.retrieveAll_readable hne
      · rw [hcon] at hcon'
        cases hcon'

/-- Nothing but the server's side of connections changes. -/
theorem Pending.closes (P : Pending name s) (C' : Conserved name s') (h : Closes name c s s')
    (hs : ∀ j se, session name s' j = some se → session name s j = some se) :
    Pending name s' ∧ Tries name s s' [] := by
  refine ⟨⟨C', fun j se hj => P.connect j se (hs j se hj), ?_⟩, .inl ⟨rfl, fun j se hj hc => ⟨se, hs j se hj, hc, rfl⟩⟩⟩
  intro j se hj ho
  rw [h.link]
  exact P.waits j se (hs j se hj) (h.open_iff.1 ho).2

theorem step_tries (P : Pending name s) (ha : enabled name s a) (hx : exec name s a = some s') :
    Pending name s' ∧ Tries name s s' (tries name s a) := by
  have C := P.conserved
  have C' := step_conserved C ha hx
  cases a with
  | tick now =>
    cases hx
    exact ⟨⟨C', P.connect, P.waits⟩, .inl ⟨rfl, fun k se h hc => ⟨se, h, hc, rfl⟩⟩⟩
  | newConnection e => exact newConnection_tries P C' hx
  | clientMessage c data e => exact clientMessage_tries P C' (C.served.watched c ha.1) hx
  | clientClose c =>
    obtain ⟨h, hs, -⟩ := clientClose_spec C.served (C.served.watched c ha) hx
    refine P.closes C' h fun j se hj => ?_
    rw [session, hs] at hj
    exact hj
  | connectorEvent k i err out soError self =>
    obtain ⟨se, hse, ha⟩ := ha
    exact connectorEvent_tries P C' hse ha hx
  | upstreamMessage k n data =>
    obtain ⟨-, se, hse, -⟩ := ha
    obtain ⟨h, hb, -, se', hse', -, -, htc, hcon, -⟩ := upstreamMessage_spec C.served hse hx
    refine ⟨P.keeps C' h hse' (by rw [htc]; exact P.connect k se hse) fun ho hne => ?_,
      h.tries hse hse' fun hc => ⟨hcon ▸ hc, by rw [htc]⟩⟩
    rw [hb] at hne
    rw [hcon]
    exact P.waits k se hse ho hne
  | upstreamClose k n =>
    obtain ⟨se, hse, ha⟩ := ha
    obtain ⟨t, u, v, ht, hu, hv, rfl⟩ := upstreamClose_spec hse hx
    obtain ⟨-, -, -, hk⟩ := (C.wired k se hse).close ha.2.2 ht hu hv
    have h : Keeps name k s (setSession name s k { se with tcpClient := v }) := keeps_setSession s k _
    exact ⟨P.keeps C' h session_setSession (by rw [hk]; exact P.connect k se hse) (P.waits k se hse),
      h.tries hse session_setSession fun hc => ⟨hc, by rw [hk]⟩⟩
  | timers k ts rest es =>
    obtain ⟨hl, se, hse, ha⟩ := ha
    obtain ⟨t, u, ht, hu, rfl⟩ := timers_spec hse hx
    obtain ⟨h1, h2⟩ := timers_attempt (C.wired k se hse) (P.connect k se hse) ha hl ht hu
    have h : Keeps name k s (setSession name s k { se with tcpClient := u }) := keeps_setSession s k _
    refine ⟨P.keeps C' h session_setSession h1 (P.waits k se hse), ?_⟩
    rcases h2 with ⟨rfl, h2⟩ | ⟨e, rfl, hcon, h2⟩
    · exact h.tries hse session_setSession fun hc => ⟨hc, h2⟩
    · exact .inr ⟨e, k, _, rfl, session_setSession, hcon, h2, h.other⟩
  | expire k =>
    obtain ⟨h, hnone, -⟩ := eraseSession_spec C.served hx
    refine P.closes C' h fun j se hj => ?_
    by_cases hk : j = k
    · rw [hk, hnone] at hj
      cases hj
    · rw [← h.other j hk]
      exact hj

/-! ## Runs -/

/-- Every session that is connecting has an attempt. -/
def Busy (name : String) (s : St) : Prop :=
  ∀ k se, session name s k = some se → se.connecting = true → 0 < load se.tcpClient.connector

theorem Pending.attended (P : Pending name s) (B : Busy name s) : Attended name s := by
  intro k se hse
  have h := trying_iff (P.conserved.wired k se hse)
  exact ⟨fun hc => h.2 (B k se hse hc), fun ho hne => h.2 (B k se hse (P.waits k se hse ho hne))⟩

theorem Tries.busy (T : Tries name s s' es) (B : Busy name s) (hG : ∀ e ∈ es, e.attempts = true) : Busy name s' := by
  rcases T with ⟨-, h⟩ | ⟨e, k, se', rfl, hse', -, hl, hother⟩
  · intro j se' hj hc
    obtain ⟨se, hse, hc, hl⟩ := h j se' hj hc
    rw [hl]
    exact B j se hse hc
  · refine forall_session hother hse' (fun _ => ?_) fun j sj _ hj => B j sj hj
    rw [hl, if_pos (hG e (List.mem_singleton_self e))]
    exact Nat.one_pos

/-- After a result that is not tried again the session waits for nothing. -/
theorem Tries.not_attended (T : Tries name s s' es) (P : Pending name s') (hG : ¬ ∀ e ∈ es, e.attempts = true) :
    ¬ Attended name s' := by
  rcases T with ⟨rfl, -⟩ | ⟨e, k, se', rfl, hse', hc, hl, -⟩
  · exact absurd (fun e h => absurd h List.not_mem_nil) hG
  · intro A
    have h := (trying_iff (P.conserved.wired k se' hse')).1 ((A k se' hse').1 hc)
    have he : ¬ e.attempts = true := by simpa using hG
    rw [hl, if_neg he] at h
    exact absurd h (Nat.lt_irrefl 0)

/-- Throughout a run the sessions that wait are being connected, exactly when
every `connect(2)` of it has a result that the connector keeps or tries again after. -/
theorem attended_iff {tr : List (St × Act)} (h : Run (machine name) tr s) :
    (∀ t, Visited tr s t → Attended name t) ↔ Meets (Retried name) tr := by
  refine h.throughout_iff (fun t => Pending name t ∧ Busy name t) (Attended name) (Retried name) ?_
    (fun _ hi => hi.1.attended hi.2) ?_ ?_
  · exact ⟨pending_init, fun _ _ h => by cases h⟩
  · rintro t a t' ⟨P, B⟩ ha hG hx
    obtain ⟨P', T⟩ := step_tries P ha hx
    exact ⟨P', T.busy B hG⟩
  · rintro t a t' ⟨P, -⟩ ha hG hx
    obtain ⟨P', T⟩ := step_tries P ha hx
    exact T.not_attended P' hG

/-- Refused, refused again, a socket that fails, and one that is connected; then
its peer closes it and the client sends more. -/
theorem attended_iff_refused : ∃ tr s, Run (machine "0.0.0.0:8000") tr s ∧
    (∃ se ∈ session "0.0.0.0:8000" s 1, se.connecting = true ∧ se.Trying) ∧
    (s.link 1).inputBuffer.readable = [3] ∧ ∀ t, Visited tr s t → Attended "0.0.0.0:8000" t := by
  obtain ⟨r, hr, h1, h2, hG⟩ : ∃ r ∈ (machine "0.0.0.0:8000").play (machine "0.0.0.0:8000").init
      [.newConnection .ECONNREFUSED, .clientMessage 1 [1, 2] .success, .timers 1 [⟨0, 500⟩] [] [.EAGAIN],
        .timers 1 [⟨1, 1000⟩] [] [.EINPROGRESS], .connectorEvent 1 2 false true 111 false,
        .timers 1 [⟨2, 2000⟩] [] [.EINPROGRESS], .connectorEvent 1 3 false true 0 false, .upstreamClose 1 1,
        .clientMessage 1 [3] .EINPROGRESS],
      (∃ se ∈ session "0.0.0.0:8000" r.2 1, se.connecting = true ∧ se.Trying) ∧
      (r.2.link 1).inputBuffer.readable = [3] ∧ Meets (Retried "0.0.0.0:8000") r.1 := by decide +kernel
  have hrun := Machine.play_steps hr
  exact ⟨r.1, r.2, hrun, h1, h2, (attended_iff hrun).2 hG⟩

/-- The first `connect(2)` is not permitted. What the client sends waits for nothing. -/
theorem not_permitted_unattended : ∃ tr s, Run (machine "0.0.0.0:8000") tr s ∧
    tr.map Prod.snd = [.newConnection .EPERM, .clientMessage 1 [1] .success] ∧
    (s.link 1).inputBuffer.readable = [1] ∧ ¬ Attended "0.0.0.0:8000" s := by
  obtain ⟨r, hr, h1, h2, se, hse, hc, hn⟩ : ∃ r ∈ (machine "0.0.0.0:8000").play (machine "0.0.0.0:8000").init
      [.newConnection .EPERM, .clientMessage 1 [1] .success],
      r.1.map Prod.snd = [.newConnection .EPERM, .clientMessage 1 [1] .success] ∧
      (r.2.link 1).inputBuffer.readable = [1] ∧
      ∃ se ∈ session "0.0.0.0:8000" r.2 1, se.connecting = true ∧ ¬ se.Trying := by decide +kernel
  exact ⟨r.1, r.2, Machine.play_steps hr, h1, h2, fun A => hn ((A 1 se hse).1 hc)⟩

end Cppnetool.Proxy
