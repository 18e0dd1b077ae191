import Cppnetool.ProxyExpiry
import Cppnetool.ProxyResponses
/-!
# Sessions whose client has gone

A close leaves the session in `sessionMap_`, and its connector and upstream
connection with it: it is the sweep that takes them away. `clientTime_` is at
most a minute ahead when the client goes, and then stays as it is but for one
upstream connection at most, still under way, which sets it to the time at
which it is made. So the session is up for the sweep a minute after the close,
whatever the server still sends.
-/
open Lib

namespace Cppnetool.Proxy

open TcpServer (ConnId)
open Connector (Sock Errno Timer Completes)

variable {name : String} {s s' t u : St} {a : Act} {c : ConnId} {j k : SessionId} {n : TcpClient.ConnId}
  {se se' : Session} {data : List Byte} {e : Errno} {tr pre post : List (St × Act)}

/-- The upstream connection of session `k` is made. -/
def Connects (name : String) (k : SessionId) (s : St) : Act → Prop
  | .connectorEvent j _ err out soError selfConnect =>
    j = k ∧ ∃ se ∈ session name s k, Completes se.tcpClient.connector err out soError selfConnect
  | _ => False

instance (k : SessionId) (s : St) : ∀ a, Decidable (Connects name k s a)
  | .connectorEvent _ _ err out soError selfConnect => inferInstanceAs (Decidable (_ ∧
      ∃ se ∈ session name s k, Completes se.tcpClient.connector err out soError selfConnect))
  | .tick _ | .newConnection _ | .clientMessage .. | .clientClose _ | .upstreamMessage .. | .upstreamClose .. |
    .timers .. | .expire _ => .isFalse id

/-! ## Handlers -/

theorem onTcpServerMessage_clientTime (hse : session name s k = some se)
    (hx : onTcpServerMessage name s k c e = some s') :
    ∃ se', session name s' k = some se' ∧ se'.clientTime = addTime s.now TIMEOUT := by
  simp only [onTcpServerMessage, hse, Option.bind_eq_bind, Option.bind_some] at hx
  obtain ⟨-, -, hx⟩ := Option.bind_eq_some_iff.1 hx
  obtain ⟨conn, -, hx⟩ := Option.bind_eq_some_iff.1 hx
  rcases conn with _ | n
  · dsimp only at hx
    split at hx
    · cases hx
      exact ⟨_, session_setSession, rfl⟩
    · obtain ⟨tcpClient, -, hx⟩ := Option.bind_eq_some_iff.1 hx
      cases hx
      exact ⟨_, session_setSession, rfl⟩
  · cases hx
    exact ⟨_, session_setSession, rfl⟩

theorem onTcpClientMessage_clientTime (S : Served name s) (hse : session name s k = some se)
    (hx : onTcpClientMessage name s k n = some s') : ∃ se', session name s' k = some se' ∧
      se'.clientTime = if Open s k then addTime s.now TIMEOUT else se.clientTime := by
  simp only [onTcpClientMessage, hse, Option.bind_eq_bind, Option.bind_some] at hx
  obtain ⟨p, -, hx⟩ := Option.bind_eq_some_iff.1 hx
  obtain ⟨-, -, hx⟩ := Option.bind_eq_some_iff.1 hx
  rw [S.getConn_fst] at hx
  by_cases ho : Open s k
  · rw [if_pos ho] at hx ⊢
    cases hx
    exact ⟨_, session_setSession, rfl⟩
  · rw [if_neg ho] at hx ⊢
    cases hx
    exact ⟨_, session_setSession, rfl⟩

theorem onTcpClientConnection_clientTime (S : Served name s) (hse : session name s k = some se)
    (hst : (se.tcpClient.conn n).state = .kConnected) (hx : onTcpClientConnection name s k n = some s') :
    ∃ se', session name s' k = some se' ∧ se'.connecting = false ∧
      se'.clientTime = if Open s k then addTime s.now TIMEOUT else s.now := by
  simp only [onTcpClientConnection, hse, Option.bind_eq_bind, Option.bind_some, if_pos hst] at hx
  obtain ⟨p, -, hx⟩ := Option.bind_eq_some_iff.1 hx
  obtain ⟨-, -, hx⟩ := Option.bind_eq_some_iff.1 hx
  rw [S.getConn_fst] at hx
  by_cases ho : Open s k
  · rw [if_pos ho] at hx ⊢
    cases hx
    exact ⟨_, session_setSession, rfl, rfl⟩
  · rw [if_neg ho] at hx ⊢
    cases hx
    exact ⟨_, session_setSession, rfl, rfl⟩

/-! ## Steps -/

/-- What a step makes of a session, `se'` after it. -/
inductive Ages (name : String) (a : Act) (s : St) (k : SessionId) (se' : Session) : Prop
  | kept (se : Session) (hse : session name s k = some se) (time : se'.clientTime = se.clientTime)
      (connecting : se'.connecting = se.connecting) (quiet : ¬ Connects name k s a)
  /-- It is heard of, and its client is connected. -/
  | heard (isOpen : Open s k) (time : se'.clientTime = addTime s.now TIMEOUT)
  /-- The upstream connection comes too late. -/
  | late (se : Session) (hse : session name s k = some se) (connects : Connects name k s a)
      (before : se.connecting = true) (after : se'.connecting = false) (time : se'.clientTime = s.now)
  | made (new : k = s.server.nextConnId) (accept : ∃ e, a = .newConnection e) (time : se'.clientTime = addTime s.now 60)

/-- A step that is not one of this session. -/
theorem ages_other (h : session name s' j = session name s j) (hq : ¬ Connects name j s a)
    (hse' : session name s' j = some se') : Ages name a s j se' :=
  .kept se' (h ▸ hse') rfl rfl hq

/-- A step of session `k`. -/
theorem Keeps.ages (h : Keeps name k s s') (hse' : session name s' k = some se') (hk : Ages name a s k se')
    (hq : ∀ j, j ≠ k → ¬ Connects name j s a) : ∀ j se, session name s' j = some se → Ages name a s j se := by
  refine forall_session h.other hse' hk fun j se hj hs => ?_
  exact .kept se hs rfl rfl (hq j hj)

theorem clientMessage_ages (C : Conserved name s) (hc : Open s c) (hx : clientMessage name s c data e = some s') :
    ∀ j se, session name s' j = some se → Ages name (.clientMessage c data e) s j se := by
  obtain ⟨l, -, hk, hx⟩ := clientMessage_spec C.served hc hx
  obtain ⟨se, hse⟩ := Option.ne_none_iff_exists'.1 (C.served.alive c hc)
  have hk' := hk.trans (onTcpServerMessage_spec (s := setLink s c l) hse hx).1
  obtain ⟨se', hse', ht⟩ := onTcpServerMessage_clientTime (s := setLink s c l) hse hx
  exact hk'.ages hse' (.heard hc ht) fun _ _ h => h

theorem connectorEvent_ages (C : Conserved name s) {i : Sock} {err out self : Bool} {soError : Int}
    (hse : session name s k = some se)
    (ha : TcpClient.enabled se.tcpClient (.connector (.handleEvent i err out soError self)))
    (hx : connectorEvent name s k i err out soError self = some s') : ∀ j se, session name s' j = some se →
      Ages name (.connectorEvent k i err out soError self) s j se := by
  have W := C.wired k se hse
  have hq : ∀ j, j ≠ k → ¬ Connects name j s (.connectorEvent k i err out soError self) :=
    fun j hj h => hj h.1.symm
  have hact : Connects name k s (.connectorEvent k i err out soError self) ↔
      Completes se.tcpClient.connector err out soError self := by simp [Connects, hse]
  simp only [connectorEvent, hse, Option.bind_eq_bind, Option.bind_some] at hx
  obtain ⟨tc, ht, hx⟩ := Option.bind_eq_some_iff.1 hx
  have hcall := calling_iff W ha ht
  split at hx
  · rename_i hnone
    cases hx
    refine (keeps_setSession s k _).ages session_setSession (.kept se hse rfl rfl ?_) hq
    rw [hact, ← hcall]
    exact not_not.2 hnone
  · rename_i hsome
    have hcon := hact.2 (hcall.1 hsome)
    obtain ⟨v, h1, hx⟩ := Option.bind_eq_some_iff.1 hx
    have hk : Keeps name k s (setSession name s k ({ se with tcpClient := tc }.setUpstream se.tcpClient.nextConnId
        { pair := se.pair })) := keeps_setSession s k _
    -- an attempt was under way, so `connecting_` was set
    obtain ⟨hbefore, hst⟩ : se.connecting = true ∧ (tc.conn se.tcpClient.nextConnId).state = .kConnected := by
      rcases W.handleEvent ha ht with ⟨h, -⟩ | ⟨-, -, hst, -⟩
      · exact absurd h hsome
      · refine ⟨?_, hst⟩
        by_contra hf
        have h0 := W.attempts
        rw [if_neg hf] at h0
        obtain ⟨x, hc, h⟩ := TcpClient.runConnector_cases ha.1 ht
        have := (Connector.handleEvent_completes ha.1.2 (hcall.1 hsome) hc).2
        omega
    obtain ⟨se₁, hse₁, hafter, htime⟩ :=
      onTcpClientConnection_clientTime (hk.served C.served) session_setSession hst h1
    have hk' := hk.trans (onTcpClientConnection_spec (hk.served C.served) session_setSession h1).1
    rw [hse₁, Option.bind_some] at hx
    obtain ⟨w, -, hx⟩ := Option.bind_eq_some_iff.1 hx
    cases hx
    refine (hk'.trans (keeps_setSession _ _ _)).ages session_setSession ?_ hq
    by_cases ho : Open s k
    · rw [if_pos (hk.open_iff.2 ho)] at htime
      exact .heard ho htime
    · rw [if_neg fun h => ho (hk.open_iff.1 h)] at htime
      exact .late se hse hcon hbefore hafter htime

theorem upstreamMessage_ages (S : Served name s) (hse : session name s k = some se)
    (hx : upstreamMessage name s k n data = some s') : ∀ j se, session name s' j = some se →
      Ages name (.upstreamMessage k n data) s j se := by
  obtain ⟨hk, -, -, se', hse', -, -, -, hcon, -⟩ := upstreamMessage_spec S hse hx
  refine hk.ages hse' ?_ fun _ _ h => h
  simp only [upstreamMessage, hse, Option.bind_eq_bind, Option.bind_some] at hx
  obtain ⟨l, -, hx⟩ := Option.bind_eq_some_iff.1 hx
  have hk₁ : Keeps name k s (setSession name s k (se.setUpstream n l)) := keeps_setSession s k _
  obtain ⟨se₁, hse₁, htime⟩ := onTcpClientMessage_clientTime (hk₁.served S) session_setSession hx
  cases hse'.symm.trans hse₁
  by_cases ho : Open s k
  · rw [if_pos (hk₁.open_iff.2 ho)] at htime
    exact .heard ho htime
  · rw [if_neg fun h => ho (hk₁.open_iff.1 h)] at htime
    exact .kept se hse htime hcon id

theorem newConnection_ages (hx : newConnection name s e = some s') : ∀ j se, session name s' j = some se →
    Ages name (.newConnection e) s j se := by
  obtain ⟨h, -⟩ := newConnection_spec hx
  simp only [newConnection, server_newConnection _ (show (s.config name).numThreads = 0 from rfl),
    Option.bind_eq_bind, Option.bind_some] at hx
  obtain ⟨v, h1, hx⟩ := Option.bind_eq_some_iff.1 hx
  obtain ⟨server, -, hx⟩ := Option.bind_eq_some_iff.1 hx
  cases hx
  simp only [onTcpServerConnection, Function.update_self, if_true] at h1
  obtain ⟨tcpClient, -, rfl⟩ := newSession_spec (by exact Map.find_insert_self) h1
  exact forall_session h.other Map.find_insert_self (.made rfl ⟨e, rfl⟩ rfl) fun j se _ hj => .kept se hj rfl rfl id

theorem step_ages (C : Conserved name s) (ha : enabled name s a) (hx : exec name s a = some s') :
    ∀ j se, session name s' j = some se → Ages name a s j se := by
  have S := C.served
  cases a with
  | tick now =>
    cases hx
    exact fun j se hj => ages_other rfl id (show session name { s with now } j = some se from hj)
  | newConnection e => exact newConnection_ages hx
  | clientMessage c data e => exact clientMessage_ages C (S.watched c ha.1) hx
  | clientClose c =>
    obtain ⟨-, hs, -⟩ := clientClose_spec S (S.watched c ha) hx
    exact fun j se hj => ages_other (by rw [session, hs]; rfl) id hj
  | connectorEvent k i err out soError self =>
    obtain ⟨se, hse, ha⟩ := ha
    exact connectorEvent_ages C hse ha hx
  | upstreamMessage k n data =>
    obtain ⟨-, se, hse, -⟩ := ha
    exact upstreamMessage_ages S hse hx
  | upstreamClose k n =>
    obtain ⟨se, hse, -⟩ := ha
    obtain ⟨t, u, v, -, -, -, rfl⟩ := upstreamClose_spec hse hx
    exact (keeps_setSession s k _).ages session_setSession (.kept se hse rfl rfl id) fun _ _ h => h
  | timers k ts rest es =>
    obtain ⟨-, se, hse, -⟩ := ha
    obtain ⟨t, u, -, -, rfl⟩ := timers_spec hse hx
    exact (keeps_setSession s k _).ages session_setSession (.kept se hse rfl rfl id) fun _ _ h => h
  | expire k =>
    obtain ⟨h, hnone, -⟩ := eraseSession_spec S hx
    intro j se hj
    by_cases hk : j = k
    · rw [hk, hnone] at hj
      cases hj
    · exact ages_other (h.other j hk) id hj

/-! ## After the close -/

/-- No deadline is more than a minute away. -/
structure Recent (name : String) (s : St) : Prop where
  answered : Answered name s
  time : ∀ k se, session name s k = some se → se.clientTime ≤ addTime s.now 60

theorem addTime_mono {m n : Int} (h : m ≤ n) (seconds : Int) : addTime m seconds ≤ addTime n seconds := by
  simp only [addTime]
  omega

theorem step_recent (R : Recent name s) (ha : enabled name s a) (hx : exec name s a = some s') : Recent name s' := by
  have hnow := exec_now ha hx
  refine ⟨(step_answered R.answered ha hx).1, fun k se' hse' => Int.le_trans ?_ (addTime_mono hnow 60)⟩
  cases step_ages R.answered.conserved ha hx k se' hse' with
  | kept se hse time =>
    rw [time]
    exact R.time k se hse
  | heard _ time =>
    rw [time]
    simp only [addTime, TIMEOUT, kMicroSecondsPerSecond]
    omega
  | late _ _ _ _ _ time =>
    rw [time]
    simp only [addTime, kMicroSecondsPerSecond]
    omega
  | made _ _ time => exact Int.le_of_eq time

/-- How often the upstream connection of session `k` is made. -/
def connections (name : String) (k : SessionId) (tr : List (St × Act)) : Nat :=
  tr.countP fun p => decide (Connects name k p.1 p.2)

/-- Since the close at `closed`: at most one upstream connection has been made,
and if so there is no other attempt. -/
structure Gone (name : String) (k : SessionId) (closed : Int) (post : List (St × Act)) (s : St) : Prop where
  down : ¬ Open s k
  time : ∀ se, session name s k = some se → se.clientTime ≤ addTime closed 60 ∨
    ∃ p ∈ post, Connects name k p.1 p.2 ∧ p.1.now = se.clientTime
  once : connections name k post = 0 ∨
    connections name k post = 1 ∧ ∀ se, session name s k = some se → se.connecting = false

theorem connections_snoc (k : SessionId) (tr : List (St × Act)) (p : St × Act) :
    connections name k (tr ++ [p]) = connections name k tr + if Connects name k p.1 p.2 then 1 else 0 := by
  simp [connections, List.countP_append, List.countP_singleton]

/-- A session whose client has gone stays as it is, or comes to its upstream connection. -/
theorem Gone.step {closed : Int} (G : Gone name k closed post t) (A : Answered name t) (ha : enabled name t a)
    (hx : exec name t a = some u) (hk : k < t.server.nextConnId) : Gone name k closed (post ++ [(t, a)]) u := by
  have hs := (step_answered A ha hx).2
  have hdown : ¬ Open u k := fun ho => (hs.opened k ho).elim G.down (Nat.ne_of_lt hk)
  have hages := step_ages A.conserved ha hx k
  refine ⟨hdown, fun se' hse' => ?_, ?_⟩
  · cases hages se' hse' with
    | kept se hse time =>
      rw [time]
      refine (G.time se hse).imp_right ?_
      rintro ⟨p, hp, h⟩
      exact ⟨p, List.mem_append_left _ hp, h⟩
    | heard isOpen => exact absurd isOpen G.down
    | late _ _ connects _ _ time => exact .inr ⟨(t, a), by simp, connects, time.symm⟩
    | made new => exact absurd new (Nat.ne_of_lt hk)
  · rw [connections_snoc]
    by_cases hc : Connects name k t a
    · -- there is an attempt, so none has been completed
      obtain ⟨se, hse, hcon⟩ : ∃ se, session name t k = some se ∧ se.connecting = true := by
        cases a with
        | connectorEvent j i err out soError self =>
          obtain ⟨rfl, se, hse, hcomp⟩ := hc
          refine ⟨se, hse, ?_⟩
          obtain ⟨se₀, hse₀, ha⟩ := ha
          cases hse₀.symm.trans hse
          by_contra hf
          have h0 := (A.conserved.wired j se hse).attempts
          rw [if_neg hf] at h0
          obtain ⟨tc, ht, -⟩ := connectorEvent_spec A.conserved.served hse hx
          obtain ⟨x, hx, -⟩ := TcpClient.runConnector_cases ha.1 ht
          have := (Connector.handleEvent_completes ha.1.2 hcomp hx).2
          omega
        | _ => exact hc.elim
      have hzero : connections name k post = 0 := by
        rcases G.once with h | ⟨-, h⟩
        · exact h
        · rw [h se hse] at hcon
          cases hcon
      refine .inr ⟨by rw [hzero, if_pos hc], fun se' hse' => ?_⟩
      cases hages se' hse' with
      | kept _ _ _ _ quiet => exact absurd hc quiet
      | heard isOpen => exact absurd isOpen G.down
      | late _ _ _ _ after => exact after
      | made new => exact absurd new (Nat.ne_of_lt hk)
    · rw [if_neg hc, Nat.add_zero]
      refine G.once.imp_right fun ⟨h1, h2⟩ => ⟨h1, fun se' hse' => ?_⟩
      cases hages se' hse' with
      | kept se hse _ connecting => rw [connecting, h2 se hse]
      | heard isOpen => exact absurd isOpen G.down
      | late _ _ connects => exact absurd connects hc
      | made new => exact absurd new (Nat.ne_of_lt hk)

/-- Every session whose client is not connected has seen its close. -/
structure Left (name : String) (tr : List (St × Act)) (s : St) : Prop where
  recent : Recent name s
  left : ∀ k se, session name s k = some se → ¬ Open s k → ∃ pre t post,
    tr = pre ++ (t, .clientClose k) :: post ∧ Gone name k t.now post s

theorem left_run (h : Run (machine name) tr s) : Left name tr s := by
  refine h.inv_trace (I := Left name) ⟨⟨answered_init, fun _ _ h => by cases h⟩, fun _ _ h => by cases h⟩ ?_
  intro tr t a u _ L ha hx
  have A := L.recent.answered
  have hs := (step_answered A ha hx).2
  refine ⟨step_recent L.recent ha hx, fun k se' hse' hdown => ?_⟩
  -- the session was there before
  obtain ⟨se, hse⟩ : ∃ se, session name t k = some se := by
    cases step_ages A.conserved ha hx k se' hse' with
    | kept se hse | late se hse => exact ⟨se, hse⟩
    | heard isOpen => exact Option.ne_none_iff_exists'.1 (A.conserved.served.alive k isOpen)
    | made new accept =>
      obtain ⟨e, rfl⟩ := accept
      exact absurd (new ▸ (newConnection_spec hx).1.up) hdown
  by_cases ho : Open t k
  · obtain rfl : a = .clientClose k := by
      rcases hs.closed k ho with h | h | h
      · exact absurd h hdown
      · exact h
      · rw [hse'] at h
        cases h
    refine ⟨tr, t, [], rfl, hdown, fun se₁ hse₁ => .inl ?_, .inl rfl⟩
    have hages : Ages name (.clientClose k) t k se₁ := step_ages (a := .clientClose k) A.conserved ha hx k se₁ hse₁
    cases hages with
    | kept se hse time =>
      rw [time]
      exact L.recent.time k se hse
    | heard _ time =>
      rw [time]
      simp only [addTime, TIMEOUT, kMicroSecondsPerSecond]
      omega
    | late _ _ connects => exact False.elim connects
    | made _ accept =>
      obtain ⟨e, he⟩ := accept
      cases he
  · obtain ⟨pre, t₀, post, rfl, G⟩ := L.left k se hse ho
    exact ⟨pre, t₀, post ++ [(t, a)], by simp, G.step A ha hx (A.born k se hse)⟩

/-- A session whose client is not connected saw the close of that connection.
From then on at most one upstream connection has been made for it, and when a
minute has passed since the close, and some time since that, the sweep erases it. -/
theorem closed_expires (h : Run (machine name) tr s) (hse : session name s k = some se) (hc : ¬ Open s k) :
    ∃ pre t post, tr = pre ++ (t, .clientClose k) :: post ∧ connections name k post ≤ 1 ∧
      (addTime t.now 60 < s.now → (∀ p ∈ post, Connects name k p.1 p.2 → p.1.now < s.now) → se.Expired s.now) := by
  obtain ⟨pre, t, post, htr, G⟩ := (left_run h).left k se hse hc
  refine ⟨pre, t, post, htr, ?_, fun hminute hpost => .inl ?_⟩
  · rcases G.once with h | ⟨h, -⟩ <;> omega
  · rcases G.time se hse with h | ⟨p, hp, hcon, htime⟩
    · exact Int.lt_of_le_of_lt h hminute
    · rw [← htime]
      exact hpost p hp hcon

/-- The client goes while its session is still connecting. The connection comes
when a minute has passed, and what its server sends does not keep the session. -/
theorem closed_expires_late : ∃ tr s, Run (machine "0.0.0.0:8000") tr s ∧
    ∃ se, session "0.0.0.0:8000" s 1 = some se ∧ ¬ Open s 1 ∧ se.serverTime = s.now ∧ se.Expired s.now ∧
      ∃ pre t post, tr = pre ++ (t, .clientClose 1) :: post ∧ connections "0.0.0.0:8000" 1 post ≤ 1 ∧
        (addTime t.now 60 < s.now → (∀ p ∈ post, Connects "0.0.0.0:8000" 1 p.1 p.2 → p.1.now < s.now) →
          se.Expired s.now) := by
  obtain ⟨r, hr, se, hse, ho, ht, he⟩ : ∃ r ∈ (machine "0.0.0.0:8000").play (machine "0.0.0.0:8000").init
      [.newConnection .EINPROGRESS, .tick 1000000, .clientClose 1, .tick 70000000,
        .connectorEvent 1 0 false true 0 false, .tick 75000000, .upstreamMessage 1 1 [7]],
      ∃ se ∈ session "0.0.0.0:8000" r.2 1, ¬ Open r.2 1 ∧ se.serverTime = r.2.now ∧ se.Expired r.2.now := by
    decide +kernel
  have hrun := Machine.play_steps hr
  exact ⟨r.1, r.2, hrun, se, hse, ho, ht, he, closed_expires hrun hse ho⟩

end Cppnetool.Proxy
