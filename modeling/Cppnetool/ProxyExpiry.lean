import Mathlib.Order.Bounds.Defs
import Cppnetool.ProxyStream
/-!
# When a session expires

A session has a deadline for each side, set from the clock or from each other
while it is connecting. Once its upstream connection is up, whatever sets one
sets the other as well: they are the time of the last that was heard on either
side, or of the connection itself, and `TIMEOUT` seconds more.
-/
open Lib

namespace Cppnetool.Proxy

open TcpServer (ConnId)
open Connector (Sock Errno Timer Completes)

variable {name : String} {s s' t : St} {a : Act} {c : ConnId} {j k : SessionId} {n : TcpClient.ConnId}
  {se se' : Session} {data : List Byte} {e : Errno} {tc tc' : TcpClient.St} {connecting : Bool}
  {tr : List (St × Act)} {p : St × Act} {time : Int}

/-- Both deadlines are `TIMEOUT` seconds after `time`. -/
def Session.Until (se : Session) (time : Int) : Prop :=
  se.clientTime = addTime time TIMEOUT ∧ se.serverTime = addTime time TIMEOUT

theorem Session.Until.expired_iff (h : se.Until time) (now : Int) :
    se.Expired now ↔ TIMEOUT * kMicroSecondsPerSecond < now - time := by
  rw [Session.Expired, h.1, h.2, addTime]
  omega

/-- A session is heard of: a message of its client or of its upstream
connection, or that connection is established. -/
def Active (name : String) (k : SessionId) (s : St) : Act → Prop
  | .clientMessage c _ _ => c = k
  | .upstreamMessage j _ _ => j = k
  | .connectorEvent j _ err out soError selfConnect =>
    j = k ∧ ∃ se ∈ session name s k, Completes se.tcpClient.connector err out soError selfConnect
  | _ => False

/-- The times at which a session was heard of. -/
def times (name : String) (k : SessionId) (tr : List (St × Act)) : Set Int :=
  {time | ∃ p ∈ tr, Active name k p.1 p.2 ∧ p.1.now = time}

theorem times_quiet (h : ¬ Active name k p.1 p.2) : times name k (tr ++ [p]) = times name k tr := by
  ext time
  simp [times, or_and_right, exists_or, h]

theorem times_active (h : Active name k p.1 p.2) (hle : ∀ q ∈ tr, q.1.now ≤ p.1.now) :
    IsGreatest (times name k (tr ++ [p])) p.1.now := by
  refine ⟨⟨p, by simp, h, rfl⟩, ?_⟩
  rintro time ⟨q, hq, -, rfl⟩
  rcases List.mem_append.1 hq with hq | hq
  · exact hle q hq
  · exact Int.le_of_eq (by rw [List.mem_singleton.1 hq])

/-! ## The clock -/

theorem removeConn_now {connName : String} (hx : removeConn name s connName = some s') : s'.now = s.now := by
  obtain ⟨server, -, hx⟩ := Option.bind_eq_some_iff.1 hx
  split at hx
  · cases hx
    rfl
  · obtain ⟨_, -, hx⟩ := Option.bind_eq_some_iff.1 hx
    cases hx
    rfl

theorem onTcpClientConnection_now (hx : onTcpClientConnection name s k n = some s') : s'.now = s.now := by
  obtain ⟨se, -, hx⟩ := Option.bind_eq_some_iff.1 hx
  split at hx
  · obtain ⟨_, -, hx⟩ := Option.bind_eq_some_iff.1 hx
    obtain ⟨_, -, hx⟩ := Option.bind_eq_some_iff.1 hx
    dsimp only at hx
    split at hx <;> (cases hx; rfl)
  · cases hx
    rfl

theorem onTcpClientMessage_now (hx : onTcpClientMessage name s k n = some s') : s'.now = s.now := by
  obtain ⟨se, -, hx⟩ := Option.bind_eq_some_iff.1 hx
  obtain ⟨_, -, hx⟩ := Option.bind_eq_some_iff.1 hx
  obtain ⟨_, -, hx⟩ := Option.bind_eq_some_iff.1 hx
  dsimp only at hx
  split at hx <;> (cases hx; rfl)

theorem onTcpServerMessage_now (hx : onTcpServerMessage name s k c e = some s') : s'.now = s.now := by
  obtain ⟨se, -, hx⟩ := Option.bind_eq_some_iff.1 hx
  obtain ⟨_, -, hx⟩ := Option.bind_eq_some_iff.1 hx
  obtain ⟨conn, -, hx⟩ := Option.bind_eq_some_iff.1 hx
  rcases conn with _ | n
  · dsimp only at hx
    split at hx
    · cases hx
      rfl
    · obtain ⟨_, -, hx⟩ := Option.bind_eq_some_iff.1 hx
      cases hx
      rfl
  · cases hx
    rfl

theorem newConnection_now (hx : newConnection name s e = some s') : s'.now = s.now := by
  obtain ⟨server, -, hx⟩ := Option.bind_eq_some_iff.1 hx
  obtain ⟨t, ht, hx⟩ := Option.bind_eq_some_iff.1 hx
  obtain ⟨_, -, hx⟩ := Option.bind_eq_some_iff.1 hx
  cases hx
  unfold onTcpServerConnection at ht
  split at ht
  · obtain ⟨_, -, ht⟩ := Option.bind_eq_some_iff.1 ht
    obtain ⟨_, -, ht⟩ := Option.bind_eq_some_iff.1 ht
    cases ht
    rfl
  · cases ht
    rfl

theorem clientClose_now (hx : clientClose name s c = some s') : s'.now = s.now := by
  obtain ⟨server, -, hx⟩ := Option.bind_eq_some_iff.1 hx
  split at hx
  · obtain ⟨_, -, hx⟩ := Option.bind_eq_some_iff.1 hx
    obtain ⟨_, -, hx⟩ := Option.bind_eq_some_iff.1 hx
    cases hx
    rfl
  · obtain ⟨_, -, hx⟩ := Option.bind_eq_some_iff.1 hx
    cases hx
    rfl

theorem connectorEvent_now {i : Sock} {err out self : Bool} {soError : Int}
    (hx : connectorEvent name s k i err out soError self = some s') : s'.now = s.now := by
  obtain ⟨se, -, hx⟩ := Option.bind_eq_some_iff.1 hx
  obtain ⟨tcpClient, -, hx⟩ := Option.bind_eq_some_iff.1 hx
  split at hx
  · cases hx
    rfl
  · obtain ⟨t, ht, hx⟩ := Option.bind_eq_some_iff.1 hx
    obtain ⟨_, -, hx⟩ := Option.bind_eq_some_iff.1 hx
    obtain ⟨_, -, hx⟩ := Option.bind_eq_some_iff.1 hx
    cases hx
    have h := onTcpClientConnection_now ht
    exact h

/-- The clock stands still but for `tick`, and does not go back. -/
theorem exec_now (ha : enabled name s a) (hx : exec name s a = some s') : s.now ≤ s'.now := by
  cases a with
  | tick now =>
    cases hx
    exact ha
  | newConnection e => exact Int.le_of_eq (newConnection_now hx).symm
  | clientMessage c data e =>
    obtain ⟨l, -, hx⟩ := Option.bind_eq_some_iff.1 hx
    obtain ⟨_, -, hx⟩ := Option.bind_eq_some_iff.1 hx
    exact Int.le_of_eq (onTcpServerMessage_now hx).symm
  | clientClose c => exact Int.le_of_eq (clientClose_now hx).symm
  | connectorEvent => exact Int.le_of_eq (connectorEvent_now hx).symm
  | upstreamMessage k n data =>
    obtain ⟨se, -, hx⟩ := Option.bind_eq_some_iff.1 hx
    obtain ⟨l, -, hx⟩ := Option.bind_eq_some_iff.1 hx
    exact Int.le_of_eq (onTcpClientMessage_now hx).symm
  | upstreamClose k n =>
    obtain ⟨se, hse, -⟩ := ha
    obtain ⟨t, u, v, -, -, -, rfl⟩ := upstreamClose_spec hse hx
    exact Int.le_refl _
  | timers k ts rest es =>
    obtain ⟨-, se, hse, -⟩ := ha
    obtain ⟨t, u, -, -, rfl⟩ := timers_spec hse hx
    exact Int.le_refl _
  | expire k =>
    obtain ⟨se, -, hx⟩ := Option.bind_eq_some_iff.1 hx
    obtain ⟨t, ht, hx⟩ := Option.bind_eq_some_iff.1 hx
    obtain ⟨_, -, hx⟩ := Option.bind_eq_some_iff.1 hx
    cases hx
    exact Int.le_of_eq (removeConn_now ht).symm

/-! ## What sets the deadlines -/

theorem onTcpServerMessage_until (hse : session name s k = some se)
    (hn : getTcpClientConn se.tcpClient = some (some n)) (hx : onTcpServerMessage name s k c e = some s') :
    ∃ se', session name s' k = some se' ∧ se'.Until s.now := by
  simp only [onTcpServerMessage, hse, Option.bind_eq_bind, Option.bind_some] at hx
  obtain ⟨-, -, hx⟩ := Option.bind_eq_some_iff.1 hx
  rw [hn] at hx
  cases hx
  exact ⟨_, session_setSession, rfl, rfl⟩

theorem onTcpClientMessage_until (S : Served name s) (hse : session name s k = some se) (ho : Open s k)
    (hx : onTcpClientMessage name s k n = some s') : ∃ se', session name s' k = some se' ∧ se'.Until s.now := by
  simp only [onTcpClientMessage, hse, Option.bind_eq_bind, Option.bind_some] at hx
  obtain ⟨p, -, hx⟩ := Option.bind_eq_some_iff.1 hx
  obtain ⟨-, -, hx⟩ := Option.bind_eq_some_iff.1 hx
  rw [S.getConn_fst, if_pos ho] at hx
  cases hx
  exact ⟨_, session_setSession, rfl, rfl⟩

theorem onTcpClientConnection_until (S : Served name s) (hse : session name s k = some se) (ho : Open s k)
    (hst : (se.tcpClient.conn n).state = .kConnected) (hx : onTcpClientConnection name s k n = some s') :
    ∃ se', session name s' k = some se' ∧ se'.Until s.now := by
  simp only [onTcpClientConnection, hse, Option.bind_eq_bind, Option.bind_some, if_pos hst] at hx
  obtain ⟨p, -, hx⟩ := Option.bind_eq_some_iff.1 hx
  obtain ⟨-, -, hx⟩ := Option.bind_eq_some_iff.1 hx
  rw [S.getConn_fst, if_pos ho] at hx
  cases hx
  exact ⟨_, session_setSession, rfl, rfl⟩

/-- The event that establishes the upstream connection. -/
theorem connectorEvent_until (S : Served name s) (hse : session name s k = some se) (ho : Open s k) {i : Sock}
    {err out self : Bool} {soError : Int}
    (ht : TcpClient.exec se.tcpClient (.connector (.handleEvent i err out soError self)) = some tc)
    (hcall : tc.connector.calling ≠ none) (hst : (tc.conn se.tcpClient.nextConnId).state = .kConnected)
    (hx : connectorEvent name s k i err out soError self = some s') :
    ∃ se', session name s' k = some se' ∧ se'.Until s.now := by
  simp only [connectorEvent, hse, Option.bind_eq_bind, Option.bind_some, ht, if_neg hcall] at hx
  obtain ⟨t, h1, hx⟩ := Option.bind_eq_some_iff.1 hx
  have hk : Keeps name k s (setSession name s k ({ se with tcpClient := tc }.setUpstream se.tcpClient.nextConnId
      { pair := se.pair })) := keeps_setSession s k _
  obtain ⟨se₁, hse₁, hu⟩ := onTcpClientConnection_until (hk.served S) session_setSession (hk.open_iff.2 ho) hst h1
  rw [hse₁, Option.bind_some] at hx
  obtain ⟨u, -, hx⟩ := Option.bind_eq_some_iff.1 hx
  cases hx
  exact ⟨_, session_setSession, hu⟩

theorem upstreamMessage_until (S : Served name s) (hse : session name s k = some se) (ho : Open s k)
    (hx : upstreamMessage name s k n data = some s') : ∃ se', session name s' k = some se' ∧ se'.Until s.now := by
  simp only [upstreamMessage, hse, Option.bind_eq_bind, Option.bind_some] at hx
  obtain ⟨l, -, hx⟩ := Option.bind_eq_some_iff.1 hx
  have hk : Keeps name k s (setSession name s k (se.setUpstream n l)) := keeps_setSession s k _
  have h := onTcpClientMessage_until (hk.served S) session_setSession (hk.open_iff.2 ho) hx
  exact h

/-- `newConnectionCallback_` is called for the event that completes an attempt. -/
theorem calling_iff (W : Wired tc connecting) {i : Sock} {err out self : Bool} {soError : Int}
    (ha : TcpClient.enabled tc (.connector (.handleEvent i err out soError self)))
    (hx : TcpClient.exec tc (.connector (.handleEvent i err out soError self)) = some tc') :
    tc'.connector.calling ≠ none ↔ Completes tc.connector err out soError self := by
  obtain ⟨x, hc, h⟩ := TcpClient.runConnector_cases ha.1 hx
  have hcall := (Connector.handleEvent_load ha.1.2 hc).2
  rcases h with ⟨hn, rfl⟩ | ⟨hn, sockfd, hnew⟩
  · have hcall := hcall.trans (if_neg hn)
    exact iff_of_false (not_not.2 (hcall.trans W.polling.1)) hn
  · have hcall := hcall.trans (if_pos hn)
    have hk : tc'.connector = x := (TcpClient.newConnection_established (d := 0) hnew).1
    rw [hk, hcall]
    exact iff_of_true nofun hn

/-! ## Steps -/

/-- The deadlines of `se'`, after an action: those of now, for a session that
was heard of, and those that `se` had. -/
def Sets (active : Prop) (s : St) (k : SessionId) (se se' : Session) : Prop :=
  Open s k → ∀ n, se'.tcpClient.connection = some n → (active ∧ se'.Until s.now) ∨
    (¬ active ∧ se.tcpClient.connection = some n ∧ se'.clientTime = se.clientTime ∧ se'.serverTime = se.serverTime)

/-- What a step does to the deadlines of the sessions whose two connections are up. -/
def Timely (name : String) (a : Act) (s s' : St) : Prop := ∀ k se', session name s' k = some se' → Open s' k →
  ∀ n, se'.tcpClient.connection = some n → Open s k ∧ ((Active name k s a ∧ se'.Until s.now) ∨
    (¬ Active name k s a ∧ ∃ se, session name s k = some se ∧ se.tcpClient.connection = some n ∧
      se'.clientTime = se.clientTime ∧ se'.serverTime = se.serverTime))

/-- A step of session `k`. -/
theorem Keeps.timely (h : Keeps name k s s') (hse : session name s k = some se) (hse' : session name s' k = some se')
    (hk : Sets (Active name k s a) s k se se') (hq : ∀ j, j ≠ k → ¬ Active name j s a) : Timely name a s s' := by
  refine forall_session h.other hse' (fun ho n hn => ⟨h.open_iff.1 ho, ?_⟩) fun j sj hj hs ho n hn => ?_
  · exact (hk (h.open_iff.1 ho) n hn).imp id fun ⟨hq, h⟩ => ⟨hq, se, hse, h⟩
  · exact ⟨h.open_iff.1 ho, .inr ⟨hq j hj, sj, hs, hn, rfl, rfl⟩⟩

/-- A step that only takes connections or sessions away. -/
theorem timely_closes (hq : ∀ j, ¬ Active name j s a) (ho : ∀ j, Open s' j → Open s j)
    (hs : ∀ j se, session name s' j = some se → session name s j = some se) : Timely name a s s' :=
  fun j sj hj hoj _ hn => ⟨ho j hoj, .inr ⟨hq j, sj, hs j sj hj, hn, rfl, rfl⟩⟩

theorem clientMessage_timely (C : Conserved name s) (hc : Open s c) (hx : clientMessage name s c data e = some s') :
    Timely name (.clientMessage c data e) s s' := by
  obtain ⟨l, -, hk, hx⟩ := clientMessage_spec C.served hc hx
  obtain ⟨se, hse⟩ := Option.ne_none_iff_exists'.1 (C.served.alive c hc)
  have W := C.wired c se hse
  obtain ⟨hk', se', hse', -, -, h⟩ := onTcpServerMessage_spec (s := setLink s c l) hse hx
  refine (hk.trans hk').timely hse hse' (fun _ n hn => ?_) fun j hj h => hj h.symm
  rcases h with ⟨m, hm, -⟩ | ⟨hm, -, -, h3, h4⟩
  · obtain ⟨_, hs, hu⟩ := onTcpServerMessage_until (s := setLink s c l) hse hm hx
    rw [hse'] at hs
    cases hs
    exact .inl ⟨rfl, hu⟩
  · -- without a connection there was none to make either
    rw [getTcpClientConn_eq W] at hm
    have hnone : se'.tcpClient.connection = none := by
      split at h4
      · rw [h4]
        exact Option.some.inj hm
      · rename_i hcon
        rw [Bool.eq_false_iff.2 hcon] at W
        exact (W.connect (Option.some.inj hm) h4).2.1
    rw [hnone] at hn
    cases hn

theorem connectorEvent_timely (C : Conserved name s) {i : Sock} {err out self : Bool} {soError : Int}
    (hse : session name s k = some se)
    (ha : TcpClient.enabled se.tcpClient (.connector (.handleEvent i err out soError self)))
    (hx : connectorEvent name s k i err out soError self = some s') :
    Timely name (.connectorEvent k i err out soError self) s s' := by
  obtain ⟨t, ht, h⟩ := connectorEvent_spec C.served hse hx
  have W := C.wired k se hse
  have hcall := calling_iff W ha ht
  have hact : Active name k s (.connectorEvent k i err out soError self) ↔
      Completes se.tcpClient.connector err out soError self := by simp [Active, hse]
  have hq : ∀ j, j ≠ k → ¬ Active name j s (.connectorEvent k i err out soError self) := fun j hj h => hj h.1.symm
  rcases W.handleEvent ha ht with ⟨hnone, -, hc, -⟩ | ⟨hsome, -, hst, -⟩
  · rcases h with ⟨-, rfl⟩ | ⟨h, -⟩
    · refine (keeps_setSession s k _).timely hse session_setSession (fun _ n hn => .inr ⟨?_, ?_, rfl, rfl⟩) hq
      · rw [hact, ← hcall]
        exact not_not.2 hnone
      · rw [← hc]
        exact hn
    · exact absurd hnone h
  · rcases h with ⟨h, -⟩ | ⟨-, hk, -, se', hse', -⟩
    · exact absurd h hsome
    · refine hk.timely hse hse' (fun ho n _ => .inl ⟨hact.2 (hcall.1 hsome), ?_⟩) hq
      obtain ⟨_, hs, hu⟩ := connectorEvent_until C.served hse ho ht hsome hst hx
      rw [hse'] at hs
      cases hs
      exact hu

theorem step_timely (C : Conserved name s) (ha : enabled name s a) (hx : exec name s a = some s') :
    Timely name a s s' := by
  have S := C.served
  cases a with
  | tick now =>
    cases hx
    exact timely_closes (fun _ h => h) (fun _ => id) fun _ _ => id
  | newConnection e =>
    obtain ⟨h, se, hse, -, -, -, ht⟩ := newConnection_spec hx
    have hnone : se.tcpClient.connection = none := (wired_init.connect rfl ht).2.1
    refine forall_session h.other hse (fun _ n hn => ?_) fun j sj hj hs ho n hn => ?_
    · rw [hnone] at hn
      cases hn
    · exact ⟨(h.open_iff.1 ho).resolve_left hj, .inr ⟨id, sj, hs, hn, rfl, rfl⟩⟩
  | clientMessage c data e => exact clientMessage_timely C (S.watched c ha.1) hx
  | clientClose c =>
    obtain ⟨h, hs, -⟩ := clientClose_spec S (S.watched c ha) hx
    refine timely_closes (fun _ h => h) (fun j hj => (h.open_iff.1 hj).2) fun j se hj => ?_
    rw [session, hs] at hj
    exact hj
  | connectorEvent k i err out soError self =>
    obtain ⟨se, hse, ha⟩ := ha
    exact connectorEvent_timely C hse ha hx
  | upstreamMessage k n data =>
    obtain ⟨-, se, hse, -⟩ := ha
    obtain ⟨h, -, -, se', hse', -⟩ := upstreamMessage_spec S hse hx
    refine h.timely hse hse' (fun ho _ _ => .inl ⟨rfl, ?_⟩) fun j hj h => hj h.symm
    obtain ⟨_, hs, hu⟩ := upstreamMessage_until S hse ho hx
    rw [hse'] at hs
    cases hs
    exact hu
  | upstreamClose k n =>
    obtain ⟨se, hse, ha⟩ := ha
    obtain ⟨t, u, v, ht, hu, hv, rfl⟩ := upstreamClose_spec hse hx
    obtain ⟨-, hnone, -⟩ := (C.wired k se hse).close ha.2.2 ht hu hv
    refine (keeps_setSession s k _).timely hse session_setSession (fun _ n hn => ?_) fun _ _ h => h
    rw [hnone] at hn
    cases hn
  | timers k ts rest es =>
    obtain ⟨hl, se, hse, ha⟩ := ha
    obtain ⟨t, u, ht, hu, rfl⟩ := timers_spec hse hx
    obtain ⟨-, hc, -⟩ := (C.wired k se hse).timers ha hl ht hu
    refine (keeps_setSession s k _).timely hse session_setSession (fun _ n hn => ?_) fun _ _ h => h
    exact .inr ⟨id, hc ▸ hn, rfl, rfl⟩
  | expire k =>
    obtain ⟨h, hnone, -⟩ := eraseSession_spec S hx
    refine timely_closes (fun _ h => h) (fun j hj => (h.open_iff.1 hj).2) fun j se hj => ?_
    by_cases hk : j = k
    · rw [hk, hnone] at hj
      cases hj
    · rw [← h.other j hk]
      exact hj

/-! ## Runs -/

/-- The sessions whose two connections are up have the deadlines of the last that was heard of them. -/
structure Timed (name : String) (tr : List (St × Act)) (s : St) : Prop where
  conserved : Conserved name s
  past : ∀ p ∈ tr, p.1.now ≤ s.now
  latest : ∀ k se, session name s k = some se → Open s k → ∀ n, se.tcpClient.connection = some n →
    ∃ time, IsGreatest (times name k tr) time ∧ se.Until time

theorem timed_run (h : Run (machine name) tr s) : Timed name tr s := by
  refine h.inv_trace (I := Timed name) ⟨conserved_init, by simp, fun _ _ h => by cases h⟩ ?_
  intro tr t a u _ T ha hx
  refine ⟨step_conserved T.conserved ha hx, ?_, ?_⟩
  · intro p hp
    refine Int.le_trans ?_ (exec_now ha hx)
    rcases List.mem_append.1 hp with hp | hp
    · exact T.past p hp
    · exact Int.le_of_eq (by rw [List.mem_singleton.1 hp])
  · intro k se hse ho n hn
    obtain ⟨ho, ⟨hact, hu⟩ | ⟨hq, se₀, hse₀, hn₀, h1, h2⟩⟩ := step_timely T.conserved ha hx k se hse ho n hn
    · exact ⟨t.now, times_active (p := (t, a)) hact T.past, hu⟩
    · obtain ⟨time, hg, h3, h4⟩ := T.latest k se₀ hse₀ ho n hn₀
      refine ⟨time, ?_, h1.trans h3, h2.trans h4⟩
      rw [times_quiet (p := (t, a)) hq]
      exact hg

/-- A session whose client connection is open and whose upstream connection is
established is to be erased exactly when more than `TIMEOUT` seconds have passed
since the latest of what was heard of it. -/
theorem expired_iff_inactive (h : Run (machine name) tr s) (hse : session name s k = some se) (ho : Open s k)
    (he : TcpClient.Established se.tcpClient n) : ∃ time, IsGreatest (times name k tr) time ∧
      (se.Expired s.now ↔ TIMEOUT * kMicroSecondsPerSecond < s.now - time) := by
  have T := timed_run h
  obtain ⟨time, hg, hu⟩ := T.latest k se hse ho n ((T.conserved.wired k se hse).only n he)
  exact ⟨time, hg, hu.expired_iff s.now⟩

/-- Connected, lost and connected again, with messages on both sides, and 6
seconds of silence: one more microsecond would be too much. -/
theorem expired_iff_inactive_reconnect : ∃ tr s, Run (machine "0.0.0.0:8000") tr s ∧ Open s 1 ∧
    ∃ se ∈ session "0.0.0.0:8000" s 1, TcpClient.Established se.tcpClient 2 ∧ ¬ se.Expired s.now ∧
      se.Expired (s.now + 1) ∧
      ∃ time, IsGreatest (times "0.0.0.0:8000" 1 tr) time ∧
        (se.Expired s.now ↔ TIMEOUT * kMicroSecondsPerSecond < s.now - time) := by
  obtain ⟨r, hr, ho, se, hse, he, h1, h2⟩ : ∃ r ∈ (machine "0.0.0.0:8000").play (machine "0.0.0.0:8000").init
      [.newConnection .EINPROGRESS, .tick 1000000, .clientMessage 1 [1] .success,
        .connectorEvent 1 0 false true 0 false, .tick 2000000, .upstreamMessage 1 1 [7], .upstreamClose 1 1,
        .tick 3000000, .clientMessage 1 [2] .EINPROGRESS, .connectorEvent 1 1 false true 0 false, .tick 4000000,
        .upstreamMessage 1 2 [8], .tick 10000000],
      Open r.2 1 ∧ ∃ se ∈ session "0.0.0.0:8000" r.2 1, TcpClient.Established se.tcpClient 2 ∧
        ¬ se.Expired r.2.now ∧ se.Expired (r.2.now + 1) := by decide +kernel
  have hrun := Machine.play_steps hr
  exact ⟨r.1, r.2, hrun, ho, se, hse, he, h1, h2, expired_iff_inactive hrun hse ho he⟩

end Cppnetool.Proxy
