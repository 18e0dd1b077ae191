import Cppnetool.ConnectorAttempts
import Cppnetool.TcpClient
/-!
# One attempt at a time

Neither `start` nor `restart` asks whether an attempt is under way, and
`newConnection` does not look at the connection it replaces: `Alone` is what
the callers have to see to.
-/
open Lib

namespace Cppnetool.TcpClient

open Connector (Errno Sock load Idle Completes Gains)

variable {s s' : St} {c d : ConnId} {sockfd : Sock}

/-- At most one attempt, and at most one connection that is established. -/
structure Single (s : St) : Prop where
  channels : s.connector.registered.length ≤ 1
  timers : (s.connector.waiting ++ s.connector.expired).length ≤ 1
  apart : s.connector.registered = [] ∨ s.connector.waiting ++ s.connector.expired = []
  connections : ∀ c d, Established s c → Established s d → c = d

/-- The result of the `connect(2)` that a call of `connect`, `start` or
`restart` comes to; `removeConnection` may end in one. -/
def Act.begins (s : St) : Act → Option Errno
  | .connect o => some o
  | .connector a => a.begins s.connector
  | .ret o =>
    if s.connector.calling ≠ none then none
    else
      match s.frame with
      | some (.destroyed _) => if s.retry ∧ s.connect then some o else none
      | _ => none
  | _ => none

/-- The event with which `newConnection` is called. -/
def Act.completes (s : St) : Act → Prop
  | .connector (.handleEvent _ err out soError selfConnect) => Completes s.connector err out soError selfConnect
  | _ => False

instance (s : St) : ∀ a, Decidable (Act.completes s a)
  | .connector (.handleEvent _ err out soError selfConnect) =>
    inferInstanceAs (Decidable (Completes s.connector err out soError selfConnect))
  | .connector (.start _) | .connector (.restart _) | .connector .stop | .connector .startElsewhere
  | .connector .stopElsewhere | .connector (.runFunctor _) | .connector (.expire ..) | .connector (.runTimer _)
  | .connector .callbackReturns | .connector .destroy
  | .connect _ | .disconnect | .stop | .enableRetry | .setCloseCallback _ | .handleClose _ | .ret _ => .isFalse id

/-- A call that begins an attempt finds none, and `newConnection` finds no
connection that is still established. -/
def Alone (s : St) (a : Act) : Prop :=
  (∀ o ∈ a.begins s, o.attempts = true → Idle s.connector) ∧
    (a.completes s → ∀ c ∈ s.connection, ¬ Established s c)

instance (s : St) (a : Act) : Decidable (Alone s a) :=
  inferInstanceAs (Decidable ((∀ _ ∈ _, _) ∧ (_ → ∀ _ ∈ _, _)))

/-! ## Connections -/

/-- Only `connection_` is established, and it is not any more once
`removeConnection` has destroyed it. -/
structure Held (s : St) : Prop where
  current : ∀ c, Established s c → s.connection = some c
  fresh : ∀ c, Established s c → c < s.nextConnId
  ended : ∀ c, s.frame = some (.destroyed c) → ∀ d, ¬ Established s d

theorem established_update {k : Conn} (h : s'.conn = Function.update s.conn c k) :
    Established s' d ↔ if d = c then k.state = .kConnected ∨ k.state = .kDisconnecting else Established s d := by
  unfold Established
  rw [h]
  by_cases hd : d = c
  · subst hd
    simp
  · simp [hd]

theorem Held.congr (H : Held s) (hc : s'.conn = s.conn) (h : s'.connection = s.connection)
    (hn : s'.nextConnId = s.nextConnId) (hf : s'.frame = s.frame) : Held s' := by
  have he : ∀ c, Established s' c ↔ Established s c := fun c => by rw [Established, Established, hc]
  refine ⟨?_, ?_, ?_⟩
  · intro c hc
    rw [h]; exact H.current c ((he c).1 hc)
  · intro c hc
    rw [hn]; exact H.fresh c ((he c).1 hc)
  · intro c hc d hd
    rw [hf] at hc; exact H.ended c hc d ((he d).1 hd)

theorem Held.returned (H : Held s) : Held { s with frame := none } := ⟨H.current, H.fresh, nofun⟩

theorem newConnection_eq (s : St) (sockfd : Sock) : newConnection s sockfd = some
    { s with
      state := true
      nextConnId := s.nextConnId + 1
      conn := Function.update s.conn s.nextConnId { sockfd, state := .kConnected }
      connection := some s.nextConnId } := by
  simp [newConnection, connectEstablished]

theorem newConnection_established (hx : newConnection s sockfd = some s') :
    s'.connector = s.connector ∧ (Established s' d ↔ d = s.nextConnId ∨ Established s d) := by
  rw [newConnection_eq] at hx
  cases hx
  refine ⟨rfl, ?_⟩
  rw [established_update rfl]
  by_cases hd : d = s.nextConnId <;> simp [hd]

theorem newConnection_held (H : Held s) (hf : s.frame = none) (hn : ∀ c ∈ s.connection, ¬ Established s c)
    (hx : newConnection s sockfd = some s') : Held s' := by
  have he := fun d => (newConnection_established (d := d) hx).2
  -- what is established is `connection_`, and that is not
  have hno : ∀ c, ¬ Established s c := fun c hc => hn c (H.current c hc) hc
  rw [newConnection_eq] at hx
  cases hx
  refine ⟨?_, ?_, ?_⟩
  · intro c hc
    rw [((he c).1 hc).resolve_right (hno c)]
  · intro c hc
    rw [((he c).1 hc).resolve_right (hno c)]
    exact Nat.lt_succ_self _
  · intro c hc
    rw [hf] at hc
    cases hc

theorem shutdown_established : Established (shutdown s c) d ↔ Established s d := by
  unfold shutdown
  split
  · rename_i h
    rw [established_update rfl]
    split
    · rename_i hd
      subst hd
      simp [Established, h]
    · rfl
  · rfl

theorem shutdown_spec (s : St) (c : ConnId) : (shutdown s c).connector = s.connector ∧
    (shutdown s c).connection = s.connection ∧ (shutdown s c).nextConnId = s.nextConnId ∧
    (shutdown s c).frame = s.frame := by
  unfold shutdown
  split <;> exact ⟨rfl, rfl, rfl, rfl⟩

theorem disconnect_spec (H : Held s) : Held (disconnect s) ∧ (disconnect s).connector = s.connector := by
  have H' : Held { s with connect := false } := H.congr rfl rfl rfl rfl
  unfold disconnect
  dsimp only
  split
  · rename_i c _
    obtain ⟨h1, h2, h3, h4⟩ := shutdown_spec { s with connect := false } c
    refine ⟨⟨?_, ?_, ?_⟩, h1⟩
    · intro d hd
      rw [h2]; exact H'.current d (shutdown_established.1 hd)
    · intro d hd
      rw [h3]; exact H'.fresh d (shutdown_established.1 hd)
    · intro e he d hd
      rw [h4] at he; exact H'.ended e he d (shutdown_established.1 hd)
  · exact ⟨H', rfl⟩

/-- After `connectDestroyed` nothing is established. -/
theorem destroyConnection_held (H : Held s) (hx : destroyConnection s c = some s') :
    Held s' ∧ s'.connector = s.connector := by
  obtain ⟨d, hd, hx⟩ := Option.bind_eq_some_iff.1 hx
  obtain ⟨t, ht, hx⟩ := Option.bind_eq_some_iff.1 hx
  obtain ⟨-, -, ht⟩ := Option.bind_eq_some_iff.1 ht
  cases ht; cases hx
  -- only `connection_` was established, and it is what is destroyed
  have hno : ∀ e, ¬ Established { s with
      conn := Function.update s.conn d { s.conn d with state := .kDisconnected }, frame := some (.destroyed c) } e := by
    intro e he
    rw [established_update rfl] at he
    split at he
    · simp at he
    · rename_i hne
      have := H.current e he
      rw [hd] at this
      exact hne (Option.some.inj this).symm
  exact ⟨⟨fun e he => (hno e he).elim, fun e he => (hno e he).elim, fun _ _ => hno⟩, rfl⟩

theorem removeConnection_held (H : Held s) (hx : removeConnection s c = some s') :
    Held s' ∧ s'.connector = s.connector := by
  unfold removeConnection at hx
  split at hx
  · cases hx
    exact ⟨⟨H.current, H.fresh, fun _ h => by cases h⟩, rfl⟩
  · exact destroyConnection_held H hx

/-! ## Steps -/

/-- A step of the connector calls `newConnection` exactly when it completes an attempt. -/
theorem runConnector_cases {a : Connector.Act} (ha : Connector.enabled s.connector a)
    (hx : runConnector s a = some s') : ∃ connector, Connector.exec s.connector a = some connector ∧
      ((¬ (Act.connector a).completes s ∧ s' = { s with connector }) ∨
        ((Act.connector a).completes s ∧ ∃ sockfd, newConnection { s with connector } sockfd = some s')) := by
  obtain ⟨connector, hc, hx⟩ := Option.bind_eq_some_iff.1 hx
  refine ⟨connector, hc, ?_⟩
  cases a with
  | handleEvent c err out soError selfConnect =>
    have hcall := (Connector.handleEvent_load ha.2 hc).2
    dsimp only at hx
    by_cases h : Completes s.connector err out soError selfConnect
    · rw [if_pos h] at hcall
      rw [hcall] at hx
      exact .inr ⟨h, c, hx⟩
    · rw [if_neg h, ha.1.1] at hcall
      rw [hcall] at hx
      cases hx
      exact .inl ⟨h, rfl⟩
  | _ =>
    cases hx
    exact .inl ⟨id, rfl⟩

theorem runConnector_gains {a : Connector.Act} (ha : Connector.enabled s.connector a)
    (hx : runConnector s a = some s') : Gains (a.begins s.connector) s.connector s'.connector := by
  obtain ⟨connector, hc, ⟨-, rfl⟩ | ⟨-, sockfd, hn⟩⟩ := runConnector_cases ha hx
  · exact Connector.exec_gains ha hc
  · rw [(newConnection_established (d := 0) hn).1]
    exact Connector.exec_gains ha hc

theorem connectionDestroyed_gains {o : Errno} (hx : connectionDestroyed s c o = some s') :
    Gains (if s.retry ∧ s.connect then some o else none) s.connector s'.connector := by
  obtain ⟨-, -, hx⟩ := Option.bind_eq_some_iff.1 hx
  dsimp only at hx
  split at hx
  · rename_i h
    rw [if_pos h]
    cases hx
    exact Connector.startInLoop_gains (t := { s.connector with
      state := .kDisconnected, retryDelayMs := Connector.kInitRetryDelayMs, connect := true }) rfl
  · rename_i h
    rw [if_neg h]
    cases hx
    exact .inr ⟨nofun, Nat.le_refl _⟩

theorem step_gains {a : Act} (H : Held s) (ha : enabled s a) (hx : exec s a = some s') :
    Gains (a.begins s) s.connector s'.connector := by
  have quiet : ∀ {k}, k = s.connector → Gains none s.connector k := fun h => .inr ⟨nofun, Nat.le_of_eq (h ▸ rfl)⟩
  cases a with
  | connect o => exact runConnector_gains (s := { s with connect := true }) (a := .start o) ha hx
  | stop => exact runConnector_gains (s := { s with connect := false }) (a := .stop) ha hx
  | connector a => exact runConnector_gains ha.1 hx
  | disconnect =>
    cases hx
    exact quiet (disconnect_spec H).2
  | enableRetry | setCloseCallback =>
    cases hx
    exact quiet rfl
  | handleClose c => exact quiet (removeConnection_held H hx).2
  | ret o =>
    simp only [exec, ret] at hx
    split at hx
    · rename_i hcall
      rw [Act.begins, if_pos hcall]
      exact runConnector_gains (a := .callbackReturns) hcall hx
    · rename_i hcall
      have hcall := Classical.not_not.1 hcall
      split at hx
      · rename_i c hf
        simp only [Act.begins, hcall, hf]
        exact quiet (destroyConnection_held H.returned hx).2
      · rename_i c hf
        simp only [Act.begins, hcall, hf]
        exact connectionDestroyed_gains (s := { s with frame := none }) hx
      · cases hx

theorem runConnector_held {a : Connector.Act} (H : Held s) (ha : Connector.enabled s.connector a)
    (hf : ofLoop a = true → s.frame = none)
    (hg : (Act.connector a).completes s → ∀ c ∈ s.connection, ¬ Established s c)
    (hx : runConnector s a = some s') : Held s' := by
  obtain ⟨connector, -, ⟨-, rfl⟩ | ⟨hc, sockfd, hn⟩⟩ := runConnector_cases ha hx
  · exact H.congr rfl rfl rfl rfl
  · have hfn : s.frame = none := by
      cases a with
      | handleEvent => exact hf rfl
      | _ => exact hc.elim
    exact newConnection_held (s := { s with connector }) (H.congr rfl rfl rfl rfl) hfn (hg hc) hn

theorem step_held {a : Act} (H : Held s) (ha : enabled s a) (hg : Alone s a) (hx : exec s a = some s') :
    Held s' := by
  cases a with
  | connect o =>
    exact runConnector_held (s := { s with connect := true }) (a := .start o) (H.congr rfl rfl rfl rfl) ha
      nofun nofun hx
  | stop =>
    exact runConnector_held (s := { s with connect := false }) (a := .stop) (H.congr rfl rfl rfl rfl) ha
      nofun nofun hx
  | connector a => exact runConnector_held H ha.1 ha.2.1 hg.2 hx
  | disconnect =>
    cases hx
    exact (disconnect_spec H).1
  | enableRetry | setCloseCallback =>
    cases hx
    exact H.congr rfl rfl rfl rfl
  | handleClose c => exact (removeConnection_held H hx).1
  | ret o =>
    simp only [exec, ret] at hx
    split at hx
    · rename_i hcall
      exact runConnector_held (a := .callbackReturns) H hcall nofun nofun hx
    · split at hx
      · exact (destroyConnection_held H.returned hx).1
      · rename_i c hf
        have hno := H.ended c hf
        obtain ⟨-, -, hx⟩ := Option.bind_eq_some_iff.1 hx
        dsimp only at hx
        split at hx <;> cases hx <;>
          exact ⟨fun d hd => (hno d hd).elim, fun d hd => (hno d hd).elim, nofun⟩
      · cases hx

/-- `newConnection` leaves the connection that was established as it is. -/
theorem step_overwrites {a : Act} (ha : enabled s a) (hc : a.completes s) (hx : exec s a = some s') :
    Established s' s.nextConnId ∧ ∀ c, Established s c → Established s' c := by
  cases a with
  | connector a =>
    obtain ⟨connector, -, ⟨hnc, -⟩ | ⟨-, sockfd, hn⟩⟩ := runConnector_cases ha.1 hx
    · exact absurd hc hnc
    · exact ⟨(newConnection_established hn).2.2 (.inl rfl), fun c h => (newConnection_established hn).2.2 (.inr h)⟩
  | _ => exact hc.elim

/-! ## Runs -/

theorem single_iff : Single s ↔ load s.connector ≤ 1 ∧ ∀ c d, Established s c → Established s d → c = d := by
  constructor
  · rintro ⟨h1, h2, h3, h4⟩
    refine ⟨?_, h4⟩
    rw [load]
    rcases h3 with h | h <;> rw [h, List.length_nil] <;> omega
  · rintro ⟨h, h4⟩
    rw [load] at h
    refine ⟨by omega, by omega, ?_, h4⟩
    rw [← List.length_eq_zero_iff, ← List.length_eq_zero_iff]
    omega

theorem step_single {a : Act} (H : Held s) (hl : load s.connector ≤ 1) (ha : enabled s a) (hg : Alone s a)
    (hx : exec s a = some s') : load s'.connector ≤ 1 := by
  rcases step_gains H ha hx with ⟨o, ho, hat, h⟩ | ⟨-, h⟩
  · have := Connector.load_eq_zero.2 (hg.1 o ho hat)
    omega
  · omega

theorem step_not_single {a : Act} (H : Held s) (ha : enabled s a) (hg : ¬ Alone s a)
    (hx : exec s a = some s') : ¬ Single s' := by
  intro S
  refine hg ⟨?_, ?_⟩
  · intro o ho hat
    have hl := (single_iff.1 S).1
    rcases step_gains H ha hx with ⟨o', -, -, h⟩ | ⟨h, -⟩
    · exact Connector.load_eq_zero.1 (by omega)
    · rw [h o ho] at hat
      cases hat
  · intro hc c hcc he
    obtain ⟨hn, hk⟩ := step_overwrites ha hc hx
    have := S.connections c s.nextConnId (hk c he) hn
    exact absurd (H.fresh c he) (Nat.not_lt.2 (Nat.le_of_eq this.symm))

theorem held_init : Held machine.init where
  current c h := by simp [Established, machine] at h
  fresh c h := by simp [Established, machine] at h
  ended c h := by cases h

/-- In every state of a run there is at most one attempt and at most one
established connection, exactly when every step was `Alone`. -/
theorem single_attempt_iff {tr : List (St × Act)} (h : Run machine tr s) :
    (∀ t, Visited tr s t → Single t) ↔ Meets Alone tr := by
  refine h.throughout_iff (fun t => Held t ∧ load t.connector ≤ 1) Single Alone ⟨held_init, Nat.zero_le _⟩ ?_ ?_ ?_
  · rintro t ⟨H, hl⟩
    refine single_iff.2 ⟨hl, ?_⟩
    intro c d hc hd
    exact Option.some.inj ((H.current c hc).symm.trans (H.current d hd))
  · rintro t a t' ⟨H, hl⟩ ha hg hx
    exact ⟨step_held H ha hg hx, step_single H hl ha hg hx⟩
  · rintro t a t' ⟨H, -⟩ ha hg hx
    exact step_not_single H ha hg hx

/-- An attempt that is refused, retried and completed, a close by the peer, and
the attempt that `removeConnection` begins after it. -/
theorem single_attempt_iff_reconnect : ∃ tr s, Run machine tr s ∧ s.nextConnId = 2 ∧
    s.connector.registered = [2] ∧ ∀ t, Visited tr s t → Single t := by
  obtain ⟨r, hr, h1, h2, hG⟩ : ∃ r ∈ machine.play machine.init
      [.enableRetry, .connect .ECONNREFUSED, .connector (.expire [⟨0, 500⟩] []), .connector (.runTimer .EINPROGRESS),
        .connector (.handleEvent 1 false true 0 false), .ret .success, .handleClose 1, .ret .EINPROGRESS],
      r.2.nextConnId = 2 ∧ r.2.connector.registered = [2] ∧ Meets Alone r.1 := by decide
  have hrun := Machine.play_steps hr
  exact ⟨r.1, r.2, hrun, h1, h2, (single_attempt_iff hrun).2 hG⟩

/-- A second `connect` while the first is pending: two connecting channels are
registered, and `channel_` holds the second only. -/
theorem two_attempts_connect : ∃ tr s, Run machine tr s ∧
    tr.map Prod.snd = [.connect .EINPROGRESS, .connect .EINPROGRESS] ∧
    s.connector.registered = [0, 1] ∧ s.connector.channel = some 1 ∧ ¬ Single s := by
  obtain ⟨r, hr, h1, h2, h3⟩ : ∃ r ∈ machine.play machine.init [.connect .EINPROGRESS, .connect .EINPROGRESS],
      r.1.map Prod.snd = [.connect .EINPROGRESS, .connect .EINPROGRESS] ∧
        r.2.connector.registered = [0, 1] ∧ r.2.connector.channel = some 1 := by decide
  refine ⟨r.1, r.2, Machine.play_steps hr, h1, h2, h3, ?_⟩
  intro S
  have := S.channels
  rw [h2] at this
  revert this
  decide

end Cppnetool.TcpClient
