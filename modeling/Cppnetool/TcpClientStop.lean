import Cppnetool.TcpClientAttempts
/-!
# Stop is final

What is under way when `stop` is called still arrives: a connecting channel, a
timer that has been taken out to run, the end of the connection. `connect_` of
the `Connector` ends the first two, and `connect_` of the `TcpClient` the last.
-/
open Lib

namespace Cppnetool.Connector

variable {s s' : St} {c : Sock} {o : Errno}

/-- The calls that ask for a connection. -/
def Act.starts : Act → Bool
  | .start _ | .restart _ | .startElsewhere => true
  | _ => false

/-- Nothing has been made since `s₀`, and nothing handed over: no socket, no
retry timer, no call of `newConnectionCallback_`. -/
structure Since (s₀ s : St) : Prop where
  created : s.created = s₀.created
  timers : s.timers = s₀.timers
  handed : s.handed = s₀.handed

/-- `connect_` is false, and nothing has come of what was under way. -/
structure Stopped (s₀ s : St) : Prop extends Since s₀ s where
  connect : s.connect = false

theorem Stopped.refl (h : s.connect = false) : Stopped s s := ⟨⟨rfl, rfl, rfl⟩, h⟩

theorem Stopped.trans {t u : St} (h : Stopped s t) (h' : Stopped t u) : Stopped s u :=
  ⟨⟨h'.created.trans h.created, h'.timers.trans h.timers, h'.handed.trans h.handed⟩, h'.connect⟩

theorem startInLoop_stopped (h : s.connect = false) : startInLoop s o = s := if_neg (by simp [h])

/-- The socket is closed, and that is the end of the attempt. -/
theorem retry_stopped (h : s.connect = false) : Stopped s (retry s c) := by
  unfold retry
  dsimp only
  rw [if_neg (by simp [close, h])]
  exact ⟨⟨rfl, rfl, rfl⟩, h⟩

theorem handleEvent_stopped {err out : Bool} {soError : Int} {selfConnect : Bool} (h : s.connect = false)
    (hx : handleEvent s c err out soError selfConnect = some s') : Stopped s s' := by
  have hretry : Stopped s (retry { s with registered := s.registered.erase c } c) :=
    Stopped.trans (t := { s with registered := s.registered.erase c }) ⟨⟨rfl, rfl, rfl⟩, h⟩ (retry_stopped h)
  obtain ⟨-, ⟨-, rfl⟩ | ⟨-, -, rfl⟩ | ⟨-, -, -, ⟨-, rfl⟩ | ⟨-, -, hc, -⟩ | ⟨-, -, -, rfl⟩⟩⟩ := handleEvent_cases hx
  · exact hretry
  · exact .refl h
  · exact hretry.trans ⟨⟨rfl, rfl, rfl⟩, hretry.connect⟩
  · rw [h] at hc
    cases hc
  · exact ⟨⟨rfl, rfl, rfl⟩, h⟩

/-- Nothing comes of any step until the next call that asks for a connection. -/
theorem exec_stopped {a : Act} (h : s.connect = false) (ha : a.starts = false) (hx : exec s a = some s') :
    Stopped s s' := by
  cases a with
  | start | restart | startElsewhere => cases ha
  | stop =>
    cases hx
    exact ⟨⟨rfl, rfl, rfl⟩, rfl⟩
  | stopElsewhere =>
    cases hx
    exact ⟨⟨rfl, rfl, rfl⟩, rfl⟩
  | runFunctor o =>
    obtain ⟨rest, ⟨timerId, -, rfl⟩ | ⟨-, -, rfl⟩⟩ := runFunctor_cases hx
    · exact ⟨⟨rfl, rfl, rfl⟩, h⟩
    · rw [startInLoop_stopped (s := { s with queued := rest }) h]
      exact ⟨⟨rfl, rfl, rfl⟩, h⟩
  | expire ts rest =>
    cases hx
    exact ⟨⟨rfl, rfl, rfl⟩, h⟩
  | runTimer o =>
    obtain ⟨t, rest, -, -, rfl⟩ := runTimer_cases hx
    rw [startInLoop_stopped (s := { s with expired := rest }) h]
    exact ⟨⟨rfl, rfl, rfl⟩, h⟩
  | handleEvent c err out soError selfConnect => exact handleEvent_stopped h hx
  | callbackReturns =>
    obtain ⟨-, -, hx⟩ := Option.bind_eq_some_iff.1 hx
    cases hx
    exact ⟨⟨rfl, rfl, rfl⟩, h⟩
  | destroy =>
    obtain ⟨registered, -, rfl⟩ := destroy_cases hx
    exact ⟨⟨rfl, rfl, rfl⟩, h⟩

end Cppnetool.Connector

namespace Cppnetool.TcpClient

open Connector (Sock Errno)

variable {s s' : St} {c : ConnId}

/-- The calls that ask for a connection. -/
def Act.starts : Act → Bool
  | .connect _ => true
  | .connector a => a.starts
  | _ => false

/-- Neither the client nor its connector is to connect, and nothing has come of
what was under way in `s₀`: there is no new connection either. -/
structure Stopped (s₀ s : St) : Prop where
  connect : s.connect = false
  connector : Connector.Stopped s₀.connector s.connector
  nextConnId : s.nextConnId = s₀.nextConnId

theorem Stopped.congr {s₀ : St} (h : Stopped s₀ s) (hc : s'.connect = s.connect) (hk : s'.connector = s.connector)
    (hn : s'.nextConnId = s.nextConnId) : Stopped s₀ s' :=
  ⟨hc.trans h.connect, by rw [hk]; exact h.connector, hn.trans h.nextConnId⟩

theorem completes_connect {a : Connector.Act} (h : (Act.connector a).completes s) : s.connector.connect = true := by
  cases a with
  | handleEvent => exact h.2.2.2.2.2
  | _ => cases h

theorem runConnector_stopped {s₀ : St} {a : Connector.Act} (h : Stopped s₀ s) (hs : a.starts = false)
    (ha : Connector.enabled s.connector a) (hx : runConnector s a = some s') : Stopped s₀ s' := by
  obtain ⟨k, hk, ⟨-, rfl⟩ | ⟨hc, -⟩⟩ := runConnector_cases ha hx
  · exact ⟨h.connect, h.connector.trans (Connector.exec_stopped h.connector.connect hs hk), h.nextConnId⟩
  · have hcon := completes_connect hc
    rw [h.connector.connect] at hcon
    cases hcon

theorem destroyConnection_stopped {s₀ : St} (h : Stopped s₀ s) (hx : destroyConnection s c = some s') :
    Stopped s₀ s' := by
  obtain ⟨d, -, hx⟩ := Option.bind_eq_some_iff.1 hx
  obtain ⟨t, ht, hx⟩ := Option.bind_eq_some_iff.1 hx
  obtain ⟨-, -, ht⟩ := Option.bind_eq_some_iff.1 ht
  cases ht
  cases hx
  exact h.congr rfl rfl rfl

/-- `retry_` or not, `connect_` is false: there is no reconnect. -/
theorem connectionDestroyed_stopped {s₀ : St} {o : Errno} (h : Stopped s₀ s)
    (hx : connectionDestroyed s c o = some s') : Stopped s₀ s' := by
  obtain ⟨-, -, hx⟩ := Option.bind_eq_some_iff.1 hx
  simp only [h.connect, Bool.false_eq_true, and_false, if_false] at hx
  cases hx
  exact ⟨rfl, h.connector, h.nextConnId⟩

theorem ret_stopped {s₀ : St} {o : Errno} (h : Stopped s₀ s) (hx : ret s o = some s') : Stopped s₀ s' := by
  unfold ret at hx
  split at hx
  · rename_i hc
    exact runConnector_stopped (a := .callbackReturns) h rfl hc hx
  · split at hx
    · exact destroyConnection_stopped (s := { s with frame := none }) (h.congr rfl rfl rfl) hx
    · exact connectionDestroyed_stopped (s := { s with frame := none }) (h.congr rfl rfl rfl) hx
    · cases hx

theorem step_stopped {s₀ : St} {a : Act} (h : Stopped s₀ s) (he : enabled s a) (hs : a.starts = false)
    (hx : exec s a = some s') : Stopped s₀ s' := by
  cases a with
  | connect => cases hs
  | disconnect =>
    cases hx
    unfold disconnect
    dsimp only
    split
    · rename_i d _
      obtain ⟨hk, -, hn, -⟩ := shutdown_spec { s with connect := false } d
      have hc : (shutdown { s with connect := false } d).connect = false := by
        unfold shutdown
        split <;> rfl
      exact ⟨hc, by rw [hk]; exact h.connector, hn.trans h.nextConnId⟩
    · exact ⟨rfl, h.connector, h.nextConnId⟩
  | stop =>
    exact runConnector_stopped (s := { s with connect := false }) (a := .stop)
      ⟨rfl, h.connector, h.nextConnId⟩ rfl he hx
  | enableRetry | setCloseCallback =>
    cases hx
    exact h.congr rfl rfl rfl
  | connector a => exact runConnector_stopped h hs he.1 hx
  | handleClose c =>
    change removeConnection s c = some s' at hx
    unfold removeConnection at hx
    split at hx
    · cases hx
      exact h.congr rfl rfl rfl
    · exact destroyConnection_stopped h hx
  | ret o => exact ret_stopped h hx

/-- `stop` itself leaves both flags false, whatever is under way. -/
theorem stop_stopped (hx : exec s .stop = some s') : Stopped s s' := by
  cases hx
  exact ⟨rfl, ⟨⟨rfl, rfl, rfl⟩, rfl⟩, rfl⟩

/-- After `stop`, and until the next call that asks for a connection, no socket
is created, no retry timer is scheduled and `newConnectionCallback_` is not called. -/
theorem stop_final {pre post : List (St × Act)} {t : St} (h : Run machine (pre ++ (s, .stop) :: post) t)
    (hs : Meets (fun _ a => a.starts = false) post) :
    Connector.Since s.connector t.connector ∧ t.nextConnId = s.nextConnId := by
  obtain ⟨_, -, h⟩ := h.split
  cases h with
  | cons _ hx h =>
    have hst := h.inv_if (Stopped s) _ (fun _ _ _ hi he ha hx => step_stopped hi he ha hx) hs (stop_stopped hx)
    exact ⟨hst.connector.toSince, hst.nextConnId⟩

/-- Retries are enabled, the first connection is established, and a second
attempt and a retry are under way: `stop` comes in the batch of the timer. -/
theorem stop_final_under_way : ∃ pre s post t, Run machine (pre ++ (s, .stop) :: post) t ∧
    Meets (fun _ a => a.starts = false) post ∧ Established s 1 ∧ s.connector.registered = [2] ∧
    s.connector.expired ≠ [] ∧ ¬ Established t 1 ∧ t.connector.closed = [1, 2] ∧
    Connector.Since s.connector t.connector ∧ t.nextConnId = s.nextConnId := by
  let before : List Act := [.enableRetry, .connect .EINPROGRESS, .connector (.handleEvent 0 false true 0 false),
    .ret .success, .connect .ECONNREFUSED, .connect .EINPROGRESS, .connector (.expire [⟨0, 500⟩] [])]
  let after : List Act := [.connector (.runTimer .success), .connector (.handleEvent 2 false true 0 false),
    .handleClose 1, .ret .success]
  obtain ⟨r, hr, hall⟩ : ∃ r ∈ machine.play machine.init (before ++ .stop :: after),
      ∃ p ∈ r.1[7]?, p.2 = .stop ∧ Meets (fun _ a => a.starts = false) (r.1.drop 8) ∧ Established p.1 1 ∧
      p.1.connector.registered = [2] ∧ p.1.connector.expired ≠ [] ∧ ¬ Established r.2 1 ∧
      r.2.connector.closed = [1, 2] := by decide +kernel
  obtain ⟨⟨s, a⟩, hp, rfl, hm, he, hreg, hexp, hend, hcl⟩ := hall
  have hsplit : r.1 = r.1.take 7 ++ (s, .stop) :: r.1.drop 8 := by
    obtain ⟨hlt, hget⟩ := List.getElem?_eq_some_iff.1 hp
    rw [← hget, ← List.drop_eq_getElem_cons hlt, List.take_append_drop]
  have hrun : Run machine (r.1.take 7 ++ (s, .stop) :: r.1.drop 8) r.2 := hsplit ▸ Machine.play_steps hr
  exact ⟨_, s, _, r.2, hrun, hm, he, hreg, hexp, hend, hcl, stop_final hrun hm⟩

end Cppnetool.TcpClient
