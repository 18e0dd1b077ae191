import Cppnetool.Connector
/-!
# Attempts under way

An attempt is a connecting channel in the poller or a retry timer that is
still to run. A step of the loop ends one attempt before it begins another; a
call of `start` or `restart` begins one whatever there is.
-/
open Lib

namespace Cppnetool.Connector

variable {s s' : St} {c : Sock} {o : Errno} {err out : Bool} {soError : Int} {selfConnect : Bool}

/-- How many attempts there are. -/
def load (s : St) : Nat := s.registered.length + (s.waiting ++ s.expired).length

def Idle (s : St) : Prop := s.registered = [] ∧ s.waiting ++ s.expired = []

instance (s : St) : Decidable (Idle s) := inferInstanceAs (Decidable (_ ∧ _))

theorem load_eq_zero : load s = 0 ↔ Idle s := by
  rw [load, Nat.add_eq_zero_iff, List.length_eq_zero_iff, List.length_eq_zero_iff]
  rfl

/-- The results of `connect(2)` after which there is an attempt: the socket is
pending, or there will be a retry. -/
def Errno.attempts : Errno → Bool
  | .success | .EINPROGRESS | .EINTR | .EISCONN => true
  | .EAGAIN | .EADDRINUSE | .EADDRNOTAVAIL | .ECONNREFUSED | .ENETUNREACH => true
  | _ => false

/-- The result of the `connect(2)` that a call of `start` or `restart` comes to. -/
def Act.begins (s : St) : Act → Option Errno
  | .start o | .restart o => some o
  | .runFunctor o => if s.queued.head? = some .startInLoop ∧ s.connect = true then some o else none
  | _ => none

/-- The event with which `handleWrite` comes to `newConnectionCallback_`. -/
def Completes (s : St) (err out : Bool) (soError : Int) (selfConnect : Bool) : Prop :=
  err = false ∧ out = true ∧ s.state = .kConnecting ∧ soError = 0 ∧ selfConnect = false ∧ s.connect = true

instance : Decidable (Completes s err out soError selfConnect) := inferInstanceAs (Decidable (_ ∧ _))

theorem connect_load (h : s.connect = true) : load (connect s o) = load s + if o.attempts then 1 else 0 := by
  cases o <;> simp [connect, connecting, retry, close, runAfter, load, Errno.attempts, h] <;> omega

theorem startInLoop_load (s : St) (o : Errno) :
    load (startInLoop s o) = load s + if s.connect ∧ o.attempts then 1 else 0 := by
  unfold startInLoop
  split
  · rename_i h
    simp [connect_load h, h]
  · simp_all

theorem cancelInLoop_load (s : St) (t : Option Nat) : load (cancelInLoop s t) ≤ load s := by
  have := List.length_filter_le (fun x => decide (some x.sequence ≠ t)) s.waiting
  simp only [load, cancelInLoop, List.length_append]
  omega

theorem retry_load (s : St) (c : Sock) : load (retry s c) ≤ load s + 1 := by
  unfold retry
  dsimp only
  split
  · simp only [load, close, runAfter, List.length_append, List.length_singleton]
    omega
  · simp [load, close]

/-- The channel that leaves the poller is one attempt less. -/
theorem erase_load (hr : c ∈ s.registered) : load { s with registered := s.registered.erase c } + 1 = load s := by
  have := List.length_erase_of_mem hr
  have := List.length_pos_of_mem hr
  simp only [load]
  omega

/-- The event that completes an attempt. -/
theorem handleEvent_completes (hr : c ∈ s.registered) (h : Completes s err out soError selfConnect)
    (hx : handleEvent s c err out soError selfConnect = some s') : s' = { s with
      registered := s.registered.erase c, state := .kConnected, handed := s.handed ++ [c], calling := some c } ∧
    load s' + 1 = load s := by
  obtain ⟨h1, h2, h3, h4, h5, h6⟩ := h
  obtain ⟨-, ⟨e, -⟩ | ⟨-, e | e, -⟩ | ⟨-, -, -, ⟨e | e, -⟩ | ⟨-, -, -, rfl⟩ | ⟨-, -, e, -⟩⟩⟩ := handleEvent_cases hx
  · simp [e] at h1
  · simp [e] at h2
  · exact absurd h3 e
  · exact absurd h4 e
  · simp [e] at h5
  · exact ⟨rfl, erase_load hr⟩
  · simp [e] at h6

/-- An event never leaves more attempts, and `newConnectionCallback_` is called
exactly for an event that completes one. -/
theorem handleEvent_load (hr : c ∈ s.registered) (hx : handleEvent s c err out soError selfConnect = some s') :
    load s' ≤ load s ∧ s'.calling = if Completes s err out soError selfConnect then some c else s.calling := by
  have hl := erase_load hr
  have h1 := retry_load { s with registered := s.registered.erase c } c
  have h2 := (retry_leaves { s with registered := s.registered.erase c } c).2.2.1
  by_cases h : Completes s err out soError selfConnect
  · rw [if_pos h]
    obtain ⟨rfl, hl⟩ := handleEvent_completes hr h hx
    exact ⟨by omega, rfl⟩
  · rw [if_neg h]
    obtain ⟨-, ⟨-, rfl⟩ | ⟨-, -, rfl⟩ | ⟨e1, e2, e3, ⟨-, rfl⟩ | ⟨e4, e5, e6, -⟩ | ⟨-, -, -, rfl⟩⟩⟩ :=
      handleEvent_cases hx
    · exact ⟨by omega, h2⟩
    · exact ⟨Nat.le_refl _, rfl⟩
    · exact ⟨by simp only [resetChannel, load] at *; omega, h2⟩
    · exact absurd ⟨e1, e2, e3, e4, e5, e6⟩ h
    · exact ⟨by simp only [resetChannel, close, load] at *; omega, rfl⟩

/-- What an event does to the channel, the poller and the callback. -/
theorem handleEvent_leaves (hx : handleEvent s c err out soError selfConnect = some s') : s.channel = some c ∧
    (s'.channel = some c ∨ s'.channel = none) ∧
    (s'.registered = s.registered ∧ s'.channel = some c ∨ s'.registered = s.registered.erase c) ∧
    s'.calling = if Completes s err out soError selfConnect then some c else s.calling := by
  obtain ⟨hch, -, hcall, hr⟩ := retry_leaves { s with registered := s.registered.erase c } c
  obtain ⟨hc, h⟩ := handleEvent_cases hx
  refine ⟨hc, ?_⟩
  rcases h with ⟨e, rfl⟩ | ⟨-, h, rfl⟩ | ⟨e1, e2, e3, ⟨h, rfl⟩ | ⟨e4, e5, e6, rfl⟩ | ⟨-, -, e, rfl⟩⟩
  · exact ⟨.inl (hch.trans hc), .inr hr, hcall.trans (if_neg fun h => by simp [h.1] at e).symm⟩
  · refine ⟨.inl hc, .inl ⟨rfl, hc⟩, (if_neg fun hC => ?_).symm⟩
    rcases h with h | h
    · simp [hC.2.1] at h
    · exact h hC.2.2.1
  · refine ⟨.inr rfl, .inr hr, hcall.trans (if_neg fun hC => ?_).symm⟩
    rcases h with h | h
    · exact h hC.2.2.2.1
    · simp [hC.2.2.2.2.1] at h
  · exact ⟨.inl hc, .inr rfl, (if_pos ⟨e1, e2, e3, e4, e5, e6⟩).symm⟩
  · exact ⟨.inr rfl, .inr rfl, (if_neg fun hC => by simp [hC.2.2.2.2.2] at e).symm⟩

/-! ## A connector that is to connect -/

/-- The attempt that has failed is followed by another. -/
theorem retry_attempt (h : s.connect = true) (c : Sock) :
    load (retry s c) = load s + 1 ∧ (retry s c).connect = true := by
  unfold retry
  dsimp only
  rw [if_pos (show (close s c).connect = true from h)]
  refine ⟨?_, h⟩
  simp only [load, close, runAfter, List.length_append, List.length_singleton]
  omega

theorem startInLoop_connect (s : St) (o : Errno) : (startInLoop s o).connect = s.connect := by
  unfold startInLoop
  split
  · rename_i h
    cases o <;> simp [connect, connecting, retry, close, runAfter, h]
  · rfl

/-- An event leaves as many attempts, but for the one that it completes. -/
theorem handleEvent_attempt (h : s.connect = true) (hr : c ∈ s.registered)
    (hx : handleEvent s c err out soError selfConnect = some s') :
    s'.connect = true ∧ (¬ Completes s err out soError selfConnect → load s' = load s) := by
  have hl := erase_load hr
  obtain ⟨h1, h2⟩ := retry_attempt (s := { s with registered := s.registered.erase c }) h c
  obtain ⟨-, ⟨-, rfl⟩ | ⟨-, -, rfl⟩ | ⟨e1, e2, e3, ⟨-, rfl⟩ | ⟨e4, e5, e6, rfl⟩ | ⟨-, -, e, -⟩⟩⟩ :=
    handleEvent_cases hx
  · exact ⟨h2, fun _ => by omega⟩
  · exact ⟨h, fun _ => rfl⟩
  · exact ⟨h2, fun _ => by simp only [resetChannel, load] at *; omega⟩
  · exact ⟨h, fun hn => absurd ⟨e1, e2, e3, e4, e5, e6⟩ hn⟩
  · rw [h] at e
    cases e

theorem runTimer_attempt (h : s.connect = true) (hx : runTimer s o = some s') :
    s'.connect = true ∧ load s' + 1 = load s + if o.attempts then 1 else 0 := by
  obtain ⟨t, rest, he, -, rfl⟩ := runTimer_cases hx
  have hl := startInLoop_load { s with expired := rest } o
  refine ⟨(startInLoop_connect _ o).trans h, ?_⟩
  have : load { s with expired := rest } + 1 = load s := by
    simp only [load, he, List.length_append, List.length_cons]
    omega
  have hif : (if s.connect = true ∧ o.attempts = true then 1 else 0) = if o.attempts then 1 else 0 := by simp [h]
  have hl : load (startInLoop { s with expired := rest } o) = _ + _ := hl.trans (congrArg _ hif)
  omega

/-! ## Steps -/

/-- How a step changes the number of attempts: one more for a call that begins
one, and otherwise none. -/
def Gains (begins : Option Errno) (s s' : St) : Prop :=
  (∃ o ∈ begins, o.attempts = true ∧ load s' = load s + 1) ∨
    ((∀ o ∈ begins, o.attempts = false) ∧ load s' ≤ load s)

/-- `startInLoop` from a state that counts the same. -/
theorem startInLoop_gains {t : St} (h : load t = load s) :
    Gains (if t.connect = true then some o else none) s (startInLoop t o) := by
  have hl := startInLoop_load t o
  by_cases hc : t.connect = true
  · rw [if_pos hc]
    cases ha : o.attempts with
    | true =>
      rw [if_pos ⟨hc, ha⟩] at hl
      exact .inl ⟨o, rfl, ha, by omega⟩
    | false =>
      rw [if_neg (by simp [ha])] at hl
      exact .inr ⟨fun o' ho => by cases ho; exact ha, by omega⟩
  · rw [if_neg hc]
    rw [if_neg (fun h => hc h.1)] at hl
    exact .inr ⟨nofun, by omega⟩

theorem runTimer_load (hx : runTimer s o = some s') : load s' ≤ load s := by
  obtain ⟨t, rest, he, -, rfl⟩ := runTimer_cases hx
  have hl := startInLoop_load { s with expired := rest } o
  have : load { s with expired := rest } + 1 = load s := by
    simp only [load, he, List.length_append, List.length_cons]
    omega
  split at hl <;> omega

theorem runFunctor_gains (hx : runFunctor s o = some s') : Gains (Act.begins s (.runFunctor o)) s s' := by
  obtain ⟨rest, ⟨timerId, hq, rfl⟩ | ⟨hq, -, rfl⟩⟩ := runFunctor_cases hx
  · exact .inr ⟨by simp [Act.begins, hq], cancelInLoop_load { s with queued := rest } timerId⟩
  · have : Act.begins s (.runFunctor o) = if s.connect = true then some o else none := by simp [Act.begins, hq]
    rw [this]
    exact startInLoop_gains (t := { s with queued := rest }) rfl

theorem destroy_load (hx : destroy s = some s') : load s' ≤ load s := by
  obtain ⟨registered, hr, rfl⟩ := destroy_cases hx
  have hle : registered.length ≤ s.registered.length := by
    rcases hr with ⟨-, rfl⟩ | ⟨-, c, -, rfl⟩
    · exact Nat.le_refl _
    · exact List.length_erase_le
  have h1 := cancelInLoop_load s s.timerId
  have h2 := cancelInLoop_load (cancelInLoop s s.timerId) s.timerId
  exact Nat.le_trans (Nat.add_le_add_right hle _) (Nat.le_trans h2 h1)

theorem exec_gains {a : Act} (ha : enabled s a) (hx : exec s a = some s') : Gains (a.begins s) s s' := by
  have quiet : ∀ {s'}, load s' ≤ load s → Gains none s s' := fun h => .inr ⟨nofun, h⟩
  cases a with
  | start o =>
    cases hx
    exact startInLoop_gains (t := { s with connect := true }) rfl
  | restart o =>
    cases hx
    exact startInLoop_gains
      (t := { s with state := .kDisconnected, retryDelayMs := kInitRetryDelayMs, connect := true }) rfl
  | stop =>
    cases hx
    exact quiet (cancelInLoop_load { s with connect := false } s.timerId)
  | startElsewhere | stopElsewhere =>
    cases hx
    exact quiet (Nat.le_refl _)
  | runFunctor o => exact runFunctor_gains hx
  | expire ts rest =>
    cases hx
    have := ha.2.length_eq
    apply quiet
    simp only [load, ha.1.2, List.length_append, List.length_nil] at *
    omega
  | runTimer o => exact quiet (runTimer_load hx)
  | handleEvent c err out soError selfConnect => exact quiet (handleEvent_load ha.2 hx).1
  | callbackReturns =>
    obtain ⟨-, -, hx⟩ := Option.bind_eq_some_iff.1 hx
    cases hx
    exact quiet (Nat.le_refl _)
  | destroy => exact quiet (destroy_load hx)

end Cppnetool.Connector
