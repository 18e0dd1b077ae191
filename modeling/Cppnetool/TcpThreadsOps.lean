import Cppnetool.ConnectorAttempts
import Cppnetool.TcpThreads
/-!
# What the operations of a connection do

All of them do the same kinds of things: they change the connection, check the
thread, and queue functors of the connection in its loop. `Acts` says so once,
and what is proved of it holds of each.
-/
open Lib

namespace Cppnetool.TcpThreads

open TcpConnection (StateE WriteResult)
open TcpServer (Loop connName)

variable {cfg : Config} {s s' t u : St} {th : Thread} {c : ConnId} {k : ClientId} {n : Nat}

/-- Bound to an operation of the connection alone. -/
def Functor.own : Functor → Bool
  | connectEstablished _ | removeConnectionInLoop _ => false
  | _ => true

theorem Functor.owns_own {f : Functor} (h : f.own = true) : f.owns = false := by
  cases f <;> first | rfl | cases h

/-- In thread `th`: `n` checks, and the functors `fs`. The connection stays in
its loop and in its poller, and its channel changes only with a check. -/
structure Effect (th : Thread) (c : ConnId) (s t : St) (conn : Conn) (fs : List Functor) (n : Nat) : Prop where
  eq : t = { s with
    conn := Function.update s.conn c conn
    pending := s.pending ++ fs.map fun f => ((s.conn c).loop, f)
    asserted := s.asserted ++ List.replicate n ((s.conn c).loop, th) }
  loop : conn.loop = (s.conn c).loop
  registered : (s.conn c).registered = true → conn.registered = true
  functors : ∀ f ∈ fs, f.conn = c ∧ f.own = true
  checked : conn.events ≠ (s.conn c).events ∨ conn.registered ≠ (s.conn c).registered → 0 < n

def Acts (th : Thread) (c : ConnId) (s t : St) : Prop := ∃ conn fs n, Effect th c s t conn fs n

namespace Acts

theorem refl (th : Thread) (c : ConnId) (s : St) : Acts th c s s :=
  ⟨s.conn c, [], 0, by simp, rfl, id, by simp, by simp⟩

theorem trans (h : Acts th c s t) (h' : Acts th c t u) : Acts th c s u := by
  obtain ⟨conn, fs, n, he, hl, hr, hf, hn⟩ := h
  obtain ⟨conn', fs', n', he', hl', hr', hf', hn'⟩ := h'
  have hc : t.conn c = conn := by rw [he]; exact Function.update_self ..
  rw [hc] at he' hl' hr' hn'
  refine ⟨conn', fs ++ fs', n + n', ?_, hl'.trans hl, fun h => hr' (hr h), ?_, ?_⟩
  · rw [he', he, hl]
    simp [List.append_assoc]
  · intro f hf''
    rcases List.mem_append.1 hf'' with h | h
    · exact hf f h
    · exact hf' f h
  · intro h
    by_cases he : conn'.events ≠ conn.events ∨ conn'.registered ≠ conn.registered
    · exact Nat.add_pos_right _ (hn' he)
    · simp only [not_or, not_not] at he
      rw [he.1, he.2] at h
      exact Nat.add_pos_left (hn h) _

end Acts

/-- The connection changes, and its channel does not. -/
theorem acts_setConn {conn : Conn} (hl : conn.loop = (s.conn c).loop) (he : conn.events = (s.conn c).events)
    (hr : conn.registered = (s.conn c).registered) : Acts th c s (setConn s c conn) :=
  ⟨conn, [], 0, by simp [setConn], hl, fun h => hr.trans h, by simp, by simp [he, hr]⟩

theorem acts_setState (s : St) (th : Thread) (c : ConnId) (state : StateE) :
    Acts th c s (setConn s c { s.conn c with state }) := acts_setConn rfl rfl rfl

theorem acts_assert (th : Thread) (c : ConnId) (s : St) : Acts th c s (assertInLoopThread s (s.conn c).loop th) :=
  ⟨s.conn c, [], 1, by simp [assertInLoopThread], rfl, id, by simp, by simp⟩

theorem acts_setInterest (s : St) (th : Thread) (c : ConnId) (i : Interest) : Acts th c s (setInterest s th c i) :=
  ⟨{ s.conn c with events := i.apply (s.conn c).events, registered := true }, [], 1,
    by simp [setInterest, setConn, assertInLoopThread], rfl, fun _ => rfl, by simp, by simp⟩

theorem acts_queueInLoop {l : Loop} {f : Functor} (hl : l = (s.conn c).loop) (hc : f.conn = c)
    (ho : f.own = true) : Acts th c s (queueInLoop s l f) :=
  ⟨s.conn c, [f], 0, by simp [queueInLoop, hl], rfl, id, by simp [hc, ho], by simp⟩

theorem acts_connectEstablished (hx : connectEstablished s th c = some s') : Acts th c s s' := by
  obtain ⟨_, -, hx⟩ := Option.bind_eq_some_iff.1 hx
  cases hx
  exact ((acts_assert th c s).trans (acts_setState _ th c .kConnected)).trans (acts_setInterest _ th c _)

theorem acts_connectDestroyed (hx : connectDestroyed cfg s th c = some s') : Owned cfg s c ∧ Acts th c s s' := by
  obtain ⟨_, ho, hx⟩ := Option.bind_eq_some_iff.1 hx
  obtain ⟨_, -, hx⟩ := Option.bind_eq_some_iff.1 hx
  cases hx
  exact ⟨assert_eq_some.1 ho,
    ((acts_assert th c s).trans (acts_setState _ th c .kDisconnected)).trans (acts_setInterest _ th c _)⟩

theorem acts_writeComplete (th : Thread) (c : ConnId) (s : St) : Acts th c s (writeComplete s c) := by
  unfold writeComplete
  split
  · exact acts_queueInLoop rfl rfl rfl
  · exact .refl th c s

/-- The rest of a message goes to the output buffer. -/
theorem acts_append (s : St) (th : Thread) (c : ConnId) (size : Nat) : Acts th c s
    (let s := setConn s c { s.conn c with outputBuffer := (s.conn c).outputBuffer + size }
     if (s.conn c).isWriting then s else setInterest s th c .enableWriting) := by
  have h : Acts th c s (setConn s c { s.conn c with outputBuffer := (s.conn c).outputBuffer + size }) :=
    acts_setConn rfl rfl rfl
  dsimp only
  split
  · exact h
  · exact h.trans (acts_setInterest _ th c _)

theorem acts_sendInLoop (s : St) (th : Thread) (c : ConnId) (size : Nat) (w : WriteResult) :
    Acts th c s (sendInLoop s th c size w) := by
  unfold sendInLoop
  refine (acts_assert th c s).trans ?_
  generalize assertInLoopThread s (s.conn c).loop th = s₁
  dsimp only
  refine (show Acts th c s₁ (if ((s₁.conn c).isWriting = false ∧ (s₁.conn c).outputBuffer = 0) ∧
      (size : Int) ≤ w.count size then writeComplete s₁ c else s₁) from ?_).trans ?_
  · split
    · exact acts_writeComplete th c s₁
    · exact .refl th c s₁
  · generalize (if ((s₁.conn c).isWriting = false ∧ (s₁.conn c).outputBuffer = 0) ∧
      (size : Int) ≤ w.count size then writeComplete s₁ c else s₁) = s₂
    by_cases hn : (if (s₁.conn c).isWriting = false ∧ (s₁.conn c).outputBuffer = 0 then (w.count size).toNat
      else 0) < size
    · rw [if_pos hn]
      exact acts_append s₂ th c _
    · rw [if_neg hn]
      exact .refl th c s₂

theorem acts_drained (s : St) (th : Thread) (c : ConnId) : Acts th c s (drained s th c) := by
  have h := (acts_setInterest s th c .disableWriting).trans (acts_writeComplete th c _)
  unfold drained
  dsimp only
  split
  · exact h.trans (acts_assert th c _)
  · exact h

theorem acts_handleWrite (s : St) (th : Thread) (c : ConnId) (w : WriteResult) :
    Acts th c s (handleWrite s th c w) := by
  unfold handleWrite
  refine (acts_assert th c s).trans ?_
  generalize assertInLoopThread s (s.conn c).loop th = s₁
  dsimp only
  split
  · split
    · have h : Acts th c s₁ (setConn s₁ c { s₁.conn c with
          outputBuffer := (s₁.conn c).outputBuffer - (w.count (s₁.conn c).outputBuffer).toNat }) :=
        acts_setConn rfl rfl rfl
      refine h.trans ?_
      split
      · exact acts_drained _ th c
      · exact .refl th c _
    · exact .refl th c s₁
  · exact .refl th c s₁

theorem acts_run (s : St) (th : Thread) (c : ConnId) (w : WriteResult) (f : Call) :
    Acts th c s (run s th w c f) := by
  cases f with
  | send size => exact acts_sendInLoop s th c size w
  | shutdown => exact acts_assert th c s
  | shutdownAll => exact acts_assert th c s

/-- A call is carried out in the connection's thread. In another one it has only
begun; and a connection that is not connected takes none. -/
theorem acts_call (s : St) (th : Thread) (c : ConnId) (f : Call) (w : WriteResult) :
    (th = (s.conn c).loop ∧ Acts th c s (call s th c f w)) ∨ call s th c f w = s ∨
      (th ≠ (s.conn c).loop ∧ call s th c f w =
        { setConn s c { s.conn c with state := f.leaves } with calls := Function.update s.calls th (some (c, f)) }) := by
  unfold call
  dsimp only
  split
  · split
    · rename_i hth
      exact .inl ⟨hth, (acts_setState s th c f.leaves).trans (acts_run _ th c w f)⟩
    · rename_i hth
      exact .inr (.inr ⟨hth, rfl⟩)
  · exact .inr (.inl rfl)

theorem acts_shutdownAll (s : St) (th : Thread) (c : ConnId) : Acts th c s (shutdownAll s th c) := by
  have h := acts_setState s th c .kDisconnecting
  unfold shutdownAll
  dsimp only
  split
  · split
    · exact h.trans (acts_assert th c _)
    · exact h.trans (acts_queueInLoop (by simp [setConn]) rfl rfl)
  · exact .refl th c s

/-- `removeChannel` takes the channel out of its poller, with a check. -/
theorem removeChannel_eq (hx : removeChannel s th c = some s') : s' =
    { s with
      conn := Function.update s.conn c { s.conn c with registered := false }
      asserted := s.asserted ++ [((s.conn c).loop, th)] } := by
  obtain ⟨_, -, hx⟩ := Option.bind_eq_some_iff.1 hx
  exact (Option.some.inj hx).symm

theorem destroyed_eq (hx : destroyed cfg s th c = some s') : Owned cfg s c ∧ s' =
    { s with
      conn := Function.update s.conn c { s.conn c with registered := false }
      asserted := s.asserted ++ [((s.conn c).loop, th)] } := by
  obtain ⟨_, ho, hx⟩ := Option.bind_eq_some_iff.1 hx
  exact ⟨assert_eq_some.1 ho, removeChannel_eq hx⟩

/-- No pointer comes or goes. -/
theorem Acts.owned_iff (h : Acts th c s t) (d : ConnId) : Owned cfg t d ↔ Owned cfg s d := by
  obtain ⟨conn, fs, n, e⟩ := h
  have hp : (∃ p ∈ t.pending ++ t.todo ++ t.done, p.2.owns = true ∧ p.2.conn = d) ↔
      ∃ p ∈ s.pending ++ s.todo ++ s.done, p.2.owns = true ∧ p.2.conn = d := by
    rw [e.eq]
    constructor
    · rintro ⟨p, hp, ho, hc⟩
      simp only [List.append_assoc, List.mem_append, List.mem_map] at hp
      rcases hp with hp | ⟨f, hf, rfl⟩ | hp
      · exact ⟨p, by simp [hp], ho, hc⟩
      · rw [Functor.owns_own (e.functors f hf).2] at ho
        cases ho
      · exact ⟨p, by simp only [List.append_assoc, List.mem_append]; exact .inr hp, ho, hc⟩
    · rintro ⟨p, hp, ho, hc⟩
      simp only [List.append_assoc, List.mem_append] at hp
      refine ⟨p, ?_, ho, hc⟩
      simp only [List.append_assoc, List.mem_append]
      exact hp.imp_right .inr
  unfold Owned
  rw [hp, e.eq]
  cases d <;> exact Iff.rfl

/-! ## The server -/

theorem newConnection_cases (hx : newConnection cfg s = some s') : ∃ ioLoop next s₁, s₁ =
    { s with
      next
      nextConnId := s.nextConnId + 1
      conn := Function.update s.conn (.server s.nextConnId) { loop := ioLoop }
      connections := s.connections.insert (connName cfg.toConfig s.nextConnId) (some s.nextConnId)
      asserted := s.asserted ++ [(0, 0), (0, 0)] } ∧
    ((ioLoop = 0 ∧ ∃ s₂, Acts 0 (.server s.nextConnId) s₁ s₂ ∧ s' = callBack s₂ 0 (.newConnection s.nextConnId)) ∨
      (ioLoop ≠ 0 ∧ s' = queueInLoop s₁ ioLoop (.connectEstablished s.nextConnId))) := by
  have main (ioLoop next : Nat) (s₁ : St) (h₁ : s₁ =
      { s with
        next
        nextConnId := s.nextConnId + 1
        conn := Function.update s.conn (.server s.nextConnId) { loop := ioLoop }
        connections := s.connections.insert (connName cfg.toConfig s.nextConnId) (some s.nextConnId)
        asserted := s.asserted ++ [(0, 0), (0, 0)] })
      (hx : (if ioLoop = 0 then do
          let s₂ ← connectEstablished s₁ 0 (.server s.nextConnId)
          return callBack s₂ 0 (.newConnection s.nextConnId)
        else some (queueInLoop s₁ ioLoop (.connectEstablished s.nextConnId))) = some s') :
      (ioLoop = 0 ∧ ∃ s₂, Acts 0 (.server s.nextConnId) s₁ s₂ ∧ s' = callBack s₂ 0 (.newConnection s.nextConnId)) ∨
        (ioLoop ≠ 0 ∧ s' = queueInLoop s₁ ioLoop (.connectEstablished s.nextConnId)) := by
    split at hx
    · rename_i hl
      obtain ⟨s₂, h₂, hx⟩ := Option.bind_eq_some_iff.1 hx
      exact .inl ⟨hl, s₂, acts_connectEstablished h₂, (Option.some.inj hx).symm⟩
    · rename_i hl
      exact .inr ⟨hl, (Option.some.inj hx).symm⟩
  unfold newConnection getNextLoop at hx
  by_cases hn : cfg.numThreads = 0
  · simp only [hn, if_true] at hx
    exact ⟨0, s.next, _, rfl, main 0 s.next _ rfl (by simpa [setConn, assertInLoopThread] using hx)⟩
  · simp only [hn, if_false] at hx
    exact ⟨s.next + 1, _, _, rfl, main (s.next + 1) _ _ rfl (by simpa [setConn, assertInLoopThread] using hx)⟩

/-- `connectDestroyed` checks the thread. -/
theorem connectDestroyed_asserts (hx : connectDestroyed cfg s th c = some s') :
    ((s.conn c).loop, th) ∈ s'.asserted := by
  obtain ⟨_, -, hx⟩ := Option.bind_eq_some_iff.1 hx
  obtain ⟨_, -, hx⟩ := Option.bind_eq_some_iff.1 hx
  cases hx
  simp [setInterest, setConn, assertInLoopThread]

/-- A `connectDestroyed` that has got to its callback. -/
structure Destroys (cfg : Config) (th : Thread) (c : ConnId) (s t : St) : Prop where
  acts : Acts th c s t
  owned : Owned cfg s c
  asserted : ((s.conn c).loop, th) ∈ t.asserted

theorem destroys_connectDestroyed (hx : connectDestroyed cfg s th c = some s') : Destroys cfg th c s s' where
  acts := (acts_connectDestroyed hx).2
  owned := (acts_connectDestroyed hx).1
  asserted := connectDestroyed_asserts hx

/-- After `shutdownAll`. -/
theorem destroys_shutdownAll (hx : connectDestroyed cfg (shutdownAll s th c) th c = some s') :
    Destroys cfg th c s s' where
  acts := (acts_shutdownAll s th c).trans (acts_connectDestroyed hx).2
  owned := ((acts_shutdownAll s th c).owned_iff c).1 (acts_connectDestroyed hx).1
  asserted := by
    have h := connectDestroyed_asserts hx
    obtain ⟨conn, fs, n, e⟩ := acts_shutdownAll s th c
    have hl : ((shutdownAll s th c).conn c).loop = (s.conn c).loop := by
      rw [e.eq, ← e.loop]
      simp
    rwa [hl] at h

theorem removeClosed_cases (hx : removeClosed cfg s th n = some s') :
    ∃ s₁, Destroys cfg th (.server n) (assertInLoopThread s 0 th) s₁ ∧ s' = callBack s₁ th (.removed n) := by
  obtain ⟨-, -, hx⟩ := Option.bind_eq_some_iff.1 hx
  obtain ⟨s₁, h₁, hx⟩ := Option.bind_eq_some_iff.1 hx
  exact ⟨s₁, destroys_connectDestroyed h₁, (Option.some.inj hx).symm⟩

theorem removeConnectionInLoop_cases (hx : removeConnectionInLoop cfg s th n = some s') :
    (cfg.hasClose = true ∧ s' = callBack s th (.closing n)) ∨
      (cfg.hasClose = false ∧ removeClosed cfg s th n = some s') := by
  obtain ⟨-, -, hx⟩ := Option.bind_eq_some_iff.1 hx
  cases hc : cfg.hasClose with
  | true =>
    rw [hc] at hx
    exact .inl ⟨rfl, (Option.some.inj hx).symm⟩
  | false =>
    rw [hc] at hx
    exact .inr ⟨rfl, hx⟩

theorem eraseConn_eq {name : String} (hx : eraseConn s name = some s') :
    s' = { s with connections := s.connections.erase name } := by
  obtain ⟨-, -, hx⟩ := Option.bind_eq_some_iff.1 hx
  exact (Option.some.inj hx).symm

theorem removeConn_cases {name : String} (hx : removeConn cfg s th name = some s') :
    (s.connections.find name = none ∧ s' = { s with connections := s.connections.insert name none }) ∨
    (s.connections.find name = some none ∧ s' = s) ∨
    ∃ n s₁, s.connections.find name = some (some n) ∧
      Destroys cfg th (.server n) (assertInLoopThread s 0 th) s₁ ∧ s' = callBack s₁ th (.removeConn name n) := by
  unfold removeConn lookup at hx
  cases hf : s.connections.find name with
  | none =>
    rw [hf] at hx
    exact .inl ⟨rfl, (Option.some.inj hx).symm⟩
  | some o =>
    rw [hf] at hx
    cases o with
    | none => exact .inr (.inl ⟨rfl, (Option.some.inj hx).symm⟩)
    | some n =>
      obtain ⟨s₁, h₁, hx⟩ := Option.bind_eq_some_iff.1 hx
      exact .inr (.inr ⟨n, s₁, rfl, destroys_shutdownAll h₁, (Option.some.inj hx).symm⟩)

theorem getConn_cases (s : St) (name : String) :
    (s.connections.find name = none ∧ getConn s name = { s with connections := s.connections.insert name none }) ∨
    (s.connections.find name = some none ∧ getConn s name = s) ∨
    ∃ n, s.connections.find name = some (some n) ∧ getConn s name = { s with held := .server n :: s.held } := by
  unfold getConn lookup
  cases hf : s.connections.find name with
  | none => exact .inl ⟨rfl, rfl⟩
  | some o =>
    cases o with
    | none => exact .inr (.inl ⟨rfl, rfl⟩)
    | some n => exact .inr (.inr ⟨n, rfl, rfl⟩)

/-! ## Events and functors -/

/-- A closed connection: in another thread than the server's its removal is queued. -/
theorem handleClose_cases (hx : handleClose cfg s th c = some s') : ∃ s₁, Acts th c s s₁ ∧
    match c with
    | .server n => (th = 0 ∧ removeConnectionInLoop cfg s₁ th n = some s') ∨
        (th ≠ 0 ∧ s' = queueInLoop s₁ 0 (.removeConnectionInLoop n))
    | .client k n => clientRemoveConnection cfg s₁ th k n = some s' := by
  refine ⟨_, (acts_assert th c s).trans (acts_setInterest _ th c .disableAll), ?_⟩
  cases c with
  | server n =>
    obtain ⟨-, -, hx⟩ := Option.bind_eq_some_iff.1 hx
    split at hx
    · exact .inl ⟨by assumption, hx⟩
    · exact .inr ⟨by assumption, (Option.some.inj hx).symm⟩
  | client k n => exact hx

theorem handleEvent_cases {l : Loop} {write : Option WriteResult} {read : Input}
    (hx : handleEvent cfg s l c write read = some s') : Owned cfg s c ∧ ∃ s₁, Acts l c s s₁ ∧
      ((read = .close ∧ handleClose cfg s₁ l c = some s') ∨ (read ≠ .close ∧ s' = s₁)) := by
  obtain ⟨_, ho, hx⟩ := Option.bind_eq_some_iff.1 hx
  refine ⟨assert_eq_some.1 ho, ?_⟩
  have h₁ : Acts l c s (write.elim s (handleWrite s l c)) := by
    cases write with
    | none => exact .refl l c s
    | some w => exact acts_handleWrite s l c w
  refine ⟨_, h₁, ?_⟩
  cases read with
  | close => exact .inl ⟨rfl, hx⟩
  | message => exact .inr ⟨by decide, (Option.some.inj hx).symm⟩
  | nothing => exact .inr ⟨by decide, (Option.some.inj hx).symm⟩

/-- A functor that is run: one of its connection's own operations, or the
beginning or the end of its life. -/
theorem runFunctor_cases {l : Loop} {w : WriteResult} (hx : runFunctor cfg s l w = some s') :
    ∃ f s₁, nextFunctor s l = some f ∧ s₁ = { s with todo := Lanes.pop s.todo l, done := s.done ++ [(l, f)] } ∧
      Owned cfg s₁ f.conn ∧
      match f with
      | .connectEstablished n => ∃ s₂, Acts l (.server n) s₁ s₂ ∧ s' = callBack s₂ l (.established n)
      | .removeConnectionInLoop n => removeConnectionInLoop cfg s₁ l n = some s'
      | f => Acts l f.conn s₁ s' := by
  obtain ⟨f, hf, hx⟩ := Option.bind_eq_some_iff.1 hx
  obtain ⟨_, ho, hx⟩ := Option.bind_eq_some_iff.1 hx
  refine ⟨f, _, hf, rfl, assert_eq_some.1 ho, ?_⟩
  cases f with
  | connectEstablished n =>
    obtain ⟨s₁, h₁, hx⟩ := Option.bind_eq_some_iff.1 hx
    exact ⟨s₁, acts_connectEstablished h₁, (Option.some.inj hx).symm⟩
  | removeConnectionInLoop n => exact hx
  | sendInLoop c size =>
    cases hx
    exact acts_sendInLoop _ l c size w
  | shutdownInLoop c =>
    cases hx
    exact acts_assert l c _
  | shutdownAllInLoop c =>
    cases hx
    exact acts_assert l c _
  | writeCompleteCallback c =>
    cases hx
    exact .refl l c _

/-! ## The clients -/

theorem clientNewConnection_cases (hx : clientNewConnection cfg s th k = some s') : ∃ s₁ s₂, s₁ =
    { s with
      client := Function.update s.client k
        { s.client k with
          state := true
          nextConnId := (s.client k).nextConnId + 1
          connection := some (s.client k).nextConnId }
      conn := Function.update s.conn (.client k (s.client k).nextConnId) { loop := cfg.clientLoop k }
      asserted := s.asserted ++ [(cfg.clientLoop k, th)] } ∧
    Acts th (.client k (s.client k).nextConnId) s₁ s₂ ∧
    s' = callBack s₂ th (.clientNewConnection k (s.client k).nextConnId) := by
  obtain ⟨s₂, h₂, hx⟩ := Option.bind_eq_some_iff.1 hx
  exact ⟨_, s₂, rfl, acts_connectEstablished h₂, (Option.some.inj hx).symm⟩

theorem not_event_of_ofLoop {a : Connector.Act} (h : ofLoop a = true) :
    ∀ c err out e self, a ≠ .handleEvent c err out e self := by
  rintro c err out e self rfl
  cases h

theorem not_event_of_connects {a : Connector.Act} {connect : Bool} (h : connects a = some connect) :
    ∀ c err out e self, a ≠ .handleEvent c err out e self := by
  rintro c err out e self rfl
  cases h

/-- A step of the connector that is no event. -/
theorem runConnector_cases {a : Connector.Act} (ha : ∀ c err out e self, a ≠ .handleEvent c err out e self)
    (hx : runConnector cfg s th k a = some s') : ∃ connector, Connector.exec (s.client k).connector a = some connector ∧
      s' = setClient s k { s.client k with connector } := by
  obtain ⟨connector, hc, hx⟩ := Option.bind_eq_some_iff.1 hx
  refine ⟨connector, hc, ?_⟩
  cases a with
  | handleEvent c err out e self => exact absurd rfl (ha c err out e self)
  | _ => exact (Option.some.inj hx).symm

/-- An event of the connector, which calls `newConnection` when it completes an attempt. -/
theorem connectorEvent_cases {d : Connector.Sock} {err out : Bool} {soError : Int} {selfConnect : Bool}
    (hp : (s.client k).connector.calling = none)
    (hx : runConnector cfg s th k (.handleEvent d err out soError selfConnect) = some s') :
    ∃ connector, Connector.handleEvent (s.client k).connector d err out soError selfConnect = some connector ∧
      ((¬ Connector.Completes (s.client k).connector err out soError selfConnect ∧
          s' = setClient s k { s.client k with connector }) ∨
        (Connector.Completes (s.client k).connector err out soError selfConnect ∧
          clientNewConnection cfg (setClient s k { s.client k with connector }) th k = some s')) := by
  obtain ⟨connector, hc, hx⟩ := Option.bind_eq_some_iff.1 hx
  obtain ⟨-, -, -, hcall⟩ := Connector.handleEvent_leaves hc
  refine ⟨connector, hc, ?_⟩
  by_cases h : Connector.Completes (s.client k).connector err out soError selfConnect
  · rw [if_pos h] at hcall
    simp only [hcall] at hx
    exact .inr ⟨h, hx⟩
  · rw [if_neg h, hp] at hcall
    simp only [hcall] at hx
    exact .inl ⟨h, (Option.some.inj hx).symm⟩

theorem clientRemoveClosed_cases (hx : clientRemoveClosed cfg s th k n = some s') :
    (s.client k).alive = true ∧ Owned cfg s (.client k n) ∧ ∃ d s₁, (s.client k).connection = some d ∧
      Destroys cfg th (.client k d) (assertInLoopThread s (cfg.clientLoop k) th) s₁ ∧
      s' = callBack s₁ th (.clientRemoved k n d) := by
  obtain ⟨_, ha, hx⟩ := Option.bind_eq_some_iff.1 hx
  obtain ⟨d, hd, hx⟩ := Option.bind_eq_some_iff.1 hx
  obtain ⟨s₁, h₁, hx⟩ := Option.bind_eq_some_iff.1 hx
  obtain ⟨hal, ho⟩ := assert_eq_some.1 ha
  exact ⟨hal, ho, d, s₁, hd, destroys_connectDestroyed h₁, (Option.some.inj hx).symm⟩

theorem clientRemoveConnection_cases (hx : clientRemoveConnection cfg s th k n = some s') :
    ((s.client k).hasClose = true ∧ s' = callBack s th (.clientClosing k n)) ∨
      ((s.client k).hasClose = false ∧ clientRemoveClosed cfg s th k n = some s') := by
  obtain ⟨_, -, hx⟩ := Option.bind_eq_some_iff.1 hx
  cases hc : (s.client k).hasClose with
  | true =>
    rw [hc] at hx
    exact .inl ⟨rfl, (Option.some.inj hx).symm⟩
  | false =>
    rw [hc] at hx
    exact .inr ⟨rfl, hx⟩

theorem clientReset_cases {e : Connector.Errno} (hx : clientReset cfg s th k n e = some s') :
    (s.client k).connection = some n ∧ ∃ connector,
      s' = setClient s k { s.client k with state := false, connection := none, connector } ∧
      (connector = (s.client k).connector ∨ ((s.client k).retry = true ∧ (s.client k).connect = true) ∧
        Connector.exec (s.client k).connector (.restart e) = some connector) := by
  obtain ⟨_, ha, hx⟩ := Option.bind_eq_some_iff.1 hx
  refine ⟨(assert_eq_some.1 ha).2, ?_⟩
  dsimp only at hx
  split at hx
  · rename_i hr
    obtain ⟨connector, hc, rfl⟩ := runConnector_cases (fun _ _ _ _ _ h => by cases h) hx
    refine ⟨connector, ?_, .inr ⟨hr, ?_⟩⟩
    · simp [setClient]
    · simpa [setClient] using hc
  · exact ⟨(s.client k).connector, (Option.some.inj hx).symm, .inl rfl⟩

theorem destroyMembers_cases (hx : destroyMembers s k = some s') : ∃ connector,
    Connector.destroy (s.client k).connector = some connector ∧
      s' = setClient s k { s.client k with connection := none, connector, alive := false } := by
  obtain ⟨connector, hc, hx⟩ := Option.bind_eq_some_iff.1 hx
  exact ⟨connector, hc, (Option.some.inj hx).symm⟩

theorem deleteClient_cases (hx : deleteClient cfg s th k = some s') :
    ((s.client k).state = true ∧ ∃ d s₁, (s.client k).connection = some d ∧
      Destroys cfg th (.client k d) s s₁ ∧ s' = callBack s₁ th (.clientDestroyed k d)) ∨
    ((s.client k).state = false ∧ destroyMembers s k = some s') := by
  unfold deleteClient at hx
  cases hs : (s.client k).state with
  | true =>
    simp only [hs, if_true] at hx
    obtain ⟨d, hd, hx⟩ := Option.bind_eq_some_iff.1 hx
    obtain ⟨s₁, h₁, hx⟩ := Option.bind_eq_some_iff.1 hx
    exact .inl ⟨rfl, d, s₁, hd, destroys_shutdownAll h₁, (Option.some.inj hx).symm⟩
  | false =>
    simp only [hs, Bool.false_eq_true, if_false] at hx
    exact .inr ⟨rfl, hx⟩

end Cppnetool.TcpThreads
