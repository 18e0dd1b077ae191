import Cppnetool.TcpConnectionShutdown
/-!
# After the half-close

A connection that is asked to shut down takes no more messages, and once
`shutdownWrite` has been issued with nothing left to send nothing is left to
send ever after.
-/
open Lib

namespace Cppnetool.TcpConnection

variable {C T : Type} {s s' s'' : Sys C T} {c : Conn} {message : List Byte} {w : WriteResult}

/-- The connection takes no more messages. -/
def Conn.Ended (c : Conn) : Prop := c.state = .kDisconnecting ∨ c.state = .kDisconnected

theorem Conn.Ended.not_connected (h : c.Ended) : c.state ≠ .kConnected := by
  intro hc
  rcases h with h | h <;> exact absurd (hc.symm.trans h) (by decide)

/-! ## What the functions of the loop thread do -/

/-- What `sendInLoop`, `shutdownInLoop` and `handleWrite` do, with this outcome of
a write: bytes are added to those transmitted, and the one functor that they queue is no
business of the connection's. -/
structure Runs (w : WriteResult) (s s' : Sys C T) : Prop where
  state : s'.conn.state = s.conn.state
  queue : ∀ f ∈ s'.loop.queue, f ∈ s.loop.queue ∨ f = .writeCompleteCallback
  calls : s'.calls = s.calls
  sent : s'.sent = s.sent
  ran : s'.ran = s.ran
  transmitted : ∃ data, s'.conn.transmitted = s.conn.transmitted ++ data ∧ (w = .error → data = [])
  shutWrite : s.conn.shutWrite ≤ s'.conn.shutWrite
  shutRead : s.conn.shutRead ≤ s'.conn.shutRead

theorem Runs.refl (w : WriteResult) (s : Sys C T) : Runs w s s :=
  ⟨rfl, fun _ => .inl, rfl, rfl, rfl, ⟨[], by simp, fun _ => rfl⟩, Nat.le_refl _, Nat.le_refl _⟩

theorem Runs.trans (h : Runs w s s') (h' : Runs w s' s'') : Runs w s s'' where
  state := h'.state.trans h.state
  queue f hf := (h'.queue f hf).elim (h.queue f) .inr
  calls := h'.calls.trans h.calls
  sent := h'.sent.trans h.sent
  ran := h'.ran.trans h.ran
  transmitted := by
    obtain ⟨d, hd, he⟩ := h.transmitted
    obtain ⟨d', hd', he'⟩ := h'.transmitted
    exact ⟨d ++ d', by rw [hd', hd, List.append_assoc], fun hw => by rw [he hw, he' hw, List.append_nil]⟩
  shutWrite := Nat.le_trans h.shutWrite h'.shutWrite
  shutRead := Nat.le_trans h.shutRead h'.shutRead

/-- A change of the connection that transmits nothing. -/
theorem Runs.conn {c : Conn} (hs : c.state = s.conn.state) (ht : c.transmitted = s.conn.transmitted)
    (hw : s.conn.shutWrite ≤ c.shutWrite) (hr : s.conn.shutRead ≤ c.shutRead) : Runs w s { s with conn := c } :=
  ⟨hs, fun _ => .inl, rfl, rfl, rfl, ⟨[], by rw [ht, List.append_nil], fun _ => rfl⟩, hw, hr⟩

theorem runs_queueInLoop (w : WriteResult) (s : Sys C T) : Runs w s (queueInLoop s .writeCompleteCallback) := by
  refine ⟨rfl, ?_, rfl, rfl, rfl, ⟨[], by simp [queueInLoop], fun _ => rfl⟩, Nat.le_refl _, Nat.le_refl _⟩
  intro f hf
  simpa [queueInLoop] using hf

theorem runs_write (s : Sys C T) (data : List Byte) (w : WriteResult) :
    Runs w s { s with conn := s.conn.write data w } := by
  refine ⟨rfl, fun _ => .inl, rfl, rfl, rfl, ⟨_, rfl, ?_⟩, Nat.le_refl _, Nat.le_refl _⟩
  rintro rfl
  rfl

theorem runs_shutdownInLoop (w : WriteResult) (s : Sys C T) : Runs w s (shutdownInLoop s) := by
  unfold shutdownInLoop
  split
  · exact .refl w s
  · exact .conn rfl rfl (Nat.le_succ _) (Nat.le_refl _)

theorem runs_shutdownAllInLoop (w : WriteResult) (s : Sys C T) : Runs w s (shutdownAllInLoop s) := by
  refine (runs_shutdownInLoop w s).trans ?_
  simp only [shutdownAllInLoop]
  split
  · exact .refl w _
  · exact .conn rfl rfl (Nat.le_refl _) (Nat.le_succ _)

theorem runs_writeDirect (s : Sys C T) (message : List Byte) (w : WriteResult) :
    Runs w s (writeDirect s message w).2 := by
  unfold writeDirect
  have h := runs_write s message w
  split
  · dsimp only
    split
    · split
      · exact h
      · split
        · exact h.trans (runs_queueInLoop w _)
        · exact h
    · exact h
  · exact .refl w s

theorem runs_sendInLoop (hx : sendInLoop s message w = some s') : Runs w s s' := by
  have h := runs_writeDirect s message w
  unfold sendInLoop at hx
  generalize writeDirect s message w = r at *
  obtain ⟨nwrote, s₁⟩ := r
  dsimp only at h hx
  obtain ⟨_, -, hx⟩ := Option.bind_eq_some_iff.1 hx
  split at hx
  · obtain ⟨b, -, hx⟩ := Option.bind_eq_some_iff.1 hx
    cases hx
    refine h.trans ?_
    split <;> exact .conn rfl rfl (Nat.le_refl _) (Nat.le_refl _)
  · cases hx
    exact h

theorem runs_drained (w : WriteResult) (s : Sys C T) : Runs w s (drained s) := by
  have h₁ : Runs w s { s with conn := s.conn.setInterest .disableWriting } :=
    .conn rfl rfl (Nat.le_refl _) (Nat.le_refl _)
  have h₂ := h₁.trans (runs_queueInLoop w _)
  simp only [drained]
  by_cases hc : s.conn.hasWriteComplete = true
  · rw [if_pos (show (s.conn.setInterest .disableWriting).hasWriteComplete = true from hc)]
    split
    · exact h₂.trans (runs_shutdownInLoop w _)
    · exact h₂
  · rw [if_neg (show ¬ (s.conn.setInterest .disableWriting).hasWriteComplete = true from hc)]
    split
    · exact h₁.trans (runs_shutdownInLoop w _)
    · exact h₁

/-- Where `handleWrite` issues a half-close, it was put off. -/
theorem runs_handleWrite (hx : handleWrite s w = some s') :
    Runs w s s' ∧ (s.conn.shutWrite < s'.conn.shutWrite → s.conn.state = .kDisconnecting) := by
  have h := runs_write s s.conn.outputBuffer.readable w
  simp only [handleWrite] at hx
  split at hx
  · split at hx
    · obtain ⟨b, -, hx⟩ := Option.bind_eq_some_iff.1 hx
      cases hx
      set s₁ : Sys C T := { s with conn := { s.conn.write s.conn.outputBuffer.readable w with outputBuffer := b } }
      have h₁ : Runs w s s₁ := h.trans (.conn (w := w) rfl rfl (Nat.le_refl _) (Nat.le_refl _))
      split
      · refine ⟨h₁.trans (runs_drained w s₁), fun hlt => ?_⟩
        rw [drained_shutWrite] at hlt
        split at hlt
        · assumption
        · exact absurd hlt (Nat.lt_irrefl _)
      · exact ⟨h₁, fun hlt => absurd hlt (Nat.lt_irrefl _)⟩
    · cases hx
      exact ⟨h, fun hlt => absurd hlt (Nat.lt_irrefl _)⟩
  · cases hx
    exact ⟨.refl w s, fun hlt => absurd hlt (Nat.lt_irrefl _)⟩

theorem sendInLoop_shutWrite (hx : sendInLoop s message w = some s') : s'.conn.shutWrite = s.conn.shutWrite := by
  obtain ⟨-, hs, -⟩ := writeDirect_conn s message w
  unfold sendInLoop at hx
  generalize writeDirect s message w = r at *
  obtain ⟨nwrote, s₁⟩ := r
  dsimp only at hs hx
  obtain ⟨_, -, hx⟩ := Option.bind_eq_some_iff.1 hx
  split at hx
  · obtain ⟨b, -, hx⟩ := Option.bind_eq_some_iff.1 hx
    cases hx
    split <;> exact hs
  · cases hx
    exact hs

/-! ## Steps -/

/-- The outcome that a step gives its write, if it has one. -/
def Act.result : Act C T → Option WriteResult
  | .loop _ w | .send _ w | .handleWrite w => some w
  | _ => none

/-- A half-close is on its way, or has been issued. -/
def Closing (s : Sys C T) : Prop :=
  .shutdownInLoop ∈ s.loop.queue ∨ .shutdownAllInLoop ∈ s.loop.queue ∨
    (∃ t, s.calls t = some .shutdown ∨ s.calls t = some .shutdownAll) ∨ 0 < s.conn.shutWrite

/-- What a step does to a connection. -/
structure Moves [DecidableEq T] (a : Act C T) (s s' : Sys C T) : Prop where
  transmitted : ∃ data, s'.conn.transmitted = s.conn.transmitted ++ data ∧ ((∀ w ∈ a.result, w = .error) → data = [])
  shutWrite : s.conn.shutWrite ≤ s'.conn.shutWrite
  shutRead : s.conn.shutRead ≤ s'.conn.shutRead
  issues : s.conn.shutWrite < s'.conn.shutWrite → s'.conn.Ended
  ended : s.conn.Ended → s'.conn.Ended
  closing : Closing s' → Closing s ∨ s'.conn.Ended
  sent : s.conn.Ended → s'.sent = s.sent
  ran : s.conn.Ended → ¬ Waits s → s'.ran = s.ran

section DecidableEq
variable [DecidableEq T] {a : Act C T}

/-- A step that is one of these functions, in a state that differs from `s` in
what its loop and the records hold. -/
theorem Runs.moves {s₁ : Sys C T} (h : Runs w s₁ s') (hw : a.result = some w ∨ w = .error)
    (hconn : s₁.conn.transmitted = s.conn.transmitted ∧ s₁.conn.shutWrite = s.conn.shutWrite ∧
      s₁.conn.shutRead = s.conn.shutRead)
    (hended : s.conn.Ended → s₁.conn.Ended) (hclosing : Closing s₁ → Closing s ∨ s₁.conn.Ended)
    (hs : s₁.conn.shutWrite < s'.conn.shutWrite → s₁.conn.Ended)
    (hsent : s.conn.Ended → s₁.sent = s.sent) (hran : s.conn.Ended → ¬ Waits s → s₁.ran = s.ran) : Moves a s s' := by
  have hend : s'.conn.Ended ↔ s₁.conn.Ended := by rw [Conn.Ended, Conn.Ended, h.state]
  refine ⟨?_, ?_, ?_, ?_, fun he => hend.2 (hended he), fun hc => ?_, fun he => h.sent.trans (hsent he),
    fun he hn => h.ran.trans (hran he hn)⟩
  · obtain ⟨data, hd, he⟩ := h.transmitted
    refine ⟨data, by rw [hd, hconn.1], fun hall => he ?_⟩
    rcases hw with hw | hw
    · exact hall w hw
    · exact hw
  · rw [← hconn.2.1]
    exact h.shutWrite
  · rw [← hconn.2.2]
    exact h.shutRead
  · rw [hend, ← hconn.2.1]
    exact hs
  · rw [hend]
    by_cases hlt : s₁.conn.shutWrite < s'.conn.shutWrite
    · exact .inr (hs hlt)
    -- what is in the new state was there in the old one
    · refine hclosing ?_
      have hold {f : Functor T} (hf : f ∈ s'.loop.queue) (hne : f ≠ .writeCompleteCallback) : f ∈ s₁.loop.queue :=
        (h.queue f hf).resolve_right hne
      rcases hc with hc | hc | hc | hc
      · exact .inl (hold hc (by simp))
      · exact .inr (.inl (hold hc (by simp)))
      · exact .inr (.inr (.inl (h.calls ▸ hc)))
      · exact .inr (.inr (.inr (Nat.lt_of_lt_of_le hc (Nat.not_lt.1 hlt))))

/-- A step that neither transmits nor issues anything. -/
theorem Moves.quiet (hconn : s'.conn.transmitted = s.conn.transmitted ∧ s'.conn.shutWrite = s.conn.shutWrite ∧
    s'.conn.shutRead = s.conn.shutRead) (hended : s.conn.Ended → s'.conn.Ended)
    (hclosing : Closing s' → Closing s ∨ s'.conn.Ended) (hsent : s.conn.Ended → s'.sent = s.sent)
    (hran : s.conn.Ended → s'.ran = s.ran) : Moves a s s' where
  transmitted := ⟨[], by rw [hconn.1, List.append_nil], fun _ => rfl⟩
  shutWrite := Nat.le_of_eq hconn.2.1.symm
  shutRead := Nat.le_of_eq hconn.2.2.symm
  issues h := absurd hconn.2.1 (Nat.ne_of_gt h)
  ended := hended
  closing := hclosing
  sent := hsent
  ran he _ := hran he

theorem Moves.refl (a : Act C T) (s : Sys C T) : Moves a s s :=
  .quiet ⟨rfl, rfl, rfl⟩ id .inl (fun _ => rfl) fun _ => rfl

theorem call_moves (s : Sys C T) (t : T) (c : Call) : Moves (.call t c : Act C T) s (call s t c) := by
  unfold call
  split
  · rename_i hc
    have hno : ¬ s.conn.Ended := fun h => h.not_connected hc
    cases c with
    | send message =>
      refine .quiet ⟨rfl, rfl, rfl⟩ (fun h => absurd h hno) ?_ (fun h => absurd h hno) fun h => absurd h hno
      rintro (h | h | ⟨u, h⟩ | h)
      · exact .inl (.inl h)
      · exact .inl (.inr (.inl h))
      · refine .inl (.inr (.inr (.inl ⟨u, ?_⟩)))
        by_cases hu : u = t
        · subst hu
          simp [record] at h
        · simpa [record, Function.update_of_ne hu] using h
      · exact .inl (.inr (.inr (.inr h)))
    | shutdown | shutdownAll =>
      exact .quiet ⟨rfl, rfl, rfl⟩ (fun h => absurd h hno) (fun _ => .inr (.inl rfl)) (fun h => absurd h hno)
        fun h => absurd h hno
  · exact .refl _ s

/-! ## Nothing is left to send -/

/-- A connection that has issued its half-close with all sent. -/
structure Finished (s : Sys C T) : Prop where
  ended : s.conn.Ended
  delivered : Delivered s

/-- No step gives it anything to send. -/
theorem Finished.step (F : Finished s) (S : Streamed s) (S' : Streamed s') {a : Act C T} (M : Moves a s s') :
    Finished s' := by
  obtain ⟨hempty, hwaits⟩ := S.delivered_iff.1 F.delivered
  have hran := M.ran F.ended hwaits
  have hsent := M.sent F.ended
  refine ⟨M.ended F.ended, ?_, fun who => by rw [hran, hsent, F.delivered.2 who]⟩
  obtain ⟨data, hd, -⟩ := M.transmitted
  have hs := S'.stream
  rw [hran, ← F.delivered.1, Conn.stream, hd, List.append_assoc, List.append_right_eq_self,
    List.append_eq_nil_iff] at hs
  rw [hran, ← F.delivered.1, hd, hs.1, List.append_nil]

/-! ## Every step -/

variable [DecidableEq C] {self : C}

theorem loop_moves (he : EventLoop.Entered s.loop) {a : EventLoop.Act C (Functor T) T}
    (ha : (machine self).enabled s (.loop a w)) (hx : (machine self).exec s (.loop a w) = some s')
    (hC : Closing s → s.conn.Ended) : Moves (.loop a w) s s' := by
  obtain ⟨loop, hl, -, hq⟩ := EventLoop.step_queue he ha.1
  simp only [machine] at hx
  rw [hl, some_bind] at hx
  have hin {f : Functor T} (hf : f ∈ loop.queue) (hown : f.foreign = false) : f ∈ s.loop.queue := by
    have hmem : f ∈ s.loop.queue ++ a.pushes.toList := by
      rw [hq]
      exact List.mem_append_right _ hf
    rcases List.mem_append.1 hmem with h | h
    · exact h
    · rw [ha.2 f (Option.mem_toList.1 h)] at hown
      cases hown
  have hclosing : Closing { s with loop := loop } → Closing s ∨ s.conn.Ended := by
    rintro (h | h | h)
    · exact .inl (.inl (hin h rfl))
    · exact .inl (.inr (.inl (hin h rfl)))
    · exact .inl (.inr (.inr h))
  cases hf : a.starts s.loop with
  | none =>
    rw [hf] at hx
    cases hx
    exact (Runs.refl w { s with loop := loop }).moves (.inl rfl) ⟨rfl, rfl, rfl⟩ id hclosing (fun h => absurd h (Nat.lt_irrefl _))
      (fun _ => rfl) fun _ _ => rfl
  | some f =>
    rw [hf] at hx
    have hmem : f ∈ s.loop.queue := by
      cases a with
      | advance =>
        rw [hf] at hq
        simp only [EventLoop.Act.pushes, Option.toList_none, List.append_nil] at hq
        rw [hq]
        exact List.mem_append_left _ (by simp)
      | _ => cases hf
    cases f with
    | sendInLoop t message =>
      have hwaits : Waits s := by
        refine ⟨t, fun hnil => ?_⟩
        have : message ∈ messagesOf t s.loop.queue := List.mem_filterMap.2 ⟨_, hmem, by simp⟩
        rw [List.append_eq_nil_iff.1 hnil |>.1] at this
        cases this
      have hsame := sendInLoop_shutWrite hx
      exact (runs_sendInLoop hx).moves (.inl rfl) ⟨rfl, rfl, rfl⟩ id hclosing (fun h => absurd hsame (Nat.ne_of_gt h))
        (fun _ => rfl) fun _ hn => absurd hwaits hn
    | shutdownInLoop =>
      cases hx
      exact (runs_shutdownInLoop w _).moves (.inl rfl) ⟨rfl, rfl, rfl⟩ id hclosing (fun _ => hC (.inl hmem)) (fun _ => rfl)
        fun _ _ => rfl
    | shutdownAllInLoop =>
      cases hx
      exact (runs_shutdownAllInLoop w _).moves (.inl rfl) ⟨rfl, rfl, rfl⟩ id hclosing (fun _ => hC (.inr (.inl hmem)))
        (fun _ => rfl) fun _ _ => rfl
    | writeCompleteCallback | other n =>
      cases hx
      exact (Runs.refl w { s with loop := loop }).moves (.inl rfl) ⟨rfl, rfl, rfl⟩ id hclosing
        (fun h => absurd h (Nat.lt_irrefl _)) (fun _ => rfl) fun _ _ => rfl

theorem pushBack_moves {t : T} (hx : (machine self).exec s (.pushBack t) = some s')
    (ha : (machine self).enabled s (.pushBack t)) (he : EventLoop.Entered s.loop) :
    Moves (.pushBack t) s s' := by
  simp only [machine] at hx
  obtain ⟨c, hc, hx⟩ := Option.bind_eq_some_iff.1 hx
  obtain ⟨loop, hl, hx⟩ := Option.bind_eq_some_iff.1 hx
  obtain ⟨loop', hl', -, hq⟩ := EventLoop.step_queue (a := .pushBack t (c.functor t)) he ha.2
  cases hl'.symm.trans hl
  cases hx
  have hq : loop.queue = s.loop.queue ++ [c.functor t] := hq.symm
  refine .quiet ⟨rfl, rfl, rfl⟩ id ?_ (fun _ => rfl) fun _ => rfl
  -- a functor that is queued was the call's
  rintro (h | h | ⟨u, h⟩ | h)
  · rcases List.mem_append.1 (hq ▸ h) with h | h
    · exact .inl (.inl h)
    · have : c = .shutdown := by cases c <;> simp [Call.functor] at h ⊢
      exact .inl (.inr (.inr (.inl ⟨t, .inl (this ▸ hc)⟩)))
  · rcases List.mem_append.1 (hq ▸ h) with h | h
    · exact .inl (.inr (.inl h))
    · have : c = .shutdownAll := by cases c <;> simp [Call.functor] at h ⊢
      exact .inl (.inr (.inr (.inl ⟨t, .inr (this ▸ hc)⟩)))
  · refine .inl (.inr (.inr (.inl ⟨u, ?_⟩)))
    by_cases hu : u = t
    · subst hu
      simp at h
    · simpa [Function.update_of_ne hu] using h
  · exact .inl (.inr (.inr (.inr h)))

theorem step_moves (he : EventLoop.Entered s.loop) (hC : Closing s → s.conn.Ended) {a : Act C T}
    (ha : (machine self).enabled s a) (hx : (machine self).exec s a = some s') : Moves a s s' := by
  cases a with
  | loop a w => exact loop_moves he ha hx hC
  | send message w =>
    simp only [machine] at hx
    split at hx
    · rename_i hc
      have hno : ¬ s.conn.Ended := fun h => h.not_connected hc
      have hsame := sendInLoop_shutWrite hx
      exact (runs_sendInLoop hx).moves (.inl rfl) ⟨rfl, rfl, rfl⟩ id .inl (fun h => absurd hsame (Nat.ne_of_gt h))
        (fun h => absurd h hno) fun h => absurd h hno
    · cases hx
      exact .refl _ s
  | shutdown =>
    cases hx
    split
    · set s₁ : Sys C T := { s with conn := { s.conn with state := .kDisconnecting } }
      exact (runs_shutdownInLoop .error s₁).moves (.inr rfl) ⟨rfl, rfl, rfl⟩ (fun _ => .inl rfl) (fun _ => .inr (.inl rfl))
        (fun _ => .inl rfl) (fun _ => rfl) fun _ _ => rfl
    · exact .refl _ s
  | shutdownAll =>
    cases hx
    split
    · set s₁ : Sys C T := { s with conn := { s.conn with state := .kDisconnecting } }
      exact (runs_shutdownAllInLoop .error s₁).moves (.inr rfl) ⟨rfl, rfl, rfl⟩ (fun _ => .inl rfl)
        (fun _ => .inr (.inl rfl)) (fun _ => .inl rfl) (fun _ => rfl) fun _ _ => rfl
    · exact .refl _ s
  | call t c =>
    cases hx
    exact call_moves s t c
  | pushBack t => exact pushBack_moves hx ha he
  | handleWrite w =>
    obtain ⟨h, hs⟩ := runs_handleWrite hx
    exact h.moves (.inl rfl) ⟨rfl, rfl, rfl⟩ id .inl (fun hlt => .inl (hs hlt)) (fun _ => rfl) fun _ _ => rfl
  | connectEstablished =>
    obtain ⟨_, hc, hx⟩ := Option.bind_eq_some_iff.1 hx
    cases hx
    have hno : ¬ s.conn.Ended := by
      rintro (h | h) <;> exact absurd ((assert_eq_some.1 hc).symm.trans h) (by decide)
    exact .quiet ⟨rfl, rfl, rfl⟩ (fun h => absurd h hno) .inl (fun _ => rfl) fun _ => rfl
  | setInterest i =>
    cases hx
    exact .quiet ⟨rfl, rfl, rfl⟩ id .inl (fun _ => rfl) fun _ => rfl
  | setWriteCompleteCallback on =>
    cases hx
    exact .quiet ⟨rfl, rfl, rfl⟩ id .inl (fun _ => rfl) fun _ => rfl

end DecidableEq

end Cppnetool.TcpConnection
