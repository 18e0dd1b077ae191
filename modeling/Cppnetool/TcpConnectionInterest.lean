import Cppnetool.TcpConnectionShutdown
/-!
# The write interest and the output buffer

As long as only the loop thread uses a connection, and leaves the write
interest to `sendInLoop` and `handleWrite`, the interest tells exactly whether
output waits. The half-close then depends on the state and the buffer alone
(`Follows`).
-/
open Lib

namespace Cppnetool.TcpConnection

variable {C T : Type} {s s' : Sys C T} {message : List Byte} {w : WriteResult}

/-- The interest follows the buffer, and `shutdownWrite` is issued in the
states in which nothing waits and nothing can be sent any more. -/
structure Follows (c : Conn) : Prop where
  writing : c.isWriting = true ↔ c.outputBuffer.readable ≠ []
  up : c.state ≠ .kDisconnected
  shut : c.shutWrite = if c.state = .kDisconnecting ∧ c.outputBuffer.readable = [] then 1 else 0

/-! ## What the functions queue -/

/-- The loop is as it was, or has the write-complete callback at the back of its queue. -/
def Notes (s s' : Sys C T) : Prop :=
  s'.loop = s.loop ∨ s'.loop = EventLoop.queueInLoop s.loop .writeCompleteCallback

theorem shutdownInLoop_loop (s : Sys C T) : (shutdownInLoop s).loop = s.loop := by
  unfold shutdownInLoop
  split <;> rfl

theorem shutdownAllInLoop_loop (s : Sys C T) : (shutdownAllInLoop s).loop = s.loop := by
  have h := shutdownInLoop_loop s
  simp only [shutdownAllInLoop]
  split <;> exact h

theorem writeDirect_notes (s : Sys C T) (message : List Byte) (w : WriteResult) :
    Notes s (writeDirect s message w).2 := by
  unfold writeDirect
  split
  · dsimp only
    split
    · split
      · exact .inl rfl
      · split
        · exact .inr rfl
        · exact .inl rfl
    · exact .inl rfl
  · exact .inl rfl

theorem sendInLoop_notes (hx : sendInLoop s message w = some s') : Notes s s' := by
  have hn := writeDirect_notes s message w
  unfold sendInLoop at hx
  obtain ⟨_, -, hx⟩ := Option.bind_eq_some_iff.1 hx
  split at hx
  · obtain ⟨b, -, hx⟩ := Option.bind_eq_some_iff.1 hx
    cases hx
    split <;> exact hn
  · cases hx
    exact hn

theorem drained_notes (s : Sys C T) : Notes s (drained s) := by
  simp only [drained]
  set s₁ : Sys C T := { s with conn := s.conn.setInterest .disableWriting }
  set s₂ := if s₁.conn.hasWriteComplete = true then queueInLoop s₁ .writeCompleteCallback else s₁ with hs₂
  have h₂ : Notes s s₂ := by
    rw [hs₂]
    split
    · exact .inr rfl
    · exact .inl rfl
  split
  · rw [Notes, shutdownInLoop_loop]
    exact h₂
  · exact h₂

theorem handleWrite_notes (hx : handleWrite s w = some s') : Notes s s' := by
  unfold handleWrite at hx
  split at hx
  · dsimp only at hx
    split at hx
    · obtain ⟨b, -, hx⟩ := Option.bind_eq_some_iff.1 hx
      cases hx
      split
      · exact drained_notes _
      · exact .inl rfl
    · cases hx
      exact .inl rfl
  · cases hx
    exact .inl rfl

/-! ## The functions -/

theorem Follows.not_writing {c : Conn} (h : Follows c) : c.isWriting = false ↔ c.outputBuffer.readable = [] := by
  rw [← Bool.not_eq_true, h.writing, not_not]

theorem writeDirect_state (s : Sys C T) (message : List Byte) (w : WriteResult) :
    (writeDirect s message w).2.conn.state = s.conn.state := by
  unfold writeDirect
  split
  · dsimp only
    split
    · split
      · rfl
      · split <;> rfl
    · rfl
  · rfl

/-- `shutdownInLoop` or `shutdownAllInLoop` while connected. -/
theorem Follows.shutdown {c c' : Conn} (h : Follows c) (hc : c.state = .kConnected) (he : c'.events = c.events)
    (hb : c'.outputBuffer = c.outputBuffer) (hs : c'.state = .kDisconnecting)
    (hn : c'.shutWrite = c.shutWrite + (if c.isWriting then 0 else 1)) : Follows c' := by
  have hshut : c.shutWrite = 0 := by simpa [hc] using h.shut
  refine ⟨?_, by rw [hs]; decide, ?_⟩
  · rw [hb, ← h.writing, Conn.isWriting, he, Conn.isWriting]
  · rw [hn, hshut, hs, hb]
    by_cases hw : c.isWriting = true
    · rw [if_pos hw, if_neg fun hn => h.writing.1 hw hn.2]
    · rw [if_neg hw, if_pos ⟨rfl, h.not_writing.1 (Bool.not_eq_true _ ▸ hw)⟩]

theorem drained_conn (s : Sys C T) : (drained s).conn.isWriting = false ∧ (drained s).conn.state = s.conn.state := by
  obtain ⟨s₂, h₂, hw, he⟩ := drained_cases s
  have hstate : s₂.conn.state = s.conn.state := by
    rw [h₂]
    rfl
  rw [he]
  split
  · refine ⟨?_, ?_⟩
    · rw [Conn.isWriting, shutdownInLoop_events]
      exact hw
    · rw [shutdownInLoop, hw]
      exact hstate
  · exact ⟨hw, hstate⟩

variable [DecidableEq T]

/-- `sendInLoop` while connected: what it leaves in the buffer it asks to write. -/
theorem sendInLoop_follows (hwf : s.conn.outputBuffer.Wf) (h : Follows s.conn) (hc : s.conn.state = .kConnected)
    (hx : sendInLoop s message w = some s') : Follows s'.conn := by
  obtain ⟨n, hn, hfst, -⟩ := writeDirect_spec hwf message w
  obtain ⟨he, hs, hb⟩ := writeDirect_conn s message w
  have hstate := writeDirect_state s message w
  have hshut : s.conn.shutWrite = 0 := by simpa [hc] using h.shut
  unfold sendInLoop at hx
  generalize writeDirect s message w = r at *
  obtain ⟨nwrote, s₁⟩ := r
  dsimp only at he hs hb hx hfst hstate
  subst hfst
  obtain ⟨_, -, hx⟩ := Option.bind_eq_some_iff.1 hx
  have hup : s₁.conn.state ≠ .kDisconnected := by
    rw [hstate, hc]
    decide
  split at hx
  · rename_i hlt
    obtain ⟨b, ha, hx⟩ := Option.bind_eq_some_iff.1 hx
    cases hx
    rw [hb, Int.toNat_natCast] at ha
    obtain ⟨b', ha', -, hr⟩ := Buffer.append_spec hwf (message.drop n)
    cases ha'.symm.trans ha
    -- something is left of the message, so the buffer is not empty
    have hne : b.readable ≠ [] := by
      rw [hr]
      intro hnil
      have := List.drop_eq_nil_iff.1 (List.append_eq_nil_iff.1 hnil).2
      omega
    split
    · rename_i hw
      exact ⟨iff_of_true hw hne, hup, by simp [hstate, hc, hs, hshut]⟩
    · exact ⟨iff_of_true (isWriting_enableWriting _) hne, hup, by simp [Conn.setInterest, hstate, hc, hs, hshut]⟩
  · cases hx
    refine ⟨?_, hup, by simp [hstate, hc, hs, hshut]⟩
    rw [hb, ← h.writing, Conn.isWriting, he, Conn.isWriting]

/-- `handleWrite` drops the interest when the last byte is out, and issues a
half-close that was put off. -/
theorem handleWrite_follows (hwf : s.conn.outputBuffer.Wf) (h : Follows s.conn) (hx : handleWrite s w = some s') :
    Follows s'.conn ∧ (s.conn.isWriting = false → s' = s) := by
  have hlen := Buffer.length_readable hwf
  unfold handleWrite at hx
  split at hx
  · rename_i hw
    refine ⟨?_, fun hno => absurd (hw.symm.trans hno) (by decide)⟩
    -- something waits, so nothing has been issued yet
    have hne := h.writing.1 hw
    have hshut : s.conn.shutWrite = 0 := by simpa [hne] using h.shut
    rcases write_count w s.conn.outputBuffer.readableBytes with ⟨rfl, hc⟩ | ⟨n, hn, hc⟩
    · rw [hc, if_neg (by decide)] at hx
      cases hx
      exact ⟨h.writing, h.up, h.shut⟩
    · by_cases h0 : (0 : Int) < n
      · have hle : n ≤ s.conn.outputBuffer.readable.length := by omega
        obtain ⟨b, hr, hbwf, -⟩ := Buffer.retrieve_spec hwf hle
        rw [hc, if_pos h0, Int.toNat_natCast, hr] at hx
        cases hx
        set s₁ : Sys C T := { s with conn := { s.conn.write s.conn.outputBuffer.readable w with outputBuffer := b } }
        have hb : b.readable = [] ↔ b.readableBytes = 0 := by
          rw [← Buffer.length_readable hbwf, List.length_eq_zero_iff]
        split
        · rename_i hempty
          obtain ⟨-, -, hb₁⟩ := drained_spec s₁
          obtain ⟨hw₁, hstate⟩ := drained_conn s₁
          have hbe : (drained s₁).conn.outputBuffer.readable = [] := by
            rw [hb₁]
            exact hb.2 hempty
          refine ⟨iff_of_false (by rw [hw₁]; decide) fun h => h hbe, by rw [hstate]; exact h.up, ?_⟩
          rw [drained_shutWrite, hstate, hbe]
          change s.conn.shutWrite + _ = _
          rw [hshut, Nat.zero_add]
          exact if_congr (and_iff_left rfl).symm rfl rfl
        · rename_i hempty
          have hbe : b.readable ≠ [] := fun h => hempty (hb.1 h)
          refine ⟨iff_of_true hw hbe, h.up, ?_⟩
          change s.conn.shutWrite = if _ ∧ b.readable = [] then 1 else 0
          rw [hshut, if_neg fun h => hbe h.2]
      · rw [hc, if_neg h0] at hx
        cases hx
        exact ⟨h.writing, h.up, h.shut⟩
  · cases hx
    exact ⟨h, fun _ => rfl⟩

/-! ## Runs -/

/-- The functor does nothing to the connection. -/
def Functor.idle : Functor T → Bool
  | writeCompleteCallback | other _ => true
  | sendInLoop _ _ | shutdownInLoop | shutdownAllInLoop => false

/-- A step of the loop, or one that the loop thread takes without touching the
write interest. -/
def Act.inLoopThread : Act C T → Prop
  | call _ _ | pushBack _ => False
  | setInterest i => i = .enableReading
  | _ => True

instance : ∀ a : Act C T, Decidable a.inLoopThread
  | .call _ _ | .pushBack _ => .isFalse id
  | .setInterest _ => inferInstanceAs (Decidable (_ = _))
  | .loop _ _ | .send _ _ | .shutdown | .shutdownAll | .handleWrite _ | .connectEstablished
  | .setWriteCompleteCallback _ => .isTrue trivial

/-- No other thread has anything on its way to the connection. -/
structure Alone (s : Sys C T) : Prop where
  streamed : Streamed s
  follows : Follows s.conn
  queue : ∀ f ∈ s.loop.queue, f.idle = true

theorem Alone.notes (h : Alone s) (hn : Notes s s') : ∀ f ∈ s'.loop.queue, f.idle = true := by
  rcases hn with hn | hn
  · rw [hn]
    exact h.queue
  · rw [hn, EventLoop.queueInLoop_queue]
    intro f hf
    rcases List.mem_append.1 hf with hf | hf
    · exact h.queue f hf
    · rw [List.mem_singleton.1 hf]
      rfl

/-- What a step of the loop thread does, besides keeping `Alone`. -/
structure Effect (s s' : Sys C T) : Prop where
  alone : Alone s'
  issued : s.conn.shutWrite < s'.conn.shutWrite → s'.conn.outputBuffer.readable = []
  after : 1 ≤ s.conn.shutWrite → s'.conn.transmitted = s.conn.transmitted

/-- A step that leaves the connection's output side alone. -/
theorem Effect.of_eq (hS : Streamed s') (hF : Follows s'.conn) (hq : ∀ f ∈ s'.loop.queue, f.idle = true)
    (hs : s'.conn.shutWrite = s.conn.shutWrite) (ht : s'.conn.transmitted = s.conn.transmitted) : Effect s s' :=
  ⟨⟨hS, hF, hq⟩, fun h => absurd h (by omega), fun _ => ht⟩

/-- A half-close asked for while connected. -/
theorem Effect.shutdown (h : Alone s) (hc : s.conn.state = .kConnected) (hS : Streamed s')
    (hl : s'.loop = s.loop) (he : s'.conn.events = s.conn.events) (hb : s'.conn.outputBuffer = s.conn.outputBuffer)
    (ht : s'.conn.transmitted = s.conn.transmitted) (hs : s'.conn.state = .kDisconnecting)
    (hn : s'.conn.shutWrite = s.conn.shutWrite + (if s.conn.isWriting then 0 else 1)) : Effect s s' := by
  refine ⟨⟨hS, h.follows.shutdown hc he hb hs hn, by rw [hl]; exact h.queue⟩, ?_, fun _ => ht⟩
  intro hlt
  rw [hb, ← h.follows.not_writing]
  by_contra hw
  rw [hn, if_pos (Bool.not_eq_false _ ▸ hw)] at hlt
  omega

variable [DecidableEq C] {self : C}

theorem Alone.idle_loop (h : Alone s) {a : EventLoop.Act C (Functor T) T}
    (ha : (machine self).enabled s (.loop a w)) (hx : (machine self).exec s (.loop a w) = some s') :
    s'.conn = s.conn ∧ ∀ f ∈ s'.loop.queue, f.idle = true := by
  obtain ⟨loop, hl, -, hq⟩ := EventLoop.step_queue h.streamed.entered ha.1
  -- what is started was in the queue or has just been pushed, and what is pushed is foreign
  have hidle : ∀ f ∈ s.loop.queue ++ a.pushes.toList, f.idle = true := by
    intro f hf
    rcases List.mem_append.1 hf with hf | hf
    · exact h.queue f hf
    · have := ha.2 f (Option.mem_toList.1 hf)
      cases f <;> simp_all [Functor.foreign, Functor.idle]
  rw [hq] at hidle
  have hqueue : ∀ f ∈ loop.queue, f.idle = true := fun f hf => hidle f (List.mem_append_right _ hf)
  simp only [machine] at hx
  rw [hl, some_bind] at hx
  cases hf : a.starts s.loop with
  | none =>
    rw [hf] at hx
    cases hx
    exact ⟨rfl, hqueue⟩
  | some f =>
    have := hidle f (List.mem_append_left _ (by rw [hf]; simp))
    rw [hf] at hx
    cases f with
    | writeCompleteCallback | other n =>
      cases hx
      exact ⟨rfl, hqueue⟩
    | sendInLoop t message | shutdownInLoop | shutdownAllInLoop => cases this

theorem step_effect (h : Alone s) {a : Act C T} (ha : (machine self).enabled s a) (hloop : a.inLoopThread)
    (hx : (machine self).exec s a = some s') : Effect s s' := by
  obtain ⟨_, hx', hS⟩ := step_streamed h.streamed ha
  cases hx'.symm.trans hx
  cases a with
  | loop a w =>
    obtain ⟨hc, hq⟩ := h.idle_loop ha hx
    exact .of_eq hS (hc ▸ h.follows) hq (by rw [hc]) (by rw [hc])
  | send message w =>
    simp only [machine] at hx
    split at hx
    · rename_i hc
      set s₁ : Sys C T := { record s none message with ran := s.ran ++ [(none, message)] }
      have hF : Follows s'.conn := sendInLoop_follows (s := s₁) h.streamed.wf h.follows hc hx
      obtain ⟨-, hs⟩ := sendInLoop_asks (s := s₁) (fun hne => h.follows.writing.2 hne) hx
      have hn : Notes s s' := sendInLoop_notes (s := s₁) hx
      refine ⟨⟨hS, hF, h.notes hn⟩, fun hlt => absurd hs (Nat.ne_of_gt hlt), ?_⟩
      -- while connected nothing has been issued
      intro hle
      have := h.follows.shut
      rw [if_neg fun h => absurd (hc.symm.trans h.1) (by decide)] at this
      omega
    · cases hx
      exact .of_eq hS h.follows h.queue rfl rfl
  | shutdown =>
    simp only [machine, Option.some.injEq] at hx
    split at hx
    · rename_i hc
      set s₁ : Sys C T := { s with conn := { s.conn with state := .kDisconnecting } }
      obtain ⟨-, ht, hb⟩ := shutdownInLoop_spec s₁
      subst hx
      refine .shutdown h hc hS (shutdownInLoop_loop s₁) (shutdownInLoop_events s₁) hb ht ?_
        (shutdownInLoop_shutWrite s₁)
      unfold shutdownInLoop
      split <;> rfl
    · cases hx
      exact .of_eq hS h.follows h.queue rfl rfl
  | shutdownAll =>
    simp only [machine, Option.some.injEq] at hx
    split at hx
    · rename_i hc
      set s₁ : Sys C T := { s with conn := { s.conn with state := .kDisconnecting } }
      obtain ⟨-, ht, hb⟩ := shutdownAllInLoop_spec s₁
      subst hx
      exact .shutdown h hc hS (shutdownAllInLoop_loop s₁) (shutdownAllInLoop_events s₁) hb ht
        (shutdownAllInLoop_state s₁) (shutdownAllInLoop_shutWrite s₁)
    · cases hx
      exact .of_eq hS h.follows h.queue rfl rfl
  | call t c => exact hloop.elim
  | pushBack t => exact hloop.elim
  | handleWrite w =>
    obtain ⟨hF, hidle⟩ := handleWrite_follows h.streamed.wf h.follows hx
    obtain ⟨-, hd, hs⟩ := handleWrite_asks h.streamed.wf (fun hne => h.follows.writing.2 hne) hx
    refine ⟨⟨hS, hF, h.notes (handleWrite_notes hx)⟩, ?_, ?_⟩
    · intro hlt
      by_cases hdr : s.conn.state = .kDisconnecting ∧ Drains s w
      · exact hd hdr.2
      · rw [hs, if_neg hdr] at hlt
        omega
    · intro hle
      have hempty : s.conn.outputBuffer.readable = [] := by
        by_contra hne
        have := h.follows.shut
        rw [if_neg fun h => hne h.2] at this
        omega
      rw [hidle (h.follows.not_writing.2 hempty)]
  | connectEstablished =>
    obtain ⟨_, -, hx⟩ := Option.bind_eq_some_iff.1 hx
    cases hx
    refine .of_eq hS ⟨?_, by simp [Conn.setInterest], ?_⟩ h.queue rfl rfl
    · rw [isWriting_enableReading]
      exact h.follows.writing
    · have := h.follows.shut
      rw [if_neg fun h => absurd (ha.2.symm.trans h.1) (by decide)] at this
      simpa [Conn.setInterest] using this
  | setInterest i =>
    cases hx
    cases hloop
    refine .of_eq hS ⟨?_, h.follows.up, h.follows.shut⟩ h.queue rfl rfl
    rw [isWriting_enableReading]
    exact h.follows.writing
  | setWriteCompleteCallback on =>
    cases hx
    exact .of_eq hS ⟨h.follows.writing, h.follows.up, h.follows.shut⟩ h.queue rfl rfl

/-- In every run of the loop thread: the write interest is on exactly when
output is buffered; `shutdownWrite` is issued once at most, only with nothing
buffered, and has been issued wherever the connection is disconnecting with
nothing buffered; after it no byte is written. -/
theorem interest_follows {tr : List (Sys C T × Act C T)} (h : Run (machine self) tr s)
    (hloop : Meets (fun _ a => a.inLoopThread) tr) :
    (∀ t, Visited tr s t →
      (t.conn.isWriting = true ↔ t.conn.outputBuffer.readable ≠ []) ∧ t.conn.shutWrite ≤ 1 ∧
      (t.conn.state = .kDisconnecting → t.conn.outputBuffer.readable = [] → t.conn.shutWrite = 1)) ∧
    ∀ p ∈ tr, ∀ t, (machine self).exec p.1 p.2 = some t →
      (p.1.conn.shutWrite < t.conn.shutWrite → t.conn.outputBuffer.readable = []) ∧
      (1 ≤ p.1.conn.shutWrite → t.conn.transmitted = p.1.conn.transmitted) := by
  have alone_init : Alone ({} : Sys C T) := ⟨streamed_init, ⟨by simp [Conn.isWriting, kNoneEvent], by simp, rfl⟩, by
    simp [EventLoop.St.queue, EventLoop.Pc.todo]⟩
  have reach : ∀ pre t, Run (machine self) pre t → pre <+: tr → Alone t := by
    intro pre t hr hpre
    exact Run.inv_if Alone (fun _ a => a.inLoopThread) alone_init
      (fun s a s' hs ha hl hx => (step_effect hs ha hl hx).alone) hr fun p hp => hloop p (hpre.subset hp)
  constructor
  · intro t ht
    obtain ⟨pre, hr, hpre⟩ := Steps.visited h ht
    have hF := (reach pre t hr hpre).follows
    refine ⟨hF.writing, ?_, fun hs hb => ?_⟩
    · rw [hF.shut]
      split <;> omega
    · rw [hF.shut, if_pos ⟨hs, hb⟩]
  · intro p hp t hx
    obtain ⟨pre, _, hr, hpre, ha, -⟩ := h.taken hp
    have hE := step_effect (reach pre p.1 hr hpre) ha (hloop p hp) hx
    exact ⟨hE.issued, hE.after⟩

/-- An empty message, one cut short, a half-close that waits for the rest of
it, and a message after it. -/
theorem interest_follows_cut : ∃ tr s, Run (machine (C := Unit) (T := Unit) ()) tr s ∧
    s.conn.transmitted = [1, 2] ∧ s.conn.shutWrite = 1 ∧
    (∀ t, Visited tr s t → (t.conn.isWriting = true ↔ t.conn.outputBuffer.readable ≠ [])) ∧
    ∀ p ∈ tr, ∀ t, (machine ()).exec p.1 p.2 = some t →
      p.1.conn.shutWrite < t.conn.shutWrite → t.conn.outputBuffer.readable = [] := by
  obtain ⟨r, hr, ht, hs, hloop⟩ : ∃ r ∈ (machine (C := Unit) (T := Unit) ()).play {}
      [.connectEstablished, .send [] (.wrote 0), .send [1, 2] (.wrote 1), .shutdown, .send [3] (.wrote 1),
        .loop .advance .error, .loop .advance .error, .loop (.poll [.channel ()]) .error, .loop .advance .error,
        .handleWrite (.wrote 1)],
      r.2.conn.transmitted = [1, 2] ∧ r.2.conn.shutWrite = 1 ∧ Meets (fun _ a => a.inLoopThread) r.1 := by
    decide +kernel
  have hrun := Machine.play_steps hr
  obtain ⟨hstates, hsteps⟩ := interest_follows hrun hloop
  exact ⟨r.1, r.2, hrun, ht, hs, fun t hv => (hstates t hv).1, fun p hp t hx => (hsteps p hp t hx).1⟩

end Cppnetool.TcpConnection
