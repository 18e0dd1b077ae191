import Cppnetool.TcpConnection
/-!
# The output stream of a connection

Bytes leave by the direct write of `sendInLoop` and by `handleWrite`; whatever
the writes take, what is transmitted and what is buffered make up the messages
in the order in which `sendInLoop` ran for them. Beside that, every message a
thread sent has run, or is in the functor queue, or is on its way there.
-/
open Lib

namespace Cppnetool.TcpConnection

variable {C T : Type} {s s' s'' : Sys C T} {t : T} {message : List Byte} {w : WriteResult}

/-- The bytes transmitted, and those waiting in the output buffer. -/
def Conn.stream (c : Conn) : List Byte := c.transmitted ++ c.outputBuffer.readable

/-! ## What the functions do to the stream -/

theorem write_count (w : WriteResult) (len : Nat) :
    (w = .error ∧ w.count len = -1) ∨ ∃ n : Nat, n ≤ len ∧ w.count len = n := by
  cases w with
  | error => exact .inl ⟨rfl, rfl⟩
  | wrote n => exact .inr ⟨min n len, Nat.min_le_right _ _, rfl⟩

section DecidableEq
variable [DecidableEq T]

/-- The messages of thread `t` in a list of functors. -/
def messagesOf (t : T) (fs : List (Functor T)) : List (List Byte) :=
  fs.filterMap fun
    | .sendInLoop u message => if u = t then some message else none
    | _ => none

theorem messagesOf_append (t : T) (fs gs : List (Functor T)) :
    messagesOf t (fs ++ gs) = messagesOf t fs ++ messagesOf t gs := List.filterMap_append

/-- A step of the connection that neither starts, sends nor records a message. -/
structure Quiet (s s' : Sys C T) : Prop where
  calls : s'.calls = s.calls
  sent : s'.sent = s.sent
  ran : s'.ran = s.ran
  entered : EventLoop.Entered s'.loop ↔ EventLoop.Entered s.loop
  queue : ∀ t, messagesOf t s'.loop.queue = messagesOf t s.loop.queue

theorem Quiet.refl (s : Sys C T) : Quiet s s := ⟨rfl, rfl, rfl, Iff.rfl, fun _ => rfl⟩

theorem Quiet.trans (h : Quiet s s') (h' : Quiet s' s'') : Quiet s s'' :=
  ⟨h'.calls.trans h.calls, h'.sent.trans h.sent, h'.ran.trans h.ran, h'.entered.trans h.entered,
    fun t => (h'.queue t).trans (h.queue t)⟩

theorem Quiet.conn (s : Sys C T) (c : Conn) : Quiet s { s with conn := c } :=
  ⟨rfl, rfl, rfl, Iff.rfl, fun _ => rfl⟩

theorem Quiet.queueInLoop (s : Sys C T) : Quiet s (queueInLoop s .writeCompleteCallback) := by
  refine ⟨rfl, rfl, rfl, ?_, ?_⟩
  · simp [TcpConnection.queueInLoop, EventLoop.Entered]
  · intro t
    simp only [TcpConnection.queueInLoop, EventLoop.queueInLoop_queue]
    rw [messagesOf_append]
    exact List.append_nil _

theorem shutdownInLoop_spec (s : Sys C T) :
    Quiet s (shutdownInLoop s) ∧ (shutdownInLoop s).conn.transmitted = s.conn.transmitted ∧
      (shutdownInLoop s).conn.outputBuffer = s.conn.outputBuffer := by
  unfold shutdownInLoop
  split
  · exact ⟨.refl s, rfl, rfl⟩
  · exact ⟨.conn s _, rfl, rfl⟩

theorem shutdownAllInLoop_spec (s : Sys C T) :
    Quiet s (shutdownAllInLoop s) ∧ (shutdownAllInLoop s).conn.transmitted = s.conn.transmitted ∧
      (shutdownAllInLoop s).conn.outputBuffer = s.conn.outputBuffer := by
  obtain ⟨hq, ht, hb⟩ := shutdownInLoop_spec s
  simp only [shutdownAllInLoop]
  split
  · exact ⟨hq, ht, hb⟩
  · exact ⟨hq.trans (.conn _ _), ht, hb⟩

/-- The direct write takes a first part of the message, and nothing when
something waits. -/
theorem writeDirect_spec (hwf : s.conn.outputBuffer.Wf) (message : List Byte) (w : WriteResult) :
    ∃ n : Nat, n ≤ message.length ∧ (writeDirect s message w).1 = n ∧ Quiet s (writeDirect s message w).2 ∧
      (writeDirect s message w).2.conn.outputBuffer = s.conn.outputBuffer ∧
      (writeDirect s message w).2.conn.transmitted = s.conn.transmitted ++ message.take n ∧
      (n ≠ 0 → s.conn.outputBuffer.readable = []) := by
  unfold writeDirect
  split
  · rename_i hidle
    have hempty : s.conn.outputBuffer.readable = [] :=
      List.eq_nil_of_length_eq_zero (by rw [Buffer.length_readable hwf]; exact hidle.2)
    have hq : Quiet s { s with conn := s.conn.write message w } := .conn s _
    rcases write_count w message.length with ⟨rfl, hc⟩ | ⟨n, hn, hc⟩
    · rw [if_neg (by rw [hc]; decide)]
      exact ⟨0, Nat.zero_le _, rfl, hq, rfl, by simp [Conn.write, hc], fun h => absurd rfl h⟩
    · rw [if_pos (by rw [hc]; exact Int.natCast_nonneg n), hc]
      have ht : (s.conn.write message w).transmitted = s.conn.transmitted ++ message.take n := by
        simp [Conn.write, hc]
      split
      · exact ⟨n, hn, rfl, hq, rfl, ht, fun _ => hempty⟩
      · split
        · exact ⟨n, hn, rfl, hq.trans (.queueInLoop _), rfl, ht, fun _ => hempty⟩
        · exact ⟨n, hn, rfl, hq, rfl, ht, fun _ => hempty⟩
  · exact ⟨0, Nat.zero_le _, rfl, .refl s, rfl, by simp, fun h => absurd rfl h⟩

/-- `sendInLoop` adds its message at the end of the stream. -/
theorem sendInLoop_spec (hwf : s.conn.outputBuffer.Wf) (message : List Byte) (w : WriteResult) :
    ∃ s', sendInLoop s message w = some s' ∧ Quiet s s' ∧ s'.conn.outputBuffer.Wf ∧
      s'.conn.stream = s.conn.stream ++ message := by
  obtain ⟨n, hn, hfst, hq, hb, ht, hempty⟩ := writeDirect_spec hwf message w
  unfold sendInLoop
  generalize hr : writeDirect s message w = r at *
  obtain ⟨nwrote, s₁⟩ := r
  dsimp only at hfst hq hb ht ⊢
  subst hfst
  rw [assert_bind (Int.natCast_nonneg n)]
  -- a direct write happens only when nothing waits before the message
  have hstream : s₁.conn.transmitted ++ (s.conn.outputBuffer.readable ++ message.drop n) =
      s.conn.stream ++ message := by
    rw [ht, Conn.stream]
    by_cases h0 : n = 0
    · subst h0; simp
    · rw [hempty h0]; simp
  by_cases hlt : n < message.length
  · obtain ⟨b, ha, hbwf, hbr⟩ := Buffer.append_spec hwf (message.drop n)
    rw [if_pos (by exact_mod_cast hlt), hb, Int.toNat_natCast, ha, some_bind]
    split
    · exact ⟨_, rfl, hq.trans (.conn _ _), hbwf, by rw [← hstream, ← hbr]; rfl⟩
    · exact ⟨_, rfl, hq.trans (.conn _ _), hbwf, by rw [← hstream, ← hbr]; rfl⟩
  · rw [if_neg (by exact_mod_cast hlt)]
    refine ⟨s₁, rfl, hq, hb ▸ hwf, ?_⟩
    rw [← hstream, List.drop_eq_nil_of_le (by omega), List.append_nil, Conn.stream, hb]

theorem drained_spec (s : Sys C T) :
    Quiet s (drained s) ∧ (drained s).conn.transmitted = s.conn.transmitted ∧
      (drained s).conn.outputBuffer = s.conn.outputBuffer := by
  simp only [drained]
  set s₁ : Sys C T := { s with conn := s.conn.setInterest .disableWriting } with hs₁
  have h₁ : Quiet s s₁ := .conn s _
  set s₂ := if s₁.conn.hasWriteComplete = true then queueInLoop s₁ .writeCompleteCallback else s₁ with hs₂
  have h₂ : Quiet s₁ s₂ ∧ s₂.conn = s₁.conn := by
    rw [hs₂]
    split
    · exact ⟨.queueInLoop s₁, rfl⟩
    · exact ⟨.refl s₁, rfl⟩
  have h₃ := shutdownInLoop_spec s₂
  split
  · exact ⟨(h₁.trans h₂.1).trans h₃.1, by rw [h₃.2.1, h₂.2, hs₁]; rfl, by rw [h₃.2.2, h₂.2, hs₁]; rfl⟩
  · exact ⟨h₁.trans h₂.1, by rw [h₂.2, hs₁]; rfl, by rw [h₂.2, hs₁]; rfl⟩

/-- `handleWrite` only moves bytes from the buffer to the wire. -/
theorem handleWrite_spec (hwf : s.conn.outputBuffer.Wf) (w : WriteResult) :
    ∃ s', handleWrite s w = some s' ∧ Quiet s s' ∧ s'.conn.outputBuffer.Wf ∧ s'.conn.stream = s.conn.stream := by
  have hlen := Buffer.length_readable hwf
  unfold handleWrite
  split
  · rcases write_count w s.conn.outputBuffer.readableBytes with ⟨rfl, hc⟩ | ⟨n, hn, hc⟩
    · rw [if_neg (by rw [hc]; decide)]
      exact ⟨_, rfl, .conn s _, hwf, by simp [Conn.stream, Conn.write, hlen, hc]⟩
    · have hw : (s.conn.write s.conn.outputBuffer.readable w).transmitted =
          s.conn.transmitted ++ s.conn.outputBuffer.readable.take n := by
        simp [Conn.write, hlen, hc]
      rw [hc]
      by_cases h0 : (0 : Int) < n
      · have hle : n ≤ s.conn.outputBuffer.readable.length := by omega
        obtain ⟨b, hr, hbwf, hbr⟩ := Buffer.retrieve_spec hwf hle
        rw [if_pos h0, Int.toNat_natCast, hr, some_bind]
        set s₁ : Sys C T :=
          { s with conn := { s.conn.write s.conn.outputBuffer.readable w with outputBuffer := b } } with hs₁
        have hstream : s₁.conn.stream = s.conn.stream := by
          rw [Conn.stream, Conn.stream, hs₁]
          dsimp only
          rw [hw, hbr, List.append_assoc, List.take_append_drop]
        split
        · obtain ⟨hq, ht, hb⟩ := drained_spec s₁
          exact ⟨_, rfl, (Quiet.conn s _).trans hq, hb ▸ hbwf, by rw [← hstream, Conn.stream, ht, hb]; rfl⟩
        · exact ⟨s₁, rfl, .conn s _, hbwf, hstream⟩
      · have : n = 0 := by omega
        subst this
        rw [if_neg h0]
        exact ⟨_, rfl, .conn s _, hwf, by rw [Conn.stream, hw]; simp [Conn.stream, Conn.write]⟩
  · exact ⟨s, rfl, .refl s, hwf, rfl⟩

/-! ## What every step keeps -/

/-- The messages of one thread for which `sendInLoop` has run. -/
def ranBy (ran : List (Option T × List Byte)) (who : Option T) : List (List Byte) :=
  (ran.filter (·.1 = who)).map Prod.snd

theorem ranBy_append (ran : List (Option T × List Byte)) (who who' : Option T) (message : List Byte) :
    ranBy (ran ++ [(who', message)]) who = ranBy ran who ++ if who' = who then [message] else [] := by
  by_cases h : who' = who <;> simp [ranBy, h]

/-- The message of a call that has not reached `queueInLoop`. -/
def callOf : Option Call → List (List Byte)
  | some (.send message) => [message]
  | _ => []

structure Streamed (s : Sys C T) : Prop where
  entered : EventLoop.Entered s.loop
  wf : s.conn.outputBuffer.Wf
  stream : s.conn.stream = (s.ran.map Prod.snd).flatten
  own : s.sent none = ranBy s.ran none
  order : ∀ t, s.sent (some t) = ranBy s.ran (some t) ++ (messagesOf t s.loop.queue ++ callOf (s.calls t))

theorem streamed_init : Streamed ({} : Sys C T) where
  entered := iff_of_true rfl rfl
  wf := Buffer.new_wf
  stream := by simp [Conn.stream]
  own := rfl
  order _ := rfl

theorem Streamed.quiet (h : Streamed s) (hq : Quiet s s') (hwf : s'.conn.outputBuffer.Wf)
    (hs : s'.conn.stream = s.conn.stream) : Streamed s' where
  entered := hq.entered.2 h.entered
  wf := hwf
  stream := by rw [hs, h.stream, hq.ran]
  own := by rw [hq.sent, hq.ran, h.own]
  order t := by rw [hq.sent, hq.ran, hq.queue, hq.calls, h.order]

/-- A message that is recorded as run and then sent. -/
theorem Streamed.send (he : EventLoop.Entered s.loop) (hwf : s.conn.outputBuffer.Wf)
    (hs : s.conn.stream ++ message = (s.ran.map Prod.snd).flatten) (ho : s.sent none = ranBy s.ran none)
    (hord : ∀ t, s.sent (some t) = ranBy s.ran (some t) ++ (messagesOf t s.loop.queue ++ callOf (s.calls t)))
    (w : WriteResult) : ∃ s', sendInLoop s message w = some s' ∧ Streamed s' := by
  obtain ⟨s', hx, hq, hwf', hs'⟩ := sendInLoop_spec hwf message w
  refine ⟨s', hx, hq.entered.2 he, hwf', ?_, ?_, ?_⟩
  · rw [hs', hs, hq.ran]
  · rw [hq.sent, hq.ran, ho]
  · intro t
    rw [hq.sent, hq.ran, hq.queue, hq.calls, hord]

theorem messagesOf_foreign {o : Option (Functor T)} (h : ∀ f ∈ o, f.foreign) (t : T) : messagesOf t o.toList = [] := by
  match o, h with
  | none, _ => rfl
  | some (.other n), _ => rfl
  | some (.sendInLoop u m), h => exact absurd (h _ rfl) (by simp [Functor.foreign])
  | some .shutdownInLoop, h => exact absurd (h _ rfl) (by simp [Functor.foreign])
  | some .shutdownAllInLoop, h => exact absurd (h _ rfl) (by simp [Functor.foreign])
  | some .writeCompleteCallback, h => exact absurd (h _ rfl) (by simp [Functor.foreign])

/-- A call that sends nothing adds no message to what a thread has sent. -/
theorem order_shutdown (h : Streamed s) (ht : s.calls t = none) {c : Call} (hc : callOf (some c) = []) (u : T) :
    s.sent (some u) =
      ranBy s.ran (some u) ++ (messagesOf u s.loop.queue ++ callOf (Function.update s.calls t (some c) u)) := by
  by_cases hu : u = t
  · subst hu
    have := h.order u
    rw [ht] at this
    rw [Function.update_self, hc]
    exact this
  · rw [Function.update_of_ne hu]
    exact h.order u

theorem call_streamed (h : Streamed s) (ht : s.calls t = none) (c : Call) : Streamed (call s t c) := by
  unfold call
  split
  · cases c with
    | send message =>
      refine ⟨h.entered, h.wf, h.stream, ?_, ?_⟩
      · simp only [record]
        rw [Function.update_of_ne (by simp)]
        exact h.own
      · intro u
        simp only [record]
        by_cases hu : u = t
        · subst hu
          rw [Function.update_self, Function.update_self, h.order, ht]
          simp [callOf]
        · rw [Function.update_of_ne (by simpa using hu), Function.update_of_ne hu]
          exact h.order u
    | shutdown => exact ⟨h.entered, h.wf, h.stream, h.own, order_shutdown h ht rfl⟩
    | shutdownAll => exact ⟨h.entered, h.wf, h.stream, h.own, order_shutdown h ht rfl⟩
  · exact h

variable [DecidableEq C] {self : C}

/-- A step of the loop, with the functor it starts. -/
theorem loop_streamed (h : Streamed s) {a : EventLoop.Act C (Functor T) T} {w : WriteResult}
    (ha : (machine self).enabled s (.loop a w)) :
    ∃ s', (machine self).exec s (.loop a w) = some s' ∧ Streamed s' := by
  obtain ⟨loop, hx, he, hq⟩ := EventLoop.step_queue h.entered ha.1
  have hmsg (t : T) :
      messagesOf t s.loop.queue = messagesOf t (a.starts s.loop).toList ++ messagesOf t loop.queue := by
    have := congrArg (messagesOf t) hq
    rwa [messagesOf_append, messagesOf_append, messagesOf_foreign ha.2, List.append_nil] at this
  -- only a `sendInLoop` carries a message; the other functors leave every order alone
  have hsame (hno : ∀ t, messagesOf t (a.starts s.loop).toList = []) : Streamed { s with loop := loop } :=
    ⟨he, h.wf, h.stream, h.own, fun t => by rw [h.order, hmsg, hno]; rfl⟩
  simp only [machine]
  rw [hx, some_bind]
  cases hf : a.starts s.loop with
  | none => exact ⟨_, rfl, hsame fun t => by rw [hf]; rfl⟩
  | some f =>
    rw [hf] at hmsg hsame
    cases f with
    | sendInLoop u message =>
      refine Streamed.send (s := { s with loop := loop, ran := s.ran ++ [(some u, message)] }) he h.wf ?_ ?_
        (?_) w
      · simp [← h.stream, Conn.stream]
      · dsimp only
        rw [ranBy_append, if_neg (by simp), List.append_nil]
        exact h.own
      · intro t
        dsimp only
        rw [ranBy_append, h.order, hmsg]
        by_cases hu : u = t <;> simp [messagesOf, hu]
    | shutdownInLoop =>
      have h₁ := hsame fun t => rfl
      obtain ⟨hq, ht, hb⟩ := shutdownInLoop_spec { s with loop := loop }
      exact ⟨_, rfl, h₁.quiet hq (hb ▸ h.wf) (by rw [Conn.stream, ht, hb]; rfl)⟩
    | shutdownAllInLoop =>
      have h₁ := hsame fun t => rfl
      obtain ⟨hq, ht, hb⟩ := shutdownAllInLoop_spec { s with loop := loop }
      exact ⟨_, rfl, h₁.quiet hq (hb ▸ h.wf) (by rw [Conn.stream, ht, hb]; rfl)⟩
    | writeCompleteCallback => exact ⟨_, rfl, hsame fun t => rfl⟩
    | other n => exact ⟨_, rfl, hsame fun t => rfl⟩

theorem pushBack_streamed (h : Streamed s) (ha : (machine self).enabled s (.pushBack t)) :
    ∃ s', (machine self).exec s (.pushBack t) = some s' ∧ Streamed s' := by
  obtain ⟨c, hc⟩ := Option.ne_none_iff_exists'.1 ha.1
  -- the message leaves the call and is the last of its thread in the queue
  obtain ⟨loop, hx, he, hq⟩ := EventLoop.step_queue (a := .pushBack t (c.functor t)) h.entered ha.2
  have hmsg (u : T) : messagesOf u loop.queue = messagesOf u s.loop.queue ++ messagesOf u [c.functor t] := by
    rw [← messagesOf_append]
    exact congrArg (messagesOf u) hq.symm
  simp only [machine] at hx ⊢
  rw [hc, some_bind, hx, some_bind]
  refine ⟨_, rfl, he, h.wf, h.stream, h.own, ?_⟩
  intro u
  dsimp only
  rw [h.order, hmsg]
  by_cases hu : u = t
  · subst hu
    rw [Function.update_self, hc]
    cases c <;> simp [callOf, messagesOf, Call.functor]
  · rw [Function.update_of_ne hu]
    have : messagesOf u [c.functor t] = [] := by
      cases c <;> simp [messagesOf, Call.functor, Ne.symm hu]
    rw [this, List.append_nil]

/-- No step fails, and each keeps the stream. -/
theorem step_streamed (h : Streamed s) {a : Act C T} (ha : (machine self).enabled s a) :
    ∃ s', (machine self).exec s a = some s' ∧ Streamed s' := by
  cases a with
  | loop a w => exact loop_streamed h ha
  | send message w =>
    simp only [machine]
    split
    · refine Streamed.send (s := { record s none message with ran := s.ran ++ [(none, message)] }) h.entered h.wf ?_ ?_
        (?_) w
      · simp [record, ← h.stream, Conn.stream]
      · simp only [record]
        rw [Function.update_self, ranBy_append, if_pos rfl, h.own]
      · intro t
        simp only [record]
        rw [Function.update_of_ne (by simp), ranBy_append, if_neg (by simp), List.append_nil]
        exact h.order t
    · exact ⟨s, rfl, h⟩
  | shutdown =>
    refine ⟨_, rfl, ?_⟩
    split
    · obtain ⟨hq, ht, hb⟩ := shutdownInLoop_spec { s with conn := { s.conn with state := .kDisconnecting } }
      exact h.quiet ((Quiet.conn s _).trans hq) (hb ▸ h.wf) (by rw [Conn.stream, ht, hb]; rfl)
    · exact h
  | shutdownAll =>
    refine ⟨_, rfl, ?_⟩
    split
    · obtain ⟨hq, ht, hb⟩ := shutdownAllInLoop_spec { s with conn := { s.conn with state := .kDisconnecting } }
      exact h.quiet ((Quiet.conn s _).trans hq) (hb ▸ h.wf) (by rw [Conn.stream, ht, hb]; rfl)
    · exact h
  | call t c => exact ⟨_, rfl, call_streamed h ha.2 c⟩
  | pushBack t => exact pushBack_streamed h ha
  | handleWrite w =>
    obtain ⟨s', hx, hq, hwf, hs⟩ := handleWrite_spec h.wf w
    exact ⟨s', hx, h.quiet hq hwf hs⟩
  | connectEstablished =>
    simp only [machine]
    rw [assert_bind ha.2]
    exact ⟨_, rfl, h.quiet (.conn s _) h.wf rfl⟩
  | setInterest i => exact ⟨_, rfl, h.quiet (.conn s _) h.wf rfl⟩
  | setWriteCompleteCallback on => exact ⟨_, rfl, h.quiet (.conn s _) h.wf rfl⟩

/-- Over every run: what is transmitted followed by what is buffered is the
concatenation of the messages for which `sendInLoop` has run, in that order.
The messages of the loop thread have all run; those of another thread have run
as far as they have not been waiting, in the order in which they were sent. -/
theorem output_stream (self : C) : (machine (T := T) self).Safe ∧ ∀ tr s, Run (machine (T := T) self) tr s →
    s.conn.transmitted ++ s.conn.outputBuffer.readable = (s.ran.map Prod.snd).flatten ∧
    ranBy s.ran none = s.sent none ∧
    ∀ t, ranBy s.ran (some t) ++ (messagesOf t s.loop.queue ++ callOf (s.calls t)) = s.sent (some t) := by
  refine ⟨Machine.safe_of_inv Streamed streamed_init fun s a h ha => step_streamed h ha, ?_⟩
  intro tr s hr
  have h : Streamed s := hr.inv Streamed streamed_init fun s a s' h ha hx => by
    obtain ⟨s'', hx', h'⟩ := step_streamed h ha
    rw [hx] at hx'; cases hx'; exact h'
  exact ⟨h.stream, h.own.symm, fun t => (h.order t).symm⟩

/-- Two threads: the first write of the loop thread is cut short, a message of
the other thread overtakes nothing, and one of its messages still waits. -/
theorem output_stream_cut : ∃ tr s, Run (machine (C := Unit) (T := Unit) ()) tr s ∧
    s.conn.transmitted = [1, 2, 3] ∧ s.conn.outputBuffer.readable = [4] ∧
    (s.ran.map Prod.snd).flatten = [1, 2, 3, 4] ∧ s.sent (some ()) = [[3, 4], [5]] := by
  obtain ⟨r, hr, ht, hb, hs⟩ : ∃ r ∈ (machine (C := Unit) (T := Unit) ()).play {}
      [.connectEstablished, .send [1, 2] (.wrote 1), .call () (.send [3, 4]), .pushBack (), .loop (.wakeup ()) .error,
        .loop .advance .error, .loop .advance .error, .loop (.poll [.wakeup, .channel ()]) .error,
        .loop .advance .error, .loop .advance .error, .loop .advance (.wrote 2), .call () (.send [5]),
        .loop .advance .error, .loop .advance .error, .handleWrite (.wrote 2)],
      r.2.conn.transmitted = [1, 2, 3] ∧ r.2.conn.outputBuffer.readable = [4] ∧
        r.2.sent (some ()) = [[3, 4], [5]] := by decide +kernel
  have hrun := Machine.play_steps hr
  exact ⟨r.1, r.2, hrun, ht, hb, by rw [← ((output_stream ()).2 r.1 r.2 hrun).1, ht, hb]; rfl, hs⟩

end DecidableEq

end Cppnetool.TcpConnection
