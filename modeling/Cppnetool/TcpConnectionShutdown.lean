import Mathlib.Data.Fintype.Basic
import Mathlib.Data.Nat.Bitwise
import Cppnetool.TcpConnectionStream
/-!
# Half-close and teardown

`shutdownWrite` is issued where `shutdownInLoop` finds no write interest. The
write interest tells of the output buffer, but not of the messages that other
threads have sent and the loop has not run yet; teardown looks at neither.
-/
open Lib

namespace Cppnetool.TcpConnection

variable {C T : Type} {s s' : Sys C T} {c : Conn} {message : List Byte} {w : WriteResult}

/-! ## The write interest -/

theorem isWriting_iff (c : Conn) : c.isWriting = c.events.testBit 2 := by
  unfold Conn.isWriting
  rw [show kWriteEvent = 2 ^ 2 from rfl, Nat.and_two_pow]
  cases c.events.testBit 2 <;> rfl

@[simp] theorem isWriting_disableWriting (c : Conn) : (c.setInterest .disableWriting).isWriting = false := by
  rw [isWriting_iff]
  simp [Conn.setInterest, Interest.apply, Nat.testBit_xor, Nat.testBit_and, show Nat.testBit kWriteEvent 2 = true from rfl]

@[simp] theorem isWriting_enableWriting (c : Conn) : (c.setInterest .enableWriting).isWriting = true := by
  rw [isWriting_iff]
  simp [Conn.setInterest, Interest.apply, Nat.testBit_or, show Nat.testBit kWriteEvent 2 = true from rfl]

@[simp] theorem isWriting_enableReading (c : Conn) : (c.setInterest .enableReading).isWriting = c.isWriting := by
  rw [isWriting_iff, isWriting_iff]
  simp [Conn.setInterest, Interest.apply, Nat.testBit_or, show Nat.testBit kReadEvent 2 = false from rfl]

/-- Output waits only while the channel asks to write. -/
def Conn.Asks (c : Conn) : Prop := c.outputBuffer.readable ≠ [] → c.isWriting = true

theorem Conn.Asks.empty (h : c.Asks) (hw : c.isWriting = false) : c.outputBuffer.readable = [] := by
  by_contra hb
  rw [h hb] at hw
  cases hw

/-! ## Where `shutdownWrite` is issued -/

theorem shutdownInLoop_shutWrite (s : Sys C T) :
    (shutdownInLoop s).conn.shutWrite = s.conn.shutWrite + (if s.conn.isWriting then 0 else 1) := by
  unfold shutdownInLoop
  split <;> rfl

theorem shutdownAllInLoop_shutWrite (s : Sys C T) :
    (shutdownAllInLoop s).conn.shutWrite = s.conn.shutWrite + (if s.conn.isWriting then 0 else 1) := by
  rw [← shutdownInLoop_shutWrite]
  simp only [shutdownAllInLoop]
  split <;> rfl

theorem shutdownInLoop_events (s : Sys C T) : (shutdownInLoop s).conn.events = s.conn.events := by
  unfold shutdownInLoop
  split <;> rfl

theorem shutdownAllInLoop_events (s : Sys C T) : (shutdownAllInLoop s).conn.events = s.conn.events := by
  have h := shutdownInLoop_events s
  simp only [shutdownAllInLoop]
  split <;> exact h

theorem shutdownAllInLoop_state (s : Sys C T) : (shutdownAllInLoop s).conn.state = s.conn.state := by
  have h : (shutdownInLoop s).conn.state = s.conn.state := by
    unfold shutdownInLoop
    split <;> rfl
  simp only [shutdownAllInLoop]
  split <;> exact h

theorem writeDirect_conn (s : Sys C T) (message : List Byte) (w : WriteResult) :
    (writeDirect s message w).2.conn.events = s.conn.events ∧
      (writeDirect s message w).2.conn.shutWrite = s.conn.shutWrite ∧
      (writeDirect s message w).2.conn.outputBuffer = s.conn.outputBuffer := by
  unfold writeDirect
  split
  · dsimp only
    split
    · split
      · exact ⟨rfl, rfl, rfl⟩
      · split <;> exact ⟨rfl, rfl, rfl⟩
    · exact ⟨rfl, rfl, rfl⟩
  · exact ⟨rfl, rfl, rfl⟩

/-- What `sendInLoop` leaves in the buffer it asks to write. -/
theorem sendInLoop_asks (hA : s.conn.Asks) (hx : sendInLoop s message w = some s') :
    s'.conn.Asks ∧ s'.conn.shutWrite = s.conn.shutWrite := by
  obtain ⟨he, hs, hb⟩ := writeDirect_conn s message w
  unfold sendInLoop at hx
  generalize writeDirect s message w = r at *
  obtain ⟨nwrote, s₁⟩ := r
  dsimp only at he hs hb hx
  obtain ⟨_, -, hx⟩ := Option.bind_eq_some_iff.1 hx
  split at hx
  · obtain ⟨b, -, hx⟩ := Option.bind_eq_some_iff.1 hx
    cases hx
    split
    · rename_i hw
      exact ⟨fun _ => hw, hs⟩
    · exact ⟨fun _ => isWriting_enableWriting _, hs⟩
  · cases hx
    refine ⟨?_, hs⟩
    intro hne
    rw [hb] at hne
    have := hA hne
    rwa [Conn.isWriting, ← he] at this

/-- The write interest is dropped, and then a half-close that was put off is issued. -/
theorem drained_cases (s : Sys C T) : ∃ s₂ : Sys C T, s₂.conn = s.conn.setInterest .disableWriting ∧
    s₂.conn.isWriting = false ∧
    drained s = if s.conn.state = .kDisconnecting then shutdownInLoop s₂ else s₂ := by
  simp only [drained]
  set s₁ : Sys C T := { s with conn := s.conn.setInterest .disableWriting }
  set s₂ := if s₁.conn.hasWriteComplete = true then queueInLoop s₁ .writeCompleteCallback else s₁ with hs₂
  have h₂ : s₂.conn = s₁.conn := by
    rw [hs₂]
    split <;> rfl
  refine ⟨s₂, h₂, ?_, ?_⟩
  · rw [h₂]
    exact isWriting_disableWriting s.conn
  · rw [h₂]
    rfl

theorem drained_shutWrite (s : Sys C T) :
    (drained s).conn.shutWrite = s.conn.shutWrite + (if s.conn.state = .kDisconnecting then 1 else 0) := by
  obtain ⟨s₂, h₂, hw, he⟩ := drained_cases s
  rw [he]
  split
  · rw [shutdownInLoop_shutWrite, hw, h₂]
    rfl
  · rw [h₂]
    rfl

variable [DecidableEq T]

/-- The write takes all that waits. -/
def Drains (s : Sys C T) (w : WriteResult) : Prop :=
  s.conn.isWriting = true ∧ 0 < s.conn.outputBuffer.readableBytes ∧
    w.count s.conn.outputBuffer.readableBytes = s.conn.outputBuffer.readableBytes

instance (s : Sys C T) (w : WriteResult) : Decidable (Drains s w) := inferInstanceAs (Decidable (_ ∧ _ ∧ _))

/-- `handleWrite` drops the write interest when nothing waits any more, and
then issues a half-close that was put off. -/
theorem handleWrite_asks (hwf : s.conn.outputBuffer.Wf) (hA : s.conn.Asks) (hx : handleWrite s w = some s') :
    s'.conn.Asks ∧ (Drains s w → s'.conn.outputBuffer.readable = []) ∧
      s'.conn.shutWrite = s.conn.shutWrite + (if s.conn.state = .kDisconnecting ∧ Drains s w then 1 else 0) := by
  have hlen := Buffer.length_readable hwf
  unfold handleWrite at hx
  split at hx
  · rename_i hw
    rcases write_count w s.conn.outputBuffer.readableBytes with ⟨rfl, hc⟩ | ⟨n, hn, hc⟩
    · have hno : ¬ Drains s .error := fun h => by
        have := h.2.2
        rw [hc] at this
        omega
      rw [if_neg (by rw [hc]; decide)] at hx
      cases hx
      exact ⟨hA, fun h => absurd h hno, by rw [if_neg fun h => hno h.2]; rfl⟩
    · by_cases h0 : (0 : Int) < n
      · have hle : n ≤ s.conn.outputBuffer.readable.length := by omega
        obtain ⟨b, hr, hbwf, hbr⟩ := Buffer.retrieve_spec hwf hle
        rw [hc, if_pos h0, Int.toNat_natCast, hr] at hx
        have hb : b.readableBytes = s.conn.outputBuffer.readableBytes - n := by
          rw [← Buffer.length_readable hbwf, hbr, List.length_drop, hlen]
        have hd : Drains s w ↔ b.readableBytes = 0 := by
          unfold Drains
          rw [hc, hb]
          constructor
          · rintro ⟨-, -, h⟩
            omega
          · intro h
            exact ⟨hw, by omega, by omega⟩
        have hempty : b.readableBytes = 0 → b.readable = [] := fun h =>
          List.eq_nil_of_length_eq_zero (by rw [Buffer.length_readable hbwf]; exact h)
        cases hx
        split
        · rename_i hz
          set s₁ : Sys C T := { s with conn := { s.conn.write s.conn.outputBuffer.readable w with outputBuffer := b } }
          obtain ⟨-, -, hbuf⟩ := drained_spec s₁
          have he : (drained s₁).conn.outputBuffer.readable = [] := by
            rw [hbuf]
            exact hempty hz
          refine ⟨fun h => absurd he h, fun _ => he, ?_⟩
          rw [drained_shutWrite]
          simp only [hd, hz, and_true]
          rfl
        · rename_i hz
          have hno : ¬ Drains s w := fun h => hz (hd.1 h)
          exact ⟨fun _ => hw, fun h => absurd h hno, by rw [if_neg fun h => hno h.2]; rfl⟩
      · have hno : ¬ Drains s w := fun h => by
          have h1 := h.2.1
          have h2 := h.2.2
          rw [hc] at h2
          omega
        rw [hc, if_neg h0] at hx
        cases hx
        exact ⟨hA, fun h => absurd h hno, by rw [if_neg fun h => hno h.2]; rfl⟩
  · rename_i hw
    cases hx
    have hno : ¬ Drains s w := fun h => hw h.1
    exact ⟨hA, fun h => absurd h hno, by rw [if_neg fun h => hno h.2]; rfl⟩

/-! ## Runs -/

/-- The step issues `shutdownWrite`: `shutdownInLoop` is reached, and finds no
write interest. -/
def shuts (s : Sys C T) : Act C T → Prop
  | .loop a _ => (a.starts s.loop = some .shutdownInLoop ∨ a.starts s.loop = some .shutdownAllInLoop) ∧
      s.conn.isWriting = false
  | .shutdown | .shutdownAll => s.conn.state = .kConnected ∧ s.conn.isWriting = false
  | .handleWrite w => s.conn.state = .kDisconnecting ∧ Drains s w
  | _ => False

instance (s : Sys C T) : ∀ a, Decidable (shuts s a)
  | .loop a _ => inferInstanceAs (Decidable ((a.starts s.loop = some .shutdownInLoop ∨
      a.starts s.loop = some .shutdownAllInLoop) ∧ s.conn.isWriting = false))
  | .shutdown | .shutdownAll => inferInstanceAs (Decidable (s.conn.state = .kConnected ∧ s.conn.isWriting = false))
  | .handleWrite w => inferInstanceAs (Decidable (s.conn.state = .kDisconnecting ∧ Drains s w))
  | .send _ _ | .call _ _ | .pushBack _ | .connectEstablished | .setInterest _ | .setWriteCompleteCallback _ =>
    .isFalse id

/-- A message of another thread, which may be empty, is queued or on its way to
the queue. -/
def Waits (s : Sys C T) : Prop := ∃ t, messagesOf t s.loop.queue ++ callOf (s.calls t) ≠ []

instance [Fintype T] (s : Sys C T) : Decidable (Waits s) := inferInstanceAs (Decidable (∃ _ : T, _))

/-- Every message that `send` took, the empty ones too, has been run, and every
byte of them transmitted. -/
def Delivered (s : Sys C T) : Prop :=
  s.conn.transmitted = (s.ran.map Prod.snd).flatten ∧ ∀ who, ranBy s.ran who = s.sent who

/-- No call of the user gives up the write interest while output waits. -/
def Keeps (s : Sys C T) : Act C T → Prop
  | .setInterest i => s.conn.outputBuffer.readable ≠ [] → (s.conn.setInterest i).isWriting = true
  | _ => True

instance (s : Sys C T) : ∀ a, Decidable (Keeps s a)
  | .setInterest i => inferInstanceAs (Decidable (_ ≠ _ → (s.conn.setInterest i).isWriting = true))
  | .loop _ _ | .send _ _ | .shutdown | .shutdownAll | .call _ _ | .pushBack _ | .handleWrite _
  | .connectEstablished | .setWriteCompleteCallback _ => .isTrue trivial

/-- A step that issues `shutdownWrite` finds no message of another thread waiting. -/
def Settled (s : Sys C T) (a : Act C T) : Prop := shuts s a → ¬ Waits s

instance [Fintype T] (s : Sys C T) (a : Act C T) : Decidable (Settled s a) := inferInstanceAs (Decidable (_ → _))

theorem Streamed.delivered_iff (h : Streamed s) :
    Delivered s ↔ s.conn.outputBuffer.readable = [] ∧ ¬ Waits s := by
  constructor
  · rintro ⟨ht, hs⟩
    refine ⟨?_, ?_⟩
    · have := h.stream
      rw [Conn.stream, ← ht] at this
      simpa using this
    · rintro ⟨t, hw⟩
      have := h.order t
      rw [← hs] at this
      exact hw (by simpa using this)
  · rintro ⟨hb, hw⟩
    refine ⟨?_, ?_⟩
    · have := h.stream
      rwa [Conn.stream, hb, List.append_nil] at this
    · intro who
      cases who with
      | none => exact h.own.symm
      | some t =>
        rw [h.order t]
        have : messagesOf t s.loop.queue ++ callOf (s.calls t) = [] := by
          by_contra hne
          exact hw ⟨t, hne⟩
        rw [this, List.append_nil]

theorem Quiet.waits (h : Quiet s s') : Waits s' ↔ Waits s :=
  exists_congr fun t => by rw [h.queue t, h.calls]

/-- What a step does, as far as half-close is concerned. -/
structure Closes (s s' : Sys C T) (shuts : Prop) : Prop where
  asks : s'.conn.Asks
  issued : s.conn.shutWrite < s'.conn.shutWrite ↔ shuts
  empty : shuts → s'.conn.outputBuffer.readable = [] ∧ (Waits s' ↔ Waits s)

/-- A step that issues nothing. -/
theorem Closes.quiet {p : Prop} (hA : s'.conn.Asks) (hs : s'.conn.shutWrite = s.conn.shutWrite) (hp : ¬ p) :
    Closes s s' p :=
  ⟨hA, iff_of_false (by omega) hp, fun h => absurd h hp⟩

theorem Closes.congr {p q : Prop} (h : Closes s s' p) (hpq : p ↔ q) : Closes s s' q :=
  ⟨h.asks, h.issued.trans hpq, fun hq => h.empty (hpq.2 hq)⟩

/-- `shutdownInLoop` or `shutdownAllInLoop`, reached in a state that differs
from `s` in nothing it looks at. -/
theorem Closes.shutdown {s₁ : Sys C T} (hA : s.conn.Asks) (he : s'.conn.events = s.conn.events)
    (hb : s'.conn.outputBuffer = s.conn.outputBuffer) (hw : Waits s₁ ↔ Waits s) (hq : Quiet s₁ s')
    (hs : s'.conn.shutWrite = s.conn.shutWrite + (if s.conn.isWriting then 0 else 1)) :
    Closes s s' (s.conn.isWriting = false) where
  asks hne := by
    rw [hb] at hne
    have := hA hne
    rwa [Conn.isWriting, ← he] at this
  issued := by
    rw [hs]
    cases s.conn.isWriting <;> simp
  empty h := ⟨by rw [hb]; exact hA.empty h, hq.waits.trans hw⟩

variable [DecidableEq C] {self : C}

theorem loop_closes (h : Streamed s) (hA : s.conn.Asks) {a : EventLoop.Act C (Functor T) T}
    (ha : (machine self).enabled s (.loop a w)) (hx : (machine self).exec s (.loop a w) = some s') :
    Closes s s' (shuts s (.loop a w)) := by
  obtain ⟨loop, hl, -, hq⟩ := EventLoop.step_queue h.entered ha.1
  simp only [machine] at hx
  rw [hl, some_bind] at hx
  -- a functor that carries no message leaves the waiting messages as they are
  have hw (hno : ∀ t, messagesOf t (a.starts s.loop).toList = []) : Waits { s with loop := loop } ↔ Waits s := by
    refine exists_congr fun t => ?_
    have := congrArg (messagesOf t) hq
    rw [messagesOf_append, messagesOf_append, messagesOf_foreign ha.2, List.append_nil, hno, List.nil_append] at this
    rw [this]
  cases hf : a.starts s.loop with
  | none =>
    rw [hf] at hx
    cases hx
    exact .quiet hA rfl (by simp [shuts, hf])
  | some f =>
    rw [hf] at hx hw
    cases f with
    | sendInLoop u message =>
      obtain ⟨hA', hs⟩ := sendInLoop_asks (s := { s with loop := loop, ran := s.ran ++ [(some u, message)] }) hA hx
      exact .quiet hA' hs (by simp [shuts, hf])
    | shutdownInLoop =>
      cases hx
      obtain ⟨hq, -, hb⟩ := shutdownInLoop_spec { s with loop := loop }
      refine (Closes.shutdown hA (shutdownInLoop_events { s with loop := loop }) hb (hw fun t => rfl) hq
        (shutdownInLoop_shutWrite _)).congr ?_
      simp [shuts, hf]
    | shutdownAllInLoop =>
      cases hx
      obtain ⟨hq, -, hb⟩ := shutdownAllInLoop_spec { s with loop := loop }
      refine (Closes.shutdown hA (shutdownAllInLoop_events { s with loop := loop }) hb (hw fun t => rfl) hq
        (shutdownAllInLoop_shutWrite _)).congr ?_
      simp [shuts, hf]
    | writeCompleteCallback =>
      cases hx
      exact .quiet hA rfl (by simp [shuts, hf])
    | other n =>
      cases hx
      exact .quiet hA rfl (by simp [shuts, hf])

theorem step_closes (h : Streamed s) (hA : s.conn.Asks) {a : Act C T} (ha : (machine self).enabled s a)
    (hK : Keeps s a) (hx : (machine self).exec s a = some s') : Closes s s' (shuts s a) := by
  cases a with
  | loop a w => exact loop_closes h hA ha hx
  | send message w =>
    simp only [machine] at hx
    split at hx
    · obtain ⟨hA', hs⟩ :=
        sendInLoop_asks (s := { record s none message with ran := s.ran ++ [(none, message)] }) hA hx
      exact .quiet hA' hs id
    · cases hx
      exact .quiet hA rfl id
  | shutdown =>
    cases hx
    split
    · rename_i hc
      set s₁ : Sys C T := { s with conn := { s.conn with state := .kDisconnecting } }
      obtain ⟨hq, -, hb⟩ := shutdownInLoop_spec s₁
      refine (Closes.shutdown hA (shutdownInLoop_events s₁) hb (Quiet.conn s _).waits hq
        (shutdownInLoop_shutWrite s₁)).congr ?_
      simp [shuts, hc]
    · rename_i hc
      exact .quiet hA rfl fun h => hc h.1
  | shutdownAll =>
    cases hx
    split
    · rename_i hc
      set s₁ : Sys C T := { s with conn := { s.conn with state := .kDisconnecting } }
      obtain ⟨hq, -, hb⟩ := shutdownAllInLoop_spec s₁
      refine (Closes.shutdown hA (shutdownAllInLoop_events s₁) hb (Quiet.conn s _).waits hq
        (shutdownAllInLoop_shutWrite s₁)).congr ?_
      simp [shuts, hc]
    · rename_i hc
      exact .quiet hA rfl fun h => hc h.1
  | call t c =>
    cases hx
    unfold call
    split
    · cases c <;> exact .quiet hA rfl id
    · exact .quiet hA rfl id
  | pushBack t =>
    obtain ⟨c, -, hx⟩ := Option.bind_eq_some_iff.1 hx
    obtain ⟨loop, -, hx⟩ := Option.bind_eq_some_iff.1 hx
    cases hx
    exact .quiet hA rfl id
  | handleWrite w =>
    obtain ⟨hA', he, hs⟩ := handleWrite_asks h.wf hA hx
    obtain ⟨s'', hx', hq, -⟩ := handleWrite_spec h.wf w
    cases hx'.symm.trans hx
    refine ⟨hA', ?_, fun hd => ⟨he hd.2, hq.waits⟩⟩
    rw [hs]
    split
    · rename_i hd
      exact iff_of_true (Nat.lt_succ_self _) hd
    · rename_i hd
      exact iff_of_false (Nat.lt_irrefl _) hd
  | connectEstablished =>
    obtain ⟨_, -, hx⟩ := Option.bind_eq_some_iff.1 hx
    cases hx
    refine .quiet ?_ rfl id
    intro hne
    rw [isWriting_enableReading]
    exact hA hne
  | setInterest i =>
    cases hx
    exact .quiet hK rfl id
  | setWriteCompleteCallback on =>
    cases hx
    exact .quiet hA rfl id

/-- In a run whose calls keep the write interest: `shutdownWrite` is issued
only when everything that `send` took has been transmitted, exactly when no
step issues it while a message of another thread waits. That is exact for
messages: an empty one that is overtaken costs no byte. -/
theorem half_close_iff {tr : List (Sys C T × Act C T)} (h : Run (machine self) tr s) (hK : Meets Keeps tr) :
    (∀ p ∈ tr, ∀ t, (machine self).exec p.1 p.2 = some t → p.1.conn.shutWrite < t.conn.shutWrite → Delivered t) ↔
      Meets Settled tr := by
  have main : ∀ p ∈ tr, ∀ t, (machine self).exec p.1 p.2 = some t → Closes p.1 t (shuts p.1 p.2) ∧ Streamed t := by
    intro p hp t hx
    obtain ⟨pre, _, hr, hpre, ha, -⟩ := h.taken hp
    have hI : Streamed p.1 ∧ p.1.conn.Asks :=
      Run.inv_if (fun s => Streamed s ∧ s.conn.Asks) Keeps ⟨streamed_init, fun h => absurd rfl h⟩
        (fun s a s' ⟨hS, hA⟩ ha hk hx => by
          obtain ⟨s'', hx', hS'⟩ := step_streamed hS ha
          rw [hx] at hx'; cases hx'
          exact ⟨hS', (step_closes hS hA ha hk hx).asks⟩) hr fun q hq => hK q (hpre.subset hq)
    obtain ⟨t', hx', hS⟩ := step_streamed hI.1 ha
    rw [hx] at hx'; cases hx'
    exact ⟨step_closes hI.1 hI.2 ha (hK p hp) hx, hS⟩
  constructor
  · intro hD p hp hs
    obtain ⟨_, t, -, -, -, hx⟩ := h.taken hp
    obtain ⟨hC, hS⟩ := main p hp t hx
    exact fun hw => (hS.delivered_iff.1 (hD p hp t hx (hC.issued.2 hs))).2 ((hC.empty hs).2.2 hw)
  · intro hG p hp t hx hlt
    obtain ⟨hC, hS⟩ := main p hp t hx
    have hs := hC.issued.1 hlt
    obtain ⟨he, hw⟩ := hC.empty hs
    exact hS.delivered_iff.2 ⟨he, fun h => hG p hp hs (hw.1 h)⟩

/-- Another thread sends and then shuts down; the first write is cut short,
and the half-close waits for the second. -/
theorem half_close_iff_thread : ∃ tr s, Run (machine (C := Unit) (T := Unit) ()) tr s ∧ s.conn.shutWrite = 1 ∧
    s.conn.transmitted = [3, 4] ∧
    ∀ p ∈ tr, ∀ t, (machine ()).exec p.1 p.2 = some t → p.1.conn.shutWrite < t.conn.shutWrite → Delivered t := by
  obtain ⟨r, hr, hs, ht, hK, hG⟩ : ∃ r ∈ (machine (C := Unit) (T := Unit) ()).play {}
      [.connectEstablished, .call () (.send [3, 4]), .pushBack (), .loop (.wakeup ()) .error, .call () .shutdown,
        .pushBack (), .loop (.wakeup ()) .error, .loop .advance .error, .loop .advance .error,
        .loop (.poll [.wakeup, .channel ()]) .error, .loop .advance .error, .loop .advance .error,
        .loop .advance (.wrote 1), .loop .advance .error, .loop .advance .error, .loop .advance .error,
        .handleWrite (.wrote 1)],
      r.2.conn.shutWrite = 1 ∧ r.2.conn.transmitted = [3, 4] ∧ Meets Keeps r.1 ∧ Meets Settled r.1 := by
    decide +kernel
  have hrun := Machine.play_steps hr
  exact ⟨r.1, r.2, hrun, hs, ht, (half_close_iff hrun hK).2 hG⟩

/-- Another thread sends, and the loop thread shuts down before it has run the
functor: the half-close is issued with the message in the queue. -/
theorem half_close_overtakes : ∃ tr s, Run (machine (C := Unit) (T := Unit) ()) tr s ∧
    tr.map (fun p => p.1.conn.shutWrite) = [0, 0, 0, 0] ∧ s.conn.shutWrite = 1 ∧ s.sent (some ()) = [[1]] ∧
    s.conn.transmitted = [] ∧ s.loop.pendingFunctors = [.sendInLoop () [1]] ∧ ¬ Delivered s := by
  obtain ⟨r, hr, h0, hs, hm, ht, hp, hran⟩ : ∃ r ∈ (machine (C := Unit) (T := Unit) ()).play {}
      [.connectEstablished, .call () (.send [1]), .pushBack (), .shutdown],
      r.1.map (fun p => p.1.conn.shutWrite) = [0, 0, 0, 0] ∧ r.2.conn.shutWrite = 1 ∧
        r.2.sent (some ()) = [[1]] ∧ r.2.conn.transmitted = [] ∧
        r.2.loop.pendingFunctors = [.sendInLoop () [1]] ∧ ranBy r.2.ran (some ()) = [] := by decide +kernel
  refine ⟨r.1, r.2, Machine.play_steps hr, h0, hs, hm, ht, hp, ?_⟩
  intro h
  have := h.2 (some ())
  rw [hm, hran] at this
  cases this

/-! ## Teardown -/

/-- `connectDestroyed`, up to `removeChannel`; its callback finds the
connection disconnected. -/
def connectDestroyed (s : Sys C T) : Option (Sys C T) := do
  assert (s.conn.state = .kConnected ∨ s.conn.state = .kDisconnecting)
  let conn := { s.conn with state := .kDisconnected }
  return { s with conn := conn.setInterest .disableAll }

/-- What `TcpServer::removeConn` and `~TcpClient` do with a connection. -/
def tearDown (self : C) (s : Sys C T) : Option (Sys C T) := do
  let s ← (machine self).exec s .shutdownAll
  connectDestroyed s

/-- In any state that a connection can be in when its own loop thread tears it
down: when its channel leaves the poller everything that `send` took has been
transmitted, exactly when no output was buffered and no message of another
thread, empty or not, waited. -/
theorem teardown_delivered_iff {tr : List (Sys C T × Act C T)} (h : Run (machine self) tr s)
    (hc : s.conn.state = .kConnected ∨ s.conn.state = .kDisconnecting) :
    ∃ t, tearDown self s = some t ∧
      (Delivered t ↔ s.conn.outputBuffer.readableBytes = 0 ∧ ¬ Waits s) := by
  have hS : Streamed s := h.inv Streamed streamed_init fun s a s' h ha hx => by
    obtain ⟨s'', hx', h'⟩ := step_streamed h ha
    rw [hx] at hx'; cases hx'; exact h'
  -- `shutdownAll` moves no byte and runs no message
  obtain ⟨s₁, hx, hq, hb, ht, hstate⟩ : ∃ s₁, (machine self).exec s .shutdownAll = some s₁ ∧ Quiet s s₁ ∧
      s₁.conn.outputBuffer = s.conn.outputBuffer ∧ s₁.conn.transmitted = s.conn.transmitted ∧
      s₁.conn.state = .kDisconnecting := by
    refine ⟨_, rfl, ?_⟩
    split
    · set s₀ : Sys C T := { s with conn := { s.conn with state := .kDisconnecting } }
      obtain ⟨hq, ht, hb⟩ := shutdownAllInLoop_spec s₀
      exact ⟨(Quiet.conn s _).trans hq, hb, ht, shutdownAllInLoop_state s₀⟩
    · rename_i hne
      exact ⟨.refl s, rfl, rfl, hc.resolve_left hne⟩
  set conn : Conn := { s₁.conn with state := .kDisconnected }
  refine ⟨{ s₁ with conn := conn.setInterest .disableAll }, ?_, ?_⟩
  · unfold tearDown connectDestroyed
    rw [hx, some_bind, assert_bind (.inr hstate)]
    rfl
  · have hq' : Quiet s { s₁ with conn := conn.setInterest .disableAll } := hq.trans (.conn s₁ _)
    have hS' := hS.quiet hq' (show Buffer.Wf s₁.conn.outputBuffer from hb ▸ hS.wf)
      (show s₁.conn.transmitted ++ s₁.conn.outputBuffer.readable = _ by rw [ht, hb]; rfl)
    rw [hS'.delivered_iff, hq'.waits, ← Buffer.length_readable hS.wf, List.length_eq_zero_iff]
    exact and_congr_left fun _ => by rw [← hb]; rfl

/-- A connection with nothing pending is torn down. -/
theorem teardown_delivered_iff_idle : ∃ s t, tearDown (C := Unit) (T := Unit) () s = some t ∧
    s.sent none = [[1, 2]] ∧ Delivered t := by
  obtain ⟨r, hr, hc, hm, hb, hw⟩ : ∃ r ∈ (machine (C := Unit) (T := Unit) ()).play {}
      [.connectEstablished, .send [1, 2] (.wrote 2)],
      r.2.conn.state = .kConnected ∧ r.2.sent none = [[1, 2]] ∧ r.2.conn.outputBuffer.readableBytes = 0 ∧
        ¬ Waits r.2 := by decide +kernel
  obtain ⟨t, ht, hiff⟩ := teardown_delivered_iff (Machine.play_steps hr) (.inl hc)
  exact ⟨r.2, t, ht, hm, hiff.2 ⟨hb, hw⟩⟩

/-- The reader is slow: the loop thread sends, the write takes one byte, and
the connection is torn down with the other in its buffer. -/
theorem teardown_loses_output : ∃ tr s, ∃ t ∈ tearDown () s, Run (machine (C := Unit) (T := Unit) ()) tr s ∧
    t.sent none = [[1, 2]] ∧ t.conn.transmitted = [1] ∧ t.conn.outputBuffer.readable = [2] ∧ ¬ Delivered t := by
  obtain ⟨r, hr, t, ht, hm, hsent, hb, hran⟩ : ∃ r ∈ (machine (C := Unit) (T := Unit) ()).play {}
      [.connectEstablished, .send [1, 2] (.wrote 1)], ∃ t ∈ tearDown () r.2,
      t.sent none = [[1, 2]] ∧ t.conn.transmitted = [1] ∧ t.conn.outputBuffer.readable = [2] ∧
        (t.ran.map Prod.snd).flatten = [1, 2] := by decide +kernel
  refine ⟨r.1, r.2, t, ht, Machine.play_steps hr, hm, hsent, hb, ?_⟩
  intro h
  have := h.1
  rw [hsent, hran] at this
  cases this

end Cppnetool.TcpConnection
