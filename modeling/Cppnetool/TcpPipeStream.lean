import Cppnetool.TcpPipe
/-!
# The stream from end to end

What callbacks have taken out of the input buffer of one end, what is in that
buffer, on the wire and in the output buffer of the other end make up, in this
order, the messages for which `sendInLoop` has run there. Where the end of the
stream is read, everything that `send` accepted has come, unless output was
given up or overtaken.
-/
open Lib

namespace Cppnetool.TcpPipe

open TcpConnection (Sys Streamed Delivered Finished Keeps Settled)

variable {C T : Type} {s s' : St C T} {i j : Side} {e e' : End C T} {tr : List (St C T × Act C T)}

/-! ## The two ends -/

@[simp] theorem other_other : i.other.other = i := by cases i <;> rfl

@[simp] theorem other_ne : i.other ≠ i := by cases i <;> decide

theorem eq_or_other (i j : Side) : j = i ∨ j = i.other := by cases i <;> cases j <;> simp [Side.other]

/-- What one end has read and what is on the wire is what the other has
written; and where the end of it has been read nothing is left. -/
structure Joined (e peer : End C T) : Prop where
  wire : peer.received ++ e.wire = e.sys.conn.transmitted
  eof : 0 < peer.eof → e.wire = [] ∧ 0 < e.sys.conn.shutWrite ∨ 0 < peer.sys.conn.shutRead

/-- The output side writes, and what it has written goes on the wire. -/
theorem joined_output {peer : End C T} (J : Joined e peer) (J' : Joined peer e) {sys : Sys C T} {data : List Byte}
    (hd : sys.conn.transmitted = e.sys.conn.transmitted ++ data) (hnone : 0 < e.sys.conn.shutWrite → data = [])
    (hw : e.sys.conn.shutWrite ≤ sys.conn.shutWrite) (hr : e.sys.conn.shutRead ≤ sys.conn.shutRead) :
    Joined { e with sys, wire := e.wire ++ sys.conn.transmitted.drop e.sys.conn.transmitted.length } peer ∧
      Joined peer { e with sys, wire := e.wire ++ sys.conn.transmitted.drop e.sys.conn.transmitted.length } := by
  rw [hd, List.drop_left]
  refine ⟨⟨?_, fun h => ?_⟩, J'.wire, fun h => ?_⟩
  · rw [← List.append_assoc, J.wire, hd]
  · refine (J.eof h).imp_left fun ⟨h1, h2⟩ => ⟨?_, Nat.lt_of_lt_of_le h2 hw⟩
    rw [h1, hnone h2]
    rfl
  · exact (J'.eof h).imp_right fun h => Nat.lt_of_lt_of_le h hr

variable [DecidableEq T]

/-- What holds of an end by itself. -/
structure Sound (e : End C T) : Prop where
  streamed : TcpConnection.Streamed e.sys
  closing : TcpConnection.Closing e.sys → e.sys.conn.Ended
  wf : e.inputBuffer.Wf
  retrieved : e.retrieved ++ e.inputBuffer.readable = e.received

structure Piped (s : St C T) : Prop where
  sound : ∀ i, Sound (s i)
  joined : ∀ i, Joined (s i) (s i.other)

/-- The ends as they are after a step of one of them, and of what is on the
other one's wire. -/
theorem Piped.step {d : End C T} (he : Sound e) (he' : Sound d) (h : Joined e d) (h' : Joined d e) (hi : s i = e)
    (ho : s i.other = d) : Piped s where
  sound j := by
    rcases eq_or_other i j with rfl | rfl
    · rw [hi]
      exact he
    · rw [ho]
      exact he'
  joined j := by
    rcases eq_or_other i j with rfl | rfl
    · rw [hi, ho]
      exact h
    · rw [ho, other_other, hi]
      exact h'

/-- A step of one end. -/
theorem Piped.update (P : Piped s) (i : Side) (he : Sound e) (h : Joined e (s i.other)) (h' : Joined (s i.other) e) :
    Piped (Function.update s i e) :=
  .step he (P.sound i.other) h h' (Function.update_self ..) (Function.update_of_ne other_ne ..)

/-- A step of end `i` that leaves its stream alone. -/
theorem Piped.same (P : Piped s) (S : Sound e) (hwire : e.wire = (s i).wire)
    (hr : e.received = (s i).received) (heof : e.eof = (s i).eof)
    (hconn : e.sys.conn.transmitted = (s i).sys.conn.transmitted ∧ e.sys.conn.shutWrite = (s i).sys.conn.shutWrite ∧
      e.sys.conn.shutRead = (s i).sys.conn.shutRead) : Piped (Function.update s i e) := by
  have J := P.joined i
  have J' := P.joined i.other
  rw [other_other] at J'
  refine P.update i S ⟨?_, ?_⟩ ⟨?_, ?_⟩
  · rw [hwire, hconn.1]
    exact J.wire
  · rw [hwire, hconn.2.1]
    exact J.eof
  · rw [hr]
    exact J'.wire
  · rw [heof, hconn.2.2]
    exact J'.eof

/-- The half-close of a connection that is gone is not on its way again. -/
theorem connectDestroyed_spec {sys sys' : Sys C T} (hx : TcpConnection.connectDestroyed sys = some sys') :
    TcpConnection.Quiet sys sys' ∧ sys'.conn.Ended ∧ sys'.conn.outputBuffer = sys.conn.outputBuffer ∧
      sys'.conn.transmitted = sys.conn.transmitted ∧ sys'.conn.shutWrite = sys.conn.shutWrite ∧
      sys'.conn.shutRead = sys.conn.shutRead := by
  obtain ⟨_, -, hx⟩ := Option.bind_eq_some_iff.1 hx
  cases hx
  exact ⟨.conn sys _, .inr rfl, rfl, rfl, rfl, rfl⟩

/-- `disableAll` is all that `handleClose` does to the output side. -/
theorem sound_handleClose (S : Sound e) : Sound (handleClose e) where
  streamed := S.streamed.quiet (.conn e.sys _) S.streamed.wf rfl
  closing := S.closing
  wf := S.wf
  retrieved := S.retrieved

theorem handleRead_spec (S : Sound e) (r : Except Nat (List Byte)) : ∃ e', handleRead e r = some e' ∧ Sound e' ∧
    e'.sys.conn.transmitted = e.sys.conn.transmitted ∧ e'.sys.conn.shutWrite = e.sys.conn.shutWrite ∧
    e'.sys.conn.shutRead = e.sys.conn.shutRead ∧ e'.sys.conn.outputBuffer = e.sys.conn.outputBuffer ∧
    e'.wire = e.wire ∧ (e'.sys = e.sys ∨ r = .ok [] ∧ TcpConnection.Quiet e.sys e'.sys ∧
      (e.sys.conn.Ended → e'.sys.conn.Ended)) ∧
    match r with
    | .error _ => e'.received = e.received ∧ e'.eof = e.eof
    | .ok [] => e'.received = e.received
    | .ok data => e'.received = e.received ++ data ∧ e'.eof = e.eof := by
  obtain ⟨n, b, hb, hwf, h⟩ := Buffer.readFd_spec S.wf r
  unfold handleRead
  rw [hb, some_bind]
  cases r with
  | error err =>
    obtain ⟨rfl, rfl⟩ := h
    exact ⟨_, rfl, ⟨S.streamed, S.closing, hwf, S.retrieved⟩, rfl, rfl, rfl, rfl, rfl, .inl rfl, rfl, rfl⟩
  | ok data =>
    obtain ⟨rfl, hr⟩ := h
    cases data with
    | nil =>
      refine ⟨_, rfl, sound_handleClose ⟨S.streamed, S.closing, hwf, ?_⟩, rfl, rfl, rfl, rfl, rfl,
        .inr ⟨rfl, .conn e.sys _, id⟩, rfl⟩
      rw [hr, List.append_nil]
      exact S.retrieved
    | cons x data =>
      refine ⟨_, if_pos (Nat.succ_pos _), ⟨S.streamed, S.closing, hwf, ?_⟩, rfl, rfl, rfl, rfl, rfl, .inl rfl, rfl,
        rfl⟩
      rw [hr, ← List.append_assoc, S.retrieved]

/-- The write interest follows the output, and the half-close comes after it. -/
structure Ends (sys : Sys C T) : Prop where
  asks : sys.conn.Asks
  finished : 0 < sys.conn.shutWrite → Finished sys

/-- The connection is closed with no output left. -/
theorem Ends.quiet {sys sys' : Sys C T} (E : Ends sys) (hq : TcpConnection.Quiet sys sys')
    (hb : sys'.conn.outputBuffer = sys.conn.outputBuffer) (ht : sys'.conn.transmitted = sys.conn.transmitted)
    (hw : sys'.conn.shutWrite = sys.conn.shutWrite) (he : sys.conn.Ended → sys'.conn.Ended)
    (hempty : sys.conn.outputBuffer.readable = []) : Ends sys' := by
  refine ⟨fun hne => absurd (hb ▸ hempty) hne, fun hpos => ?_⟩
  have F := E.finished (hw ▸ hpos)
  refine ⟨he F.ended, ?_, fun who => ?_⟩
  · rw [ht, hq.ran]
    exact F.delivered.1
  · rw [hq.ran, hq.sent]
    exact F.delivered.2 who

variable [DecidableEq C] {self : C} {a : Act C T}

/-! ## Steps -/

theorem piped_init : Piped ((machine (T := T) self).init) where
  sound _ := ⟨TcpConnection.streamed_init, by
    rintro (h | h | ⟨t, h | h⟩ | h)
    · simp [machine, EventLoop.St.queue, EventLoop.Pc.todo] at h
    · simp [machine, EventLoop.St.queue, EventLoop.Pc.todo] at h
    · cases h
    · cases h
    · exact absurd h (Nat.lt_irrefl _), Buffer.new_wf, by simp [machine]⟩
  joined _ := ⟨rfl, fun h => absurd h (Nat.lt_irrefl _)⟩

theorem output_piped (P : Piped s) {a : TcpConnection.Act C T} (ha : enabled self s (.output i a)) :
    ∃ s', exec self s (.output i a) = some s' ∧ Piped s' := by
  obtain ⟨sys, hx, hS⟩ := TcpConnection.step_streamed (P.sound i).streamed ha.1
  have M := TcpConnection.step_moves (P.sound i).streamed.entered (P.sound i).closing ha.1 hx
  obtain ⟨data, hd, hnone⟩ := M.transmitted
  have hjoined := P.joined i.other
  rw [other_other] at hjoined
  obtain ⟨J, J'⟩ := joined_output (P.joined i) hjoined hd (fun h => hnone (ha.2 h)) M.shutWrite M.shutRead
  simp only [exec]
  rw [hx, some_bind]
  refine ⟨_, rfl, P.update i ⟨hS, fun h => ?_, (P.sound i).wf, (P.sound i).retrieved⟩ J J'⟩
  exact (M.closing h).elim (fun h => M.ended ((P.sound i).closing h)) id

/-- What is read leaves the wire. -/
theorem handleRead_piped (P : Piped s) {r : Except Nat (List Byte)} (ha : enabled self s (.handleRead i r)) :
    ∃ s', exec self s (.handleRead i r) = some s' ∧ Piped s' := by
  obtain ⟨e, hx, S, ht, hw, hr, -, hwire, -, h⟩ := handleRead_spec (P.sound i) r
  have J := P.joined i
  have J' := P.joined i.other
  rw [other_other] at J'
  simp only [exec]
  rw [hx, some_bind]
  have hother : Sound (s i.other) := P.sound i.other
  cases r with
  | error err =>
    refine ⟨_, rfl, .step (i := i) (d := s i.other) S hother ⟨?_, ?_⟩ ⟨?_, ?_⟩
      ((Function.update_of_ne other_ne.symm ..).trans (Function.update_self ..)) (Function.update_self ..)⟩
    · rw [hwire, ht]
      exact J.wire
    · rw [hwire, hw]
      exact J.eof
    · rw [h.1]
      exact J'.wire
    · rw [h.2, hr]
      exact J'.eof
  | ok data =>
    set peer : End C T := { s i.other with wire := (s i.other).wire.drop data.length }
    have hpeer : Sound peer := ⟨hother.streamed, hother.closing, hother.wf, hother.retrieved⟩
    refine ⟨_, rfl, .step (i := i) (d := peer) S hpeer ⟨?_, ?_⟩ ⟨?_, ?_⟩
      ((Function.update_of_ne other_ne.symm ..).trans (Function.update_self ..)) (Function.update_self ..)⟩
    · rw [hwire, ht]
      exact J.wire
    · rw [hwire, hw]
      exact J.eof
    · cases data with
      | nil =>
        rw [h]
        exact J'.wire
      | cons x data =>
        obtain ⟨rest, hrest⟩ := ha.2.1
        rw [h.1, List.append_assoc]
        refine Eq.trans ?_ J'.wire
        change (s i).received ++ ((x :: data) ++ (s i.other).wire.drop (x :: data).length) = _
        rw [← hrest, List.drop_left]
    · cases data with
      | nil =>
        intro _
        rw [hr]
        exact ha.2
      | cons x data =>
        rw [h.2, hr]
        intro heof
        refine (J'.eof heof).imp_left fun ⟨h1, h2⟩ => ⟨?_, h2⟩
        change List.drop _ (s i.other).wire = []
        rw [h1, List.drop_nil]

theorem retrieve_piped (P : Piped s) {len : Nat} (ha : enabled self s (.retrieve i len)) :
    ∃ s', exec self s (.retrieve i len) = some s' ∧ Piped s' := by
  have S := P.sound i
  have hlen : len ≤ (s i).inputBuffer.readable.length := by
    rw [Buffer.length_readable S.wf]
    exact ha.2
  obtain ⟨b, hb, hwf, hr⟩ := Buffer.retrieve_spec S.wf hlen
  simp only [exec]
  rw [hb, some_bind]
  refine ⟨_, rfl, P.same ⟨S.streamed, S.closing, hwf, ?_⟩ rfl rfl rfl ⟨rfl, rfl, rfl⟩⟩
  rw [hr, List.append_assoc, List.take_append_drop, S.retrieved]

/-- No step fails. -/
theorem step_piped (P : Piped s) (ha : enabled self s a) : ∃ s', exec self s a = some s' ∧ Piped s' := by
  cases a with
  | output i a => exact output_piped P ha
  | handleRead i r => exact handleRead_piped P ha
  | hangup i => exact ⟨_, rfl, P.same (sound_handleClose (P.sound i)) rfl rfl rfl ⟨rfl, rfl, rfl⟩⟩
  | retrieve i len => exact retrieve_piped P ha
  | connectDestroyed i =>
    have S := P.sound i
    obtain ⟨sys, hx⟩ : ∃ sys, TcpConnection.connectDestroyed (s i).sys = some sys :=
      ⟨_, by unfold TcpConnection.connectDestroyed; rw [assert_bind ha.2]; rfl⟩
    obtain ⟨hq, hended, hb, ht, hw, hr⟩ := connectDestroyed_spec hx
    simp only [exec]
    rw [hx, some_bind]
    refine ⟨_, rfl, P.same ⟨S.streamed.quiet hq (hb ▸ S.streamed.wf) ?_, fun _ => hended, S.wf, S.retrieved⟩ rfl rfl rfl
      ⟨ht, hw, hr⟩⟩
    rw [TcpConnection.Conn.stream, ht, hb]
    rfl

theorem piped_run (h : Run (machine self) tr s) : Piped s :=
  h.inv Piped piped_init fun _ _ _ P ha hx => by
    obtain ⟨s'', hx', P'⟩ := step_piped P ha
    cases hx'.symm.trans hx
    exact P'

/-- No call fails at either end, where `connectEstablished` and
`connectDestroyed` are called in the states that they assert and no more is
retrieved than there is; and at every moment the messages that one end has sent
are, in order, what the other has taken, what it has in its buffer, what is on
the wire, and what is still to be written. -/
theorem end_to_end (self : C) : (machine (T := T) self).Safe ∧ ∀ tr s, Run (machine (T := T) self) tr s → ∀ i,
    (s i.other).retrieved ++ (s i.other).inputBuffer.readable ++ (s i).wire ++ (s i).sys.conn.outputBuffer.readable =
      ((s i).sys.ran.map Prod.snd).flatten ∧
    TcpConnection.ranBy (s i).sys.ran none = (s i).sys.sent none ∧
    ∀ t, TcpConnection.ranBy (s i).sys.ran (some t) <+: (s i).sys.sent (some t) := by
  refine ⟨Machine.safe_of_inv Piped piped_init fun s a P ha => step_piped P ha, fun tr s h i => ?_⟩
  have P := piped_run h
  have S := (P.sound i).streamed
  refine ⟨?_, S.own.symm, fun t => ⟨_, (S.order t).symm⟩⟩
  rw [(P.sound i.other).retrieved, (P.joined i).wire]
  exact S.stream

/-- One byte in each place: taken, read, on the wire twice, and not yet written. -/
theorem end_to_end_cut : ∃ tr s, Run (machine (C := Unit) (T := Unit) ()) tr s ∧
    (s .server).retrieved = [1] ∧ (s .server).inputBuffer.readable = [2] ∧ (s .client).wire = [3, 4] ∧
    (s .client).sys.conn.outputBuffer.readable = [5] ∧
    (s .server).retrieved ++ (s .server).inputBuffer.readable ++ (s .client).wire ++
      (s .client).sys.conn.outputBuffer.readable = ((s .client).sys.ran.map Prod.snd).flatten := by
  obtain ⟨r, hr, h1, h2, h3, h4⟩ : ∃ r ∈ (machine (C := Unit) (T := Unit) ()).play (machine ()).init
      [.output .client .connectEstablished, .output .server .connectEstablished,
        .output .client (.send [1, 2, 3] (.wrote 2)), .output .client (.send [4, 5] .error),
        .output .client (.loop .advance .error), .output .client (.loop .advance .error),
        .output .client (.loop (.poll [.channel ()]) .error), .output .client (.loop .advance .error),
        .output .client (.handleWrite (.wrote 2)), .output .server (.loop .advance .error),
        .output .server (.loop .advance .error), .output .server (.loop (.poll [.channel ()]) .error),
        .output .server (.loop .advance .error), .handleRead .server (.ok [1, 2]), .retrieve .server 1],
      (r.2 .server).retrieved = [1] ∧ (r.2 .server).inputBuffer.readable = [2] ∧ (r.2 .client).wire = [3, 4] ∧
        (r.2 .client).sys.conn.outputBuffer.readable = [5] := by decide +kernel
  have hrun := Machine.play_steps hr
  exact ⟨r.1, r.2, hrun, h1, h2, h3, h4, ((end_to_end ()).2 r.1 r.2 hrun .client).1⟩

/-! ## The end of the stream -/

/-- No output of end `i` is given up: it is torn down with an empty output
buffer only, and its write interest is kept while output waits. And its
half-close does not overtake a message of another thread. -/
def Graceful (i : Side) (s : St C T) : Act C T → Prop
  | .output j a => j = i → Keeps (s i).sys a ∧ Settled (s i).sys a
  | .handleRead j (.ok []) | .hangup j | .connectDestroyed j => j = i → (s i).sys.conn.outputBuffer.readable = []
  | .handleRead _ _ | .retrieve _ _ => True

instance [Fintype T] (i : Side) (s : St C T) : ∀ a, Decidable (Graceful i s a)
  | .output _ _ => inferInstanceAs (Decidable (_ → _))
  | .handleRead _ (.ok []) | .hangup _ | .connectDestroyed _ => inferInstanceAs (Decidable (_ → _))
  | .handleRead _ (.ok (_ :: _)) | .handleRead _ (.error _) | .retrieve _ _ => .isTrue trivial

theorem Ends.output {sys sys' : Sys C T} (E : Ends sys) (S : Streamed sys)
    (hC : TcpConnection.Closing sys → sys.conn.Ended) {a : TcpConnection.Act C T}
    (ha : (TcpConnection.machine self).enabled sys a) (hG : Keeps sys a ∧ Settled sys a)
    (hx : (TcpConnection.machine self).exec sys a = some sys') : Ends sys' := by
  have hc := TcpConnection.step_closes S E.asks ha hG.1 hx
  have M := TcpConnection.step_moves S.entered hC ha hx
  obtain ⟨_, hx', S'⟩ := TcpConnection.step_streamed S ha
  cases hx'.symm.trans hx
  refine ⟨hc.asks, fun hpos => ?_⟩
  by_cases hlt : sys.conn.shutWrite < sys'.conn.shutWrite
  · have hs := hc.issued.1 hlt
    obtain ⟨hempty, hwaits⟩ := hc.empty hs
    exact ⟨M.issues hlt, S'.delivered_iff.2 ⟨hempty, fun h => hG.2 hs (hwaits.1 h)⟩⟩
  · have hpos : 0 < sys.conn.shutWrite := Nat.lt_of_lt_of_le hpos (Nat.not_lt.1 hlt)
    exact (E.finished hpos).step S S' M

theorem step_ends (P : Piped s) (E : Ends (s i).sys) (ha : enabled self s a) (hG : Graceful i s a)
    (hx : exec self s a = some s') : Ends (s' i).sys := by
  -- a step of the other end
  have hother {j : Side} {e : End C T} (hj : j ≠ i) : (Function.update s j e i).sys = (s i).sys := by
    rw [Function.update_of_ne hj.symm]
  cases a with
  | output j a =>
    obtain ⟨sys, hsys, hx⟩ := Option.bind_eq_some_iff.1 hx
    cases hx
    by_cases hj : j = i
    · subst hj
      rw [Function.update_self]
      exact E.output (P.sound j).streamed (P.sound j).closing ha.1 (hG rfl) hsys
    · rw [hother hj]
      exact E
  | handleRead j r =>
    obtain ⟨e, he, S, ht, hw, hr, hb, hwire, hsys, -⟩ := handleRead_spec (P.sound j) r
    obtain ⟨_, he', hx⟩ := Option.bind_eq_some_iff.1 hx
    cases he'.symm.trans he
    cases hx
    by_cases hj : j = i
    · subst hj
      rw [Function.update_of_ne other_ne.symm, Function.update_self]
      rcases hsys with hsys | ⟨rfl, hq, hended⟩
      · rw [hsys]
        exact E
      · exact E.quiet hq hb ht hw hended (hG rfl)
    · obtain rfl : i = j.other := (eq_or_other j i).resolve_left (Ne.symm hj)
      rw [Function.update_self]
      exact E
  | hangup j =>
    cases hx
    by_cases hj : j = i
    · subst hj
      rw [Function.update_self]
      exact E.quiet (.conn _ _) rfl rfl rfl id (hG rfl)
    · rw [hother hj]
      exact E
  | retrieve j len =>
    obtain ⟨b, -, hx⟩ := Option.bind_eq_some_iff.1 hx
    cases hx
    by_cases hj : j = i
    · subst hj
      rw [Function.update_self]
      exact E
    · rw [hother hj]
      exact E
  | connectDestroyed j =>
    obtain ⟨sys, hsys, hx⟩ := Option.bind_eq_some_iff.1 hx
    cases hx
    by_cases hj : j = i
    · subst hj
      obtain ⟨hq, hended, hb, ht, hw, -⟩ := connectDestroyed_spec hsys
      rw [Function.update_self]
      exact E.quiet hq hb ht hw (fun _ => hended) (hG rfl)
    · rw [hother hj]
      exact E

end Cppnetool.TcpPipe
