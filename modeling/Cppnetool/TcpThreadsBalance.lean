import Mathlib.Data.Int.CardIntervalMod
import Cppnetool.TcpThreadsHomes
/-!
# The loops of the pool in turn

`EventLoopThreadPool::getNextLoop` gives the connections of the server to the
loops of the pool one after the other. A connection stays in its loop: what is
queued for it and what a poller reports of it is there (`round_robin`).
-/
open Lib

namespace Cppnetool.TcpThreads

open TcpConnection (StateE WriteResult)
open TcpServer (Loop)

variable {cfg : Config} {s s' t u : St} {th : Thread} {c : ConnId} {k : ClientId} {n : Nat}

/-! ## What counts the connections -/

/-- No connection of the server is made. -/
def Counts (s t : St) : Prop := t.next = s.next ∧ t.nextConnId = s.nextConnId

theorem Counts.trans (h : Counts s t) (h' : Counts t u) : Counts s u := ⟨h'.1.trans h.1, h'.2.trans h.2⟩

theorem counts_returned (s : St) (th : Thread) : Counts s (returned s th) := ⟨rfl, rfl⟩

theorem counts_handled (s : St) (l : Loop) : Counts s (handled s l) := ⟨rfl, rfl⟩

theorem Acts.counts (h : Acts th c s t) : Counts s t := by
  obtain ⟨conn, fs, n, e⟩ := h
  rw [e.eq]
  exact ⟨rfl, rfl⟩

theorem counts_call (s : St) (th : Thread) (c : ConnId) (f : Call) (w : WriteResult) : Counts s (call s th c f w) := by
  unfold call
  dsimp only
  split
  · split
    · exact (acts_run (setConn s c { s.conn c with state := f.leaves }) th c w f).counts
    · exact ⟨rfl, rfl⟩
  · exact ⟨rfl, rfl⟩

theorem counts_removeClosed (hx : removeClosed cfg s th n = some s') : Counts s s' := by
  obtain ⟨s₁, h, rfl⟩ := removeClosed_cases hx
  exact h.acts.counts

theorem counts_removeConnectionInLoop (hx : removeConnectionInLoop cfg s th n = some s') : Counts s s' := by
  rcases removeConnectionInLoop_cases hx with ⟨-, rfl⟩ | ⟨-, hx⟩
  · exact ⟨rfl, rfl⟩
  · exact counts_removeClosed hx

theorem counts_destroyed (hx : destroyed cfg s th c = some s') : Counts s s' := by
  obtain ⟨-, rfl⟩ := destroyed_eq hx
  exact ⟨rfl, rfl⟩

theorem counts_eraseConn {name : String} (hx : eraseConn s name = some s') : Counts s s' := by
  rw [eraseConn_eq hx]
  exact ⟨rfl, rfl⟩

theorem counts_clientNewConnection (hx : clientNewConnection cfg s th k = some s') : Counts s s' := by
  obtain ⟨s₁, s₂, rfl, h, rfl⟩ := clientNewConnection_cases hx
  exact h.counts

theorem counts_runConnector {a : Connector.Act} (hx : runConnector cfg s th k a = some s') : Counts s s' := by
  obtain ⟨connector, -, hx⟩ := Option.bind_eq_some_iff.1 hx
  dsimp only at hx
  split at hx
  · have h := counts_clientNewConnection hx
    exact h
  · cases hx
    exact ⟨rfl, rfl⟩

theorem counts_clientRemoveClosed (hx : clientRemoveClosed cfg s th k n = some s') : Counts s s' := by
  obtain ⟨-, -, d, s₁, -, h, rfl⟩ := clientRemoveClosed_cases hx
  exact h.acts.counts

theorem counts_clientReset {e : Connector.Errno} (hx : clientReset cfg s th k n e = some s') : Counts s s' := by
  obtain ⟨-, connector, rfl, -⟩ := clientReset_cases hx
  exact ⟨rfl, rfl⟩

theorem counts_destroyMembers (hx : destroyMembers s k = some s') : Counts s s' := by
  obtain ⟨connector, -, rfl⟩ := destroyMembers_cases hx
  exact ⟨rfl, rfl⟩

theorem counts_handleClose (hx : handleClose cfg s th c = some s') : Counts s s' := by
  obtain ⟨s₁, h₁, hx⟩ := handleClose_cases hx
  refine h₁.counts.trans ?_
  cases c with
  | server n =>
    rcases hx with ⟨-, hx⟩ | ⟨-, rfl⟩
    · exact counts_removeConnectionInLoop hx
    · exact ⟨rfl, rfl⟩
  | client k n =>
    rcases clientRemoveConnection_cases hx with ⟨-, rfl⟩ | ⟨-, hx⟩
    · exact ⟨rfl, rfl⟩
    · exact counts_clientRemoveClosed hx

theorem counts_runFunctor {l : Loop} {w : WriteResult} (hx : runFunctor cfg s l w = some s') : Counts s s' := by
  obtain ⟨f, s₁, -, rfl, -, hx⟩ := runFunctor_cases hx
  cases f with
  | connectEstablished n =>
    obtain ⟨s₂, h, rfl⟩ := hx
    exact h.counts
  | removeConnectionInLoop n =>
    have h := counts_removeConnectionInLoop hx
    exact h
  | sendInLoop | shutdownInLoop | shutdownAllInLoop | writeCompleteCallback =>
    have h := Acts.counts hx
    exact h

theorem counts_ret {e : Connector.Errno} (hx : ret cfg s th e = some s') : Counts s s' := by
  obtain ⟨fr, -, hx⟩ := Option.bind_eq_some_iff.1 hx
  cases fr with
  | established n | newConnection n =>
    cases hx
    exact counts_returned s th
  | closing n => exact (counts_returned s th).trans (counts_removeClosed hx)
  | removed n | removeConn name n =>
    obtain ⟨s₁, h, hx⟩ := Option.bind_eq_some_iff.1 hx
    exact ((counts_destroyed h).trans (counts_returned s₁ th)).trans (counts_eraseConn hx)
  | clientNewConnection k n => exact (counts_returned s th).trans (counts_runConnector hx)
  | clientClosing k n => exact (counts_returned s th).trans (counts_clientRemoveClosed hx)
  | clientRemoved k n c =>
    obtain ⟨s₁, h, hx⟩ := Option.bind_eq_some_iff.1 hx
    exact ((counts_destroyed h).trans (counts_returned s₁ th)).trans (counts_clientReset hx)
  | clientDestroyed k c =>
    obtain ⟨s₁, h, hx⟩ := Option.bind_eq_some_iff.1 hx
    exact ((counts_destroyed h).trans (counts_returned s₁ th)).trans (counts_destroyMembers hx)

/-- Every step but that of the acceptor with a new connection. -/
theorem step_counts {a : Act} (ha : a ≠ .acceptor true) (hx : exec cfg s a = some s') : Counts s s' := by
  cases a with
  | acceptor accepted =>
    cases accepted with
    | true => exact absurd rfl ha
    | false =>
      obtain ⟨-, -, hx⟩ := Option.bind_eq_some_iff.1 hx
      cases hx
      exact ⟨rfl, rfl⟩
  | handleEvent l write read =>
    obtain ⟨c, -, hx⟩ := Option.bind_eq_some_iff.1 hx
    obtain ⟨-, s₁, h₁, hx⟩ := handleEvent_cases hx
    have h : Counts s s₁ := (counts_handled s l).trans h₁.counts
    rcases hx with ⟨-, hx⟩ | ⟨-, rfl⟩
    · exact h.trans (counts_handleClose hx)
    · exact h
  | connectorEvent l err out soError selfConnect =>
    obtain ⟨⟨k, d⟩, -, hx⟩ := Option.bind_eq_some_iff.1 hx
    exact (counts_handled s l).trans (counts_runConnector hx)
  | runFunctor l w => exact counts_runFunctor hx
  | ret t e => exact counts_ret hx
  | connector k a => exact counts_runConnector hx
  | call t c f w =>
    cases hx
    exact counts_call s t c f w
  | pushBack t =>
    obtain ⟨p, -, hx⟩ := Option.bind_eq_some_iff.1 hx
    cases hx
    exact ⟨rfl, rfl⟩
  | removeConn t name =>
    rcases removeConn_cases hx with ⟨-, rfl⟩ | ⟨-, rfl⟩ | ⟨n, s₁, -, h, rfl⟩
    · exact ⟨rfl, rfl⟩
    · exact ⟨rfl, rfl⟩
    · exact h.acts.counts
  | getConn name =>
    cases hx
    rcases getConn_cases s name with ⟨-, e⟩ | ⟨-, e⟩ | ⟨n, -, e⟩
    · rw [e]
      exact ⟨rfl, rfl⟩
    · rw [e]
      exact ⟨rfl, rfl⟩
    · rw [e]
      exact ⟨rfl, rfl⟩
  | getClientConn k =>
    cases hx
    unfold getClientConn
    split
    · exact ⟨rfl, rfl⟩
    · exact ⟨rfl, rfl⟩
  | connect k a =>
    obtain ⟨connect, -, hx⟩ := Option.bind_eq_some_iff.1 hx
    have h := counts_runConnector hx
    exact h
  | disconnect t k w =>
    cases hx
    unfold disconnect
    dsimp only
    split
    · exact counts_call _ t _ .shutdown w
    · exact ⟨rfl, rfl⟩
  | deleteClient t k =>
    rcases deleteClient_cases hx with ⟨-, d, s₁, -, h, rfl⟩ | ⟨-, hx⟩
    · exact h.acts.counts
    · exact counts_destroyMembers hx
  | poll | wakeup | timer | endFunctors | setInterest | setWriteCompleteCallback | deleteServer | drop | newClient
  | enableRetry | setCloseCallback =>
    cases hx
    exact ⟨rfl, rfl⟩

/-! ## Turns -/

/-- The loop whose turn it is for the connection of this number. -/
def turn (cfg : Config) (n : Nat) : Loop := if cfg.numThreads = 0 then 0 else (n - 1) % cfg.numThreads + 1

/-- The connections have been dealt out in turn, and the next one will be. -/
structure Dealt (cfg : Config) (s : St) : Prop where
  counted : 0 < s.nextConnId
  next : cfg.numThreads ≠ 0 → s.next = (s.nextConnId - 1) % cfg.numThreads
  loop : ∀ n, 0 < n → n < s.nextConnId → (s.conn (.server n)).loop = turn cfg n

theorem newConnection_next (hx : newConnection cfg s = some s') :
    s'.next = (getNextLoop cfg s).2.next ∧ s'.nextConnId = s.nextConnId + 1 ∧
      (s'.conn (.server s.nextConnId)).loop = (getNextLoop cfg s).1 := by
  unfold newConnection at hx
  unfold getNextLoop at hx ⊢
  by_cases hN : cfg.numThreads = 0
  · simp only [hN, if_true] at hx ⊢
    obtain ⟨s₁, h₁, hx⟩ := Option.bind_eq_some_iff.1 hx
    cases hx
    have h := acts_connectEstablished h₁
    exact ⟨h.counts.1, h.counts.2, (h.loop _).trans (by simp [setConn])⟩
  · simp only [hN, if_false] at hx ⊢
    cases hx
    exact ⟨rfl, rfl, by simp [queueInLoop, setConn, assertInLoopThread]⟩

theorem succ_mod (m N : Nat) (hN : 0 < N) : (if N ≤ m % N + 1 then 0 else m % N + 1) = (m + 1) % N := by
  have hlt := Nat.mod_lt m hN
  rw [← Nat.mod_add_mod]
  split
  · rename_i h
    have he : m % N + 1 = N := by omega
    rw [he, Nat.mod_self]
  · rename_i h
    rw [Nat.mod_eq_of_lt (Nat.not_le.1 h)]

theorem Dealt.newConnection (D : Dealt cfg s) (hkept : ∀ n, 0 < n → n < s.nextConnId →
    (s'.conn (.server n)).loop = (s.conn (.server n)).loop) (hx : newConnection cfg s = some s') : Dealt cfg s' := by
  obtain ⟨hnext, hid, hloop⟩ := newConnection_next hx
  have hpos := D.counted
  have hturn : (getNextLoop cfg s).1 = turn cfg s.nextConnId := by
    unfold getNextLoop turn
    split
    · rfl
    · rename_i hN
      rw [← D.next hN]
  refine ⟨hid ▸ Nat.succ_pos _, fun hN => ?_, fun n hn hlt => ?_⟩
  · have hm : s.nextConnId - 1 + 1 = s.nextConnId := by omega
    rw [hnext, hid, getNextLoop, if_neg hN]
    dsimp only
    rw [D.next hN, succ_mod _ _ (Nat.pos_of_ne_zero hN), hm, Nat.add_sub_cancel]
  · rcases Nat.lt_succ_iff_lt_or_eq.1 (hid ▸ hlt) with h | rfl
    · rw [hkept n hn h, D.loop n hn h]
    · rw [hloop, hturn]

theorem step_dealt {a : Act} (H : Homed cfg s) (D : Dealt cfg s) (ha : enabled cfg s a)
    (hx : exec cfg s a = some s') : Dealt cfg s' := by
  have hc : Confines cfg False ((a.thread cfg).getD 0) s s' := step_confines H ha False.elim hx (a.thread_getD cfg)
  have hkept (n : Nat) (hn : 0 < n) (hlt : n < s.nextConnId) :
      (s'.conn (.server n)).loop = (s.conn (.server n)).loop := hc.loop (.server n) ⟨hn, hlt⟩
  by_cases he : a = .acceptor true
  · cases he
    obtain ⟨-, -, hx⟩ := Option.bind_eq_some_iff.1 hx
    have hx : TcpThreads.newConnection cfg (handled s 0) = some s' := hx
    have D' : Dealt cfg (handled s 0) := ⟨D.counted, D.next, D.loop⟩
    exact D'.newConnection hkept hx
  · obtain ⟨hnext, hid⟩ := step_counts he hx
    refine ⟨hid ▸ D.counted, fun hN => by rw [hnext, hid, D.next hN], fun n hn hlt => ?_⟩
    rw [hkept n hn (hid ▸ hlt), D.loop n hn (hid ▸ hlt)]

/-- In a window of numbers every residue has its turn as often as any other, or once more. -/
theorem count_turns {N : Nat} (hN : 0 < N) (a k r : Nat) :
    k / N ≤ Nat.count (fun i => (a + i) % N = r % N) k ∧ Nat.count (fun i => (a + i) % N = r % N) k ≤ k / N + 1 := by
  have hshift (i : Nat) : (a + i) % N = r % N ↔ i ≡ r + (N - a % N) [MOD N] := by
    have hle : a % N ≤ N := Nat.le_of_lt (Nat.mod_lt a hN)
    have hzero : a + (N - a % N) ≡ 0 [MOD N] := by
      have : a + (N - a % N) = N * (a / N) + N := by
        have := Nat.div_add_mod a N
        omega
      rw [this, ← Nat.mul_succ]
      exact (Nat.modEq_zero_iff_dvd.2 (Nat.dvd_mul_right _ _))
    constructor
    · intro h
      have h1 : a + i + (N - a % N) ≡ r + (N - a % N) [MOD N] := Nat.ModEq.add_right _ h
      have h2 : a + i + (N - a % N) ≡ 0 + i [MOD N] := by
        rw [Nat.add_right_comm]
        exact hzero.add_right i
      rw [Nat.zero_add] at h2
      exact h2.symm.trans h1
    · intro h
      have h1 : a + i ≡ a + (r + (N - a % N)) [MOD N] := h.add_left a
      have h2 : a + (r + (N - a % N)) ≡ r + 0 [MOD N] := by
        rw [Nat.add_left_comm]
        exact hzero.add_left r
      exact h1.trans h2
  have hcount := Nat.count_modEq_card k hN (r + (N - a % N))
  simp only [hshift]
  rw [hcount]
  split <;> omega

theorem dealt_init : Dealt cfg {} where
  counted := Nat.zero_lt_one
  next _ := (Nat.zero_mod _).symm
  loop _ hn hlt := absurd hlt (Nat.not_lt.2 hn)

theorem dealt_run {tr : List (St × Act)} (hr : Run (machine cfg) tr s) : Homed cfg s ∧ Dealt cfg s :=
  hr.inv (fun s => Homed cfg s ∧ Dealt cfg s)
    ⟨homed_init, dealt_init⟩ fun _ _ _ I ha hx => ⟨step_homed I.1 ha hx, step_dealt I.1 I.2 ha hx⟩

/-- The connections of the server are given to the loops of the pool in turn and
stay there, with all that is queued for them but their removal and all that the
pollers report of them; of any connections one after the other, each loop has as
many as another, or one more. -/
theorem round_robin {tr : List (St × Act)} (hr : Run (machine cfg) tr s) :
    (∀ n, 0 < n → n < s.nextConnId → (s.conn (.server n)).loop = turn cfg n) ∧
    (∀ p ∈ s.pending ++ s.todo, ∀ n, p.2.conn = .server n → p.2 ≠ .removeConnectionInLoop n → p.1 = turn cfg n) ∧
    (∀ l n, .conn (.server n) ∈ s.active l → l = turn cfg n) ∧
    ∀ a k l : Nat, 0 < a → a + k ≤ s.nextConnId → 0 < l → l ≤ cfg.numThreads →
      k / cfg.numThreads ≤ Nat.count (fun i => (s.conn (.server (a + i))).loop = l) k ∧
      Nat.count (fun i => (s.conn (.server (a + i))).loop = l) k ≤ k / cfg.numThreads + 1 := by
  obtain ⟨H, D⟩ := dealt_run hr
  have loop (n : Nat) (hm : Made s (.server n)) : (s.conn (.server n)).loop = turn cfg n := D.loop n hm.1 hm.2
  refine ⟨D.loop, fun p hp n hn hne => ?_, fun l n hm => ?_, fun a k l ha hk hl hle => ?_⟩
  · have hknown := H.known p.2.conn (.inr (.inl ⟨p, hp, rfl⟩))
    have hhome := H.functors p hp
    rw [hn] at hknown
    rw [← loop n hknown, hhome]
    obtain ⟨l, f⟩ := p
    cases f with
    | removeConnectionInLoop m =>
      cases hn
      exact absurd rfl hne
    | connectEstablished | sendInLoop | shutdownInLoop | shutdownAllInLoop | writeCompleteCallback =>
      exact congrArg (fun c => (s.conn c).loop) hn
  · rw [← loop n (H.known _ (.inr (.inr (.inl ⟨l, hm⟩))))]
    exact (H.active l _ hm _ rfl).symm
  · have hN : 0 < cfg.numThreads := Nat.lt_of_lt_of_le hl hle
    have hcount := count_turns hN (a - 1) k (l - 1)
    have hsame : Nat.count (fun i => (s.conn (.server (a + i))).loop = l) k =
        Nat.count (fun i => (a - 1 + i) % cfg.numThreads = (l - 1) % cfg.numThreads) k := by
      have same (i : Nat) (hi : i < k) : (s.conn (.server (a + i))).loop = l ↔
          (a - 1 + i) % cfg.numThreads = (l - 1) % cfg.numThreads := by
        have he : a + i - 1 = a - 1 + i := by omega
        rw [D.loop (a + i) (by omega) (by omega), turn, if_neg (Nat.ne_of_gt hN), he,
          Nat.mod_eq_of_lt (by omega : l - 1 < _)]
        exact eq_comm.trans ((Nat.sub_eq_iff_eq_add hl).symm.trans eq_comm)
      exact Nat.le_antisymm (Nat.count_mono_left fun i hi => (same i hi).1) (Nat.count_mono_left fun i hi => (same i hi).2)
    rw [hsame]
    exact hcount

/-- The pool has two loops, and the third connection waits for its functor in the first. -/
theorem round_robin_third : ∃ tr s, Run (machine (plain 2)) tr s ∧ s.nextConnId = 4 ∧
    (1, .connectEstablished 3) ∈ s.pending ∧ (s.conn (.server 3)).loop = turn (plain 2) 3 ∧ turn (plain 2) 3 = 1 ∧
    3 / 2 ≤ Nat.count (fun i => (s.conn (.server (1 + i))).loop = 1) 3 := by
  obtain ⟨r, hr, hid, hmem⟩ : ∃ r ∈ (machine (plain 2)).play (machine (plain 2)).init
      [.poll 0 [.acceptor], .acceptor true, .poll 0 [.acceptor], .acceptor true, .poll 1 [.wakeup], .wakeup 1,
        .runFunctor 1 (.wrote 0), .poll 0 [.acceptor], .acceptor true],
      r.2.nextConnId = 4 ∧ (1, .connectEstablished 3) ∈ r.2.pending := by decide +kernel
  have hrun := Machine.play_steps hr
  obtain ⟨hloop, -, -, hcount⟩ := round_robin hrun
  exact ⟨r.1, r.2, hrun, hid, hmem, hloop 3 (by decide) (by rw [hid]; decide), rfl,
    (hcount 1 3 1 (by decide) (by rw [hid]) (by decide) (by decide)).1⟩

end Cppnetool.TcpThreads
