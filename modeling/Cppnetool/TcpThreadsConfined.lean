import Cppnetool.TcpThreadsHomes
/-!
# Thread confinement

Every check and every change of a channel is in the thread of the connection's
loop, exactly as long as the removals are: `connectDestroyed` checks the thread,
whoever calls it.
-/
open Lib

namespace Cppnetool.TcpThreads

open TcpServer (Loop)
open Connector (Errno)

variable {cfg : Config} {s s' t : St} {th : Thread} {c : ConnId} {n : Nat}

/-! ## Checks that fail -/

theorem Acts.asserted (h : Acts th c s t) {p : Loop × Thread} (hp : p ∈ s.asserted) : p ∈ t.asserted := by
  obtain ⟨conn, fs, n, e⟩ := h
  rw [e.eq]
  exact List.mem_append_left _ hp

theorem removeClosed_asserts (hx : removeClosed cfg s th n = some s') :
    ((s.conn (.server n)).loop, th) ∈ s'.asserted := by
  obtain ⟨s₁, h₁, rfl⟩ := removeClosed_cases hx
  exact h₁.asserted

theorem removeConn_asserts {name : String} (hx : removeConn cfg s th name = some s')
    (hf : s.connections.find name = some (some n)) :
    (0, th) ∈ s'.asserted ∧ ((s.conn (.server n)).loop, th) ∈ s'.asserted := by
  rcases removeConn_cases hx with ⟨e, -⟩ | ⟨e, -⟩ | ⟨n', s₁, e, h₁, rfl⟩
  · cases hf.symm.trans e
  · cases hf.symm.trans e
  · cases hf.symm.trans e
    exact ⟨h₁.acts.asserted (List.mem_append_right _ List.mem_cons_self), h₁.asserted⟩

/-- What goes on in `connectDestroyed` checks its thread. -/
theorem ret_asserts {e : Errno} {fr : Frame} (hx : ret cfg s th e = some s') (hf : Lanes.front s.stack th = some fr)
    (hc : fr.destroys = some c) : ((s.conn c).loop, th) ∈ s'.asserted := by
  obtain ⟨fr', hf', hx⟩ := Option.bind_eq_some_iff.1 hx
  cases hf.symm.trans hf'
  have main {c : ConnId} {s₁ : St} (h₁ : destroyed cfg s th c = some s₁) : ((s.conn c).loop, th) ∈ s₁.asserted := by
    rw [(destroyed_eq h₁).2]
    exact List.mem_append_right _ List.mem_cons_self
  cases fr with
  | closing n =>
    cases hc
    have h : removeClosed cfg (returned s th) th n = some s' := hx
    have hm := removeClosed_asserts h
    exact hm
  | removed n | removeConn name n =>
    cases hc
    obtain ⟨s₁, h₁, hx⟩ := Option.bind_eq_some_iff.1 hx
    rw [eraseConn_eq hx]
    have h := main h₁
    exact h
  | clientRemoved k n d =>
    cases hc
    obtain ⟨s₁, h₁, hx⟩ := Option.bind_eq_some_iff.1 hx
    obtain ⟨-, connector, rfl, -⟩ := clientReset_cases hx
    have h := main h₁
    exact h
  | clientDestroyed k d =>
    cases hc
    obtain ⟨s₁, h₁, hx⟩ := Option.bind_eq_some_iff.1 hx
    obtain ⟨connector, -, rfl⟩ := destroyMembers_cases hx
    have h := main h₁
    exact h
  | established | newConnection | clientNewConnection | clientClosing => cases hc

theorem step_abortNotInLoopThread {a : Act} (hown : ¬ Own cfg s a) (hx : exec cfg s a = some s') :
    ∃ p ∈ s'.asserted, p.1 ≠ p.2 := by
  cases a with
  | ret t e =>
    simp only [Own, not_forall] at hown
    obtain ⟨c, hc, hl⟩ := hown
    obtain ⟨fr, hf, hc⟩ := Option.bind_eq_some_iff.1 hc
    exact ⟨_, ret_asserts hx hf hc, hl⟩
  | runFunctor l w =>
    simp only [Own, not_forall] at hown
    obtain ⟨n, hn, hcl, hl⟩ := hown
    obtain ⟨f, hf, hn⟩ := Option.bind_eq_some_iff.1 hn
    obtain ⟨f', s₁, hf', h₁, -, h⟩ := runFunctor_cases hx
    cases hf.symm.trans hf'
    cases f with
    | removeConnectionInLoop m =>
      cases hn
      obtain ⟨hc, -⟩ | ⟨-, h⟩ := removeConnectionInLoop_cases h
      · rw [hcl] at hc
        cases hc
      have hm := removeClosed_asserts h
      rw [h₁] at hm
      exact ⟨_, hm, hl⟩
    | _ => cases hn
  | removeConn t name =>
    simp only [Own, not_forall] at hown
    obtain ⟨n, hn, hl⟩ := hown
    have hf : s.connections.find name = some (some n) := Option.join_eq_some_iff.1 hn
    obtain ⟨h0, hc⟩ := removeConn_asserts hx hf
    by_cases ht : t = 0
    · exact ⟨_, hc, fun e => hl ⟨ht, e⟩⟩
    · exact ⟨_, h0, fun e => ht e.symm⟩
  | deleteClient t k =>
    simp only [Own, not_forall] at hown
    obtain ⟨n, hn, hs, hl⟩ := hown
    rcases deleteClient_cases hx with ⟨-, d, s₁, hd, h₁, rfl⟩ | ⟨hs', -⟩
    · cases hn.symm.trans hd
      exact ⟨_, h₁.asserted, hl⟩
    · rw [hs'] at hs
      cases hs
  | setInterest t c i =>
    cases hx
    exact ⟨_, List.mem_append_right _ List.mem_cons_self, hown⟩
  | _ => exact absurd trivial hown

/-! ## Runs -/

/-- No check has failed. -/
def Passed (s : St) : Prop := ∀ p ∈ s.asserted, p.1 = p.2

theorem step_passed {a : Act} (H : Homed cfg s) (ha : enabled cfg s a) (hown : Own cfg s a)
    (hx : exec cfg s a = some s') (h : Passed s) : Passed s' := by
  intro p hp
  exact ((step_confines H ha (fun _ => hown) hx (a.thread_getD cfg)).asserted trivial p hp).elim (h p) id

/-- A step is in the thread of every connection whose channel it changes. A step
for which no thread matters changes none: it would be in that thread, and in
any other. -/
theorem step_changed {a : Act} (H : Homed cfg s) (ha : enabled cfg s a) (hown : Own cfg s a)
    (hx : exec cfg s a = some s') (hc : Changed s s' c) : a.thread cfg = some (s'.conn c).loop := by
  have main (th : Thread) (h : ∀ t ∈ a.thread cfg, t = th) : (s'.conn c).loop = th :=
    ((step_confines H ha (fun _ => hown) hx h).changed trivial c hc).2
  cases ht : a.thread cfg with
  | some th =>
    have h := main th fun t e => by rw [ht] at e; exact (Option.some.inj e).symm
    rw [h]
  | none =>
    have h0 := main 0 fun t e => by rw [ht] at e; cases e
    have h1 := main 1 fun t e => by rw [ht] at e; cases e
    rw [h0] at h1
    cases h1

/-- `abortNotInLoopThread` is not reached, and every channel is changed in the
thread of its connection's loop, exactly in the runs that remove connections
in their own loops. -/
theorem thread_confined {tr : List (St × Act)} (hr : Run (machine cfg) tr s) :
    ((∀ t, Visited tr s t → ∀ p ∈ t.asserted, p.1 = p.2) ∧
      ∀ p ∈ tr, ∀ t, exec cfg p.1 p.2 = some t → ∀ c, Changed p.1 t c → p.2.thread cfg = some (t.conn c).loop) ↔
    Meets (Own cfg) tr := by
  have hiff := Run.throughout_iff (fun t => Homed cfg t ∧ Passed t) Passed (Own cfg) ⟨homed_init, fun _ h => by cases h⟩
    (fun _ h => h.2) (fun s a s' h ha hown hx => ⟨step_homed h.1 ha hx, step_passed h.1 ha hown hx h.2⟩) (by
      intro s a s' _ _ hown hx h
      obtain ⟨p, hp, hne⟩ := step_abortNotInLoopThread hown hx
      exact hne (h p hp)) hr
  constructor
  · intro h
    exact hiff.1 h.1
  · intro hG
    refine ⟨hiff.2 hG, ?_⟩
    rintro ⟨t, a⟩ hp t' hx c hc
    obtain ⟨pre, -, hpre, -, ha, -⟩ := hr.taken hp
    exact step_changed (homed_run hpre) ha (hG _ hp) hx hc

/-- A connection of the pool that a thread without a loop writes to: it is
established, and written, in its own loop. -/
theorem thread_confined_send : ∃ tr s, Run (machine (plain 1)) tr s ∧ (s.conn (.server 1)).loop = 1 ∧
    (s.conn (.server 1)).state = .kConnected ∧ (s.conn (.server 1)).outputBuffer = 3 ∧
    (∀ t, Visited tr s t → ∀ p ∈ t.asserted, p.1 = p.2) ∧
    ∀ p ∈ tr, ∀ t, exec (plain 1) p.1 p.2 = some t → ∀ c, Changed p.1 t c →
      p.2.thread (plain 1) = some (t.conn c).loop := by
  obtain ⟨r, hr, hl, hs, ho, hm⟩ : ∃ r ∈ (machine (plain 1)).play {}
      [.poll 0 [.acceptor], .acceptor true, .poll 1 [.wakeup], .wakeup 1, .runFunctor 1 .error, .ret 1 .success,
        .endFunctors 1, .getConn "s#1", .call 7 (.server 1) (.send 3) .error, .pushBack 7, .poll 1 [.wakeup],
        .wakeup 1, .runFunctor 1 .error],
      (r.2.conn (.server 1)).loop = 1 ∧ (r.2.conn (.server 1)).state = .kConnected ∧
        (r.2.conn (.server 1)).outputBuffer = 3 ∧ Meets (Own (plain 1)) r.1 := by decide +kernel
  have hrun := Machine.play_steps hr
  exact ⟨r.1, r.2, hrun, hl, hs, ho, (thread_confined hrun).2 hm⟩

/-- The peer closes a connection of the pool: `connectDestroyed` changes its
channel in the server's thread. -/
theorem connectDestroyed_not_in_loop : ∃ tr s s', Run (machine (plain 1)) tr s ∧
    enabled (plain 1) s (.ret 0 .success) ∧ exec (plain 1) s (.ret 0 .success) = some s' ∧
    Changed s s' (.server 1) ∧ (s'.conn (.server 1)).loop = 1 ∧ (1, 0) ∈ s'.asserted := by
  obtain ⟨r, hr, he, s', hx, hc, hl, ha⟩ : ∃ r ∈ (machine (plain 1)).play {}
      [.poll 0 [.acceptor], .acceptor true, .poll 1 [.wakeup], .wakeup 1, .runFunctor 1 .error, .ret 1 .success,
        .endFunctors 1, .poll 1 [.conn (.server 1)], .handleEvent 1 none .close, .poll 0 [.wakeup], .wakeup 0,
        .runFunctor 0 .error],
      enabled (plain 1) r.2 (.ret 0 .success) ∧ ∃ s' ∈ exec (plain 1) r.2 (.ret 0 .success),
        ((s'.conn (.server 1)).events ≠ (r.2.conn (.server 1)).events ∨
          (s'.conn (.server 1)).registered ≠ (r.2.conn (.server 1)).registered) ∧
        (s'.conn (.server 1)).loop = 1 ∧ (1, 0) ∈ s'.asserted := by decide +kernel
  exact ⟨r.1, r.2, s', Machine.play_steps hr, he, hx, hc, hl, ha⟩

end Cppnetool.TcpThreads
