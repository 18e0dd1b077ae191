import Cppnetool.TcpServerLife
/-!
# Establishing and destroying once

A connection is removed from two sides, by the peer's close and by
`removeConn`. Nothing in the server keeps the second from starting while the
first is under way: `Orderly` is what its callers have to see to.
-/
open Lib

namespace Cppnetool.TcpServer

variable {cfg : Config} {s s' : St} {stage : ConnId → Stage} {l : Loop} {c : ConnId}

/-- `removeConn` finds only connections that are established and whose removal
has not begun, and no connection that `removeConn` destroyed is closed later
in the same dispatch. -/
def Orderly (s : St) : Act → Prop
  | .removeConn _ name => ∀ o ∈ s.connections.find name, ∀ c ∈ o,
      ((s.conn c).state = .kConnected ∨ (s.conn c).state = .kDisconnecting) ∧
        .removeConnectionInLoop c ∉ s.pending 0 ∧ .closing c ∉ s.stack 0
  | .handleEvent l true => ∀ c ∈ (s.active l).head?, (s.conn c).state ≠ .kDisconnected
  | _ => True

instance (s : St) : ∀ a, Decidable (Orderly s a)
  | .removeConn _ _ => inferInstanceAs (Decidable (∀ o ∈ _, ∀ c ∈ o, _))
  | .handleEvent _ true => inferInstanceAs (Decidable (∀ c ∈ _, _))
  | .handleEvent _ false => .isTrue trivial
  | .newConnection => .isTrue trivial
  | .poll _ _ => .isTrue trivial
  | .runFunctor _ => .isTrue trivial
  | .ret _ => .isTrue trivial
  | .getConn _ _ => .isTrue trivial
  | .shutdown _ => .isTrue trivial
  | .disableAll _ => .isTrue trivial

section Step
variable (L : Lifecycle cfg s stage)
include L

theorem poll_spec {active : List ConnId} (h : (machine cfg).enabled s (.poll l active)) :
    Lifecycle cfg { s with active := Function.update s.active l active } stage := by
  obtain ⟨-, -, -, hnd, hw⟩ := h
  refine { L with active := ?_ }
  intro l'
  by_cases hl : l' = l
  · subst hl
    dsimp only
    rw [Function.update_self]
    refine ⟨hnd, fun c hc => ⟨?_, (hw c hc).2⟩⟩
    have hf := L.fits c
    have hwc := (hw c hc).1
    cases hst : stage c <;> rw [hst] at hf <;> simp_all [Stage.fits, Stage.dispatched]
  · dsimp only
    rw [Function.update_of_ne hl]
    exact L.active l'

/-- The channel at the head of the list leaves it, and is on no other. -/
theorem popActive_spec {rest : List ConnId} (hq : s.active l = c :: rest) :
    Lifecycle cfg { s with active := Function.update s.active l rest } stage ∧
      ∀ l', c ∉ Function.update s.active l rest l' := by
  obtain ⟨hnd, hin⟩ := L.active l
  rw [hq, List.nodup_cons] at hnd
  refine ⟨{ L with active := ?_ }, ?_⟩
  · intro l'
    by_cases hl : l' = l
    · subst hl
      dsimp only
      rw [Function.update_self]
      exact ⟨hnd.2, fun d hd => hin d (by rw [hq]; exact List.mem_cons_of_mem _ hd)⟩
    · dsimp only
      rw [Function.update_of_ne hl]
      exact L.active l'
  · intro l'
    by_cases hl : l' = l
    · subst hl
      rw [Function.update_self]
      exact hnd.1
    · rw [Function.update_of_ne hl]
      intro hm
      have h1 := ((L.active l').2 c hm).2
      have h2 := (hin c (by rw [hq]; exact List.mem_cons_self)).2
      exact hl (h1.symm.trans h2)

theorem handleClose_spec (hst : stage c = .live) (hact : ∀ l, c ∉ s.active l) :
    ∃ s' stage', handleClose cfg s l c = some s' ∧ Lifecycle cfg s' stage' := by
  have hf : Stage.live.fits (s.conn c) := hst ▸ L.fits c
  have L₁ := L.record (c := c) (k := { s.conn c with watched := false }) (x := .ending)
    (by rw [hst]; decide) rfl ⟨hf, rfl⟩ (by rw [hst]; rfl) (by rw [hst]; rfl) (.inr hact)
    (fun _ => by rw [hst]; trivial)
  have hst₁ : Function.update stage c .ending c = .ending := Function.update_self ..
  unfold handleClose
  split
  · rename_i hl
    subst hl
    exact removeConnectionInLoop_spec L₁ hst₁ hact
  · have hf₁ := L₁.fits c
    rw [hst₁] at hf₁
    refine ⟨_, _, rfl, queueInLoop_spec L₁ (c := c) (x := .closeQueued) ?_ hf₁ rfl ?_ rfl ?_ (.inr hact) ?_⟩
    · rw [hst₁]; decide
    · rw [hst₁]; rfl
    · rw [hst₁]; rfl
    · rw [hst₁]; exact fun _ => trivial

theorem handleEvent_spec {close : Bool} (hn : s.active l ≠ []) (hg : Orderly s (.handleEvent l close)) :
    ∃ s' stage', handleEvent cfg s l close = some s' ∧ Lifecycle cfg s' stage' := by
  obtain ⟨c, rest, hq⟩ := List.exists_cons_of_ne_nil hn
  obtain ⟨L', hact⟩ := popActive_spec L hq
  simp only [handleEvent, hq]
  cases close with
  | false => exact ⟨_, stage, rfl, L'⟩
  | true =>
    have hne : (s.conn c).state ≠ .kDisconnected := hg c (by rw [hq]; rfl)
    have hd := ((L.active l).2 c (by rw [hq]; exact List.mem_cons_self)).1
    have hf := L.fits c
    -- a connection that is dispatched and not disconnected has not begun to end
    have hst : stage c = .live := by
      cases hst : stage c <;> rw [hst] at hd hf <;> first | rfl | exact hd.elim | exact absurd hf.1 hne
    exact handleClose_spec L' hst hact

theorem removeConn_spec {name : String} (hg : Orderly s (.removeConn l name)) :
    ∃ s' stage', removeConn s l name = some s' ∧ Lifecycle cfg s' stage' := by
  have L₁ := getConn_spec L name
  unfold removeConn
  cases hfind : s.connections.find name with
  | none =>
    have : getConn s name = (none, (getConn s name).2) := by simp [getConn, hfind]
    rw [this]
    exact ⟨_, stage, rfl, L₁⟩
  | some o =>
    have : getConn s name = (o, s) := by simp [getConn, hfind]
    rw [this]
    cases o with
    | none => exact ⟨s, stage, rfl, L⟩
    | some c =>
      obtain ⟨hstate, hp, hcl⟩ := hg (some c) hfind c rfl
      have hf := L.fits c
      have hst : stage c = .live ∨ stage c = .ending := by
        cases hst : stage c with
        | live => exact .inl rfl
        | ending => exact .inr rfl
        | closeQueued =>
          have := (L.pending.mem 0 (.removeConnectionInLoop c)).2 (by simp [Functor.conn, hst]; rfl)
          exact absurd this hp
        | closing =>
          have := (L.stack.mem 0 (.closing c)).2 (by simp [Frame.conn, hst]; rfl)
          exact absurd (List.mem_of_mem_filter this) hcl
        | _ =>
          rw [hst] at hf
          rw [hf.1] at hstate
          simp at hstate
      have L₂ := L.touch (k := { s.conn c with
        state := if (s.conn c).state = .kConnected then .kDisconnecting else (s.conn c).state })
        rfl (Stage.fits_shutdown (L.fits c))
      obtain ⟨s', hx, L'⟩ := connectDestroyed_spec L₂ hst l
      exact ⟨s', _, hx, L'⟩

/-- An orderly step fails no assert and moves its connection on. -/
theorem step_lifecycle {a : Act} (ha : (machine cfg).enabled s a) (hg : Orderly s a) :
    ∃ s' stage', (machine cfg).exec s a = some s' ∧ Lifecycle cfg s' stage' := by
  cases a with
  | newConnection => exact newConnection_spec L
  | poll l active => exact ⟨_, stage, rfl, poll_spec L ha⟩
  | handleEvent l close => exact handleEvent_spec L ha.2 hg
  | runFunctor l => exact runFunctor_spec L ha.2
  | ret l => exact ret_spec L ha
  | removeConn l name => exact removeConn_spec L hg
  | getConn l name => exact ⟨_, stage, rfl, getConn_spec L name⟩
  | shutdown c => exact ⟨_, stage, rfl, L.touch rfl (Stage.fits_shutdown (L.fits c))⟩
  | disableAll c => exact ⟨_, stage, rfl, L.touch rfl (Stage.fits_unwatched (L.fits c))⟩

theorem Lifecycle.once (c : ConnId) :
    (s.conn c).established ≤ 1 ∧ (s.conn c).destroyed ≤ (s.conn c).established := by
  have hf := L.fits c
  cases hst : stage c with
  | live =>
    rw [hst] at hf
    simp [hf.2.1, hf.2.2]
  | ending | closeQueued | closing =>
    rw [hst] at hf
    simp [hf.1.2.1, hf.1.2.2]
  | _ =>
    rw [hst] at hf
    simp [hf.2.2.1, hf.2.2.2]

end Step

/-- In a run whose steps are `Orderly`, with any number of loops: every
connection is established at most once, destroyed at most once and not before
it is established, and no assert fails in the next orderly step. Objects are
taken to last: the user keeps a `TcpConnectionPtr` to each connection. -/
theorem established_destroyed_once {tr : List (St × Act)} (h : Run (machine cfg) tr s) (hG : Meets Orderly tr) :
    (∀ c, (s.conn c).established ≤ 1 ∧ (s.conn c).destroyed ≤ (s.conn c).established) ∧
    ∀ a, (machine cfg).enabled s a → Orderly s a → (machine cfg).exec s a ≠ none := by
  obtain ⟨stage, L⟩ : ∃ stage, Lifecycle cfg s stage :=
    h.inv_if (fun s => ∃ stage, Lifecycle cfg s stage) Orderly ⟨_, lifecycle_init cfg⟩
      (fun s a s' ⟨stage, L⟩ ha hg hx => by
        obtain ⟨s'', stage', hx', L'⟩ := step_lifecycle L ha hg
        rw [hx] at hx'; cases hx'; exact ⟨stage', L'⟩) hG
  refine ⟨L.once, ?_⟩
  intro a ha hg hn
  obtain ⟨s', stage', hx, -⟩ := step_lifecycle L ha hg
  rw [hn] at hx
  cases hx

/-- Two loops: a connection is closed by its peer, another removed by name. -/
theorem established_destroyed_once_two : ∃ tr s, Run (machine ⟨"s", 1, true⟩) tr s ∧
    (s.conn 1).destroyed = 1 ∧ (s.conn 2).destroyed = 1 ∧
    ∀ c, (s.conn c).established ≤ 1 ∧ (s.conn c).destroyed ≤ (s.conn c).established := by
  obtain ⟨r, hr, h1, h2, hG⟩ : ∃ r ∈ (machine ⟨"s", 1, true⟩).play {}
      [.newConnection, .newConnection, .runFunctor 1, .ret 1, .runFunctor 1, .ret 1, .poll 1 [1],
        .handleEvent 1 true, .removeConn 0 "s#2", .ret 0, .runFunctor 0, .ret 0, .ret 0],
      (r.2.conn 1).destroyed = 1 ∧ (r.2.conn 2).destroyed = 1 ∧ Meets Orderly r.1 := by decide
  have hrun := Machine.play_steps hr
  exact ⟨r.1, r.2, hrun, h1, h2, (established_destroyed_once hrun hG).1⟩

/-- The user's close callback calls `removeConn` for the connection being
closed: when it returns, `removeConnectionInLoop` destroys the connection a
second time and the assert fails. -/
theorem destroyed_twice_close_callback : ∃ tr s, Run (machine ⟨"s", 0, true⟩) tr s ∧
    (s.conn 1).destroyed = 1 ∧ s.stack 0 = [.closing 1] ∧ (machine ⟨"s", 0, true⟩).enabled s (.ret 0) ∧
    (machine ⟨"s", 0, true⟩).exec s (.ret 0) = none := by
  obtain ⟨r, hr, h1, hs, he, hx⟩ : ∃ r ∈ (machine ⟨"s", 0, true⟩).play {}
      [.newConnection, .ret 0, .poll 0 [1], .handleEvent 0 true, .removeConn 0 "s#1", .ret 0],
      (r.2.conn 1).destroyed = 1 ∧ r.2.stack 0 = [.closing 1] ∧ (machine ⟨"s", 0, true⟩).enabled r.2 (.ret 0) ∧
        ((machine ⟨"s", 0, true⟩).exec r.2 (.ret 0)).isNone := by decide
  exact ⟨r.1, r.2, Machine.play_steps hr, h1, hs, he, Option.isNone_iff_eq_none.1 hx⟩

end Cppnetool.TcpServer
