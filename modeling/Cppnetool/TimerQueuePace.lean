import Mathlib.Data.List.Chain
import Cppnetool.TimerQueueFiring
/-!
# The pace of a timer

`restart` counts the interval from the time that was read for the batch, so a
repeating timer falls behind by what the loop is late, and never catches up:
from the time for which it was added the passes that call it are at least the
interval apart, by the time that each has read (`timer_pace`). The calls
themselves come later in their passes, and may be closer. This is so whatever
the callbacks do, and wherever the timer's address is given out again.
-/
open Lib

namespace Cppnetool.TimerQueue

variable {calling0 : Bool} {s s' t u : Sys} {a b : Addr} {q : Nat} {w now : Int} {interval : Interval} {act : Act}
  {tr pre post : List (Sys × Act)}

/-- The time of the batch in which the step calls the timer with sequence `q`. -/
def Act.firesAt (q : Nat) (s : Sys) : Act → Option Int
  | run =>
    match s.phase with
    | .calling now _ (e :: _) => if (s.heap (ofLex e).2).any fun t => t.sequence = q then some now else none
    | .calling _ _ [] | .idle => none
  | addTimer _ _ _ | addTimerInLoop _ _ | cancelInLoop _ | handleRead _ | reset _ => none

/-- The times of the batches in which the steps of a run call it. -/
def fired (q : Nat) (tr : List (Sys × Act)) : List Int := tr.filterMap fun p => p.2.firesAt q p.1

/-- When it is due after that. -/
def due (w : Int) (interval : Interval) (times : List Int) : Int :=
  match times.getLast? with
  | none => w
  | some n => addTime n interval

def Spaced (interval : Interval) (times : List Int) : Prop := times.IsChain fun m n => addTime m interval ≤ n

theorem fired_snoc (q : Nat) (tr : List (Sys × Act)) (s : Sys) (act : Act) :
    fired q (tr ++ [(s, act)]) = fired q tr ++ (act.firesAt q s).toList := by
  cases h : act.firesAt q s <;> simp [fired, h]

/-! ## Times that are spaced -/

theorem spaced_snoc {times : List Int} (h : Spaced interval times) (hn : due w interval times ≤ now) :
    Spaced interval (times ++ [now]) := by
  refine List.isChain_append.2 ⟨h, .singleton _, fun m hm n hn' => ?_⟩
  rw [due, show times.getLast? = some m from hm] at hn
  cases hn'
  exact hn

/-- The time with index `k` is as late as `k` intervals make it. -/
theorem Spaced.le {times : List Int} (h : Spaced interval times) (h0 : ∀ n ∈ times.head?, w ≤ n) (k : Nat) {n : Int}
    (hk : times[k]? = some n) : w + k * interval.delta ≤ n := by
  induction times generalizing w k with
  | nil => cases hk
  | cons m times ih =>
    have hm : w ≤ m := h0 m rfl
    cases k with
    | zero =>
      cases hk
      simpa using hm
    | succ k =>
      have hchain := List.isChain_cons.1 h
      have := ih (w := m + interval.delta) hchain.2 (fun n hn => hchain.1 n hn) k hk
      rw [Int.natCast_succ, Int.add_mul, Int.one_mul]
      omega

/-! ## What a step does to a timer -/

/-- A timer that is due in a batch is due at its time. -/
theorem batch_due (h : Run (machine calling0) tr s) {done todo : List Entry} (hp : s.phase = .calling now done todo)
    {e : Entry} (he : e ∈ todo) : ∃ t, s.heap (ofLex e).2 = some t ∧ t.expiration ≤ now := by
  obtain ⟨pre, r, mid, rfl, hmid⟩ := read_of_batch h hp
  obtain ⟨r₀, hr, hbatch⟩ := Steps.split h
  obtain rfl : r₀ = r := by cases hbatch; rfl
  obtain ⟨batch, rest, hB, -, hp', hrest, hheap⟩ := (run_sound_all hr).batch_steps hbatch hmid
  cases hp.symm.trans hp'
  have hmem : e ∈ batch := hrest ▸ List.mem_append_right _ he
  obtain ⟨hle, t, ht, hw⟩ := (hB.due (ofLex e).1 (ofLex e).2).1 hmem
  exact ⟨t, (hheap _ (List.mem_map_of_mem hmem)).trans hw.heap, ht ▸ hle⟩

/-- No other step than `reset` changes a timer, or brings it to life. -/
theorem Sound.timer_back (S : Sound s) (he : (machine calling0).enabled s act)
    (hx : (machine calling0).exec s act = some s') (hreset : act.isReset = false) (hq : q ≤ s.numCreated) {v : Timer}
    (hv : s'.heap b = some v) (hseq : v.sequence = q) : s.heap b = some v := by
  cases act with
  | addTimer a w i =>
    cases hx
    by_cases hb : b = a
    · subst hb
      change Function.update s.heap b _ b = _ at hv
      rw [Function.update_self] at hv
      cases hv
      change s.numCreated + 1 = q at hseq
      omega
    · exact (Function.update_of_ne hb _ _).symm.trans hv
  | addTimerInLoop a clock =>
    obtain ⟨t, fd, -, hx', -⟩ := addTimerInLoop_spec S.rep he.1 clock
    simp only [machine, hx'] at hx
    cases hx
    exact hv
  | cancelInLoop id =>
    rcases cancelInLoop_spec S.rep id with ⟨t, -, -, -, hc, -⟩ | ⟨-, hc⟩
    · simp only [machine, hc] at hx
      cases hx
      change Function.update s.heap _ _ b = _ at hv
      by_cases hb : b = id.timer
      · subst hb
        rw [Function.update_self] at hv
        cases hv
      · rwa [Function.update_of_ne hb] at hv
    · simp only [machine, hc] at hx
      split at hx
      · cases hx
        exact hv
      · cases hx
        exact hv
  | handleRead n =>
    obtain ⟨batch, -, -, hh⟩ := S.handleRead_batch he hx
    exact hh ▸ hv
  | run =>
    obtain ⟨now, done, e, todo, hp⟩ := Phase.next_ne_none he
    cases (run_spec calling0 S hp).1.symm.trans hx
    exact hv
  | reset clock => cases hreset

/-- What is known of the timer that was added for `w`, after these steps. -/
structure Paced (q : Nat) (w : Int) (interval : Interval) (tr : List (Sys × Act)) (s : Sys) : Prop where
  born : q ≤ s.numCreated
  spaced : Spaced interval (fired q tr)
  first : ∀ n ∈ (fired q tr).head?, w ≤ n
  once : interval.positive = false → (fired q tr).length ≤ 1
  interval_eq : ∀ b v, s.heap b = some v → v.sequence = q → v.interval = interval
  /-- Before its turn, and after `reset`. -/
  ahead : ∀ b v, s.heap b = some v → v.sequence = q → b ∉ addrs s.phase.done →
    v.expiration = due w interval (fired q tr) ∧ (interval.positive = false → fired q tr = [])
  behind : ∀ b v, s.heap b = some v → v.sequence = q → b ∈ addrs s.phase.done →
    ∃ now done todo, s.phase = .calling now done todo ∧ (fired q tr).getLast? = some now

theorem Sound.numCreated_le (S : Sound s) (he : (machine calling0).enabled s act)
    (hx : (machine calling0).exec s act = some s') : s.numCreated ≤ s'.numCreated := by
  cases act with
  | addTimer a w i =>
    cases hx
    exact Nat.le_succ _
  | addTimerInLoop a clock =>
    obtain ⟨t, fd, -, hx', -⟩ := addTimerInLoop_spec S.rep he.1 clock
    simp only [machine, hx'] at hx
    cases hx
    exact Nat.le_refl _
  | cancelInLoop id =>
    rcases cancelInLoop_spec S.rep id with ⟨t, -, -, -, hc, -⟩ | ⟨-, hc⟩
    · simp only [machine, hc] at hx
      cases hx
      exact Nat.le_refl _
    · simp only [machine, hc] at hx
      split at hx
      · cases hx
        exact Nat.le_refl _
      · cases hx
        exact Nat.le_refl _
  | handleRead n =>
    obtain ⟨active', hx', -⟩ := handleRead_spec (S.rep_idle he) n
    simp only [machine, hx'] at hx
    cases hx
    exact Nat.le_refl _
  | run =>
    obtain ⟨now, done, e, todo, hp⟩ := Phase.next_ne_none he
    cases (run_spec calling0 S hp).1.symm.trans hx
    exact Nat.le_refl _
  | reset clock =>
    obtain ⟨now, done, hp⟩ := Phase.next_none he.1 he.2
    obtain ⟨t, hr, -, hn, -⟩ := reset_spec (done ++ []) now clock (S.rep_batch hp)
    simp only [machine, hp, hr] at hx
    cases hx
    exact Nat.le_of_eq hn.symm

/-- A step that does not call the timer, and ends no batch. -/
theorem Paced.quiet (P : Paced q w interval tr s) (hf : act.firesAt q s = none)
    (hback : ∀ b v, s'.heap b = some v → v.sequence = q → s.heap b = some v) (hn : s.numCreated ≤ s'.numCreated)
    (hdone : ∀ b v, s.heap b = some v → v.sequence = q → (b ∈ addrs s'.phase.done ↔ b ∈ addrs s.phase.done))
    (hphase : ∀ now done todo, s.phase = .calling now done todo → done ≠ [] →
      ∃ done todo, s'.phase = .calling now done todo) : Paced q w interval (tr ++ [(s, act)]) s' := by
  have htr : fired q (tr ++ [(s, act)]) = fired q tr := by
    rw [fired_snoc, hf, Option.toList_none, List.append_nil]
  refine ⟨Nat.le_trans P.born hn, ?_, ?_, ?_, fun b v hv hq => P.interval_eq b v (hback b v hv hq) hq, ?_, ?_⟩
  all_goals rw [htr]
  · exact P.spaced
  · exact P.first
  · exact P.once
  · intro b v hv hq hb
    have hv' := hback b v hv hq
    exact P.ahead b v hv' hq fun h => hb ((hdone b v hv' hq).2 h)
  · intro b v hv hq hb
    have hv' := hback b v hv hq
    have hb' := (hdone b v hv' hq).1 hb
    obtain ⟨now, done, todo, hp, hlast⟩ := P.behind b v hv' hq hb'
    obtain ⟨done', todo', hp'⟩ := hphase now done todo hp fun h => by
      rw [hp, h] at hb'
      cases hb'
    exact ⟨now, done', todo', hp', hlast⟩

/-- The next timer of the batch is called. -/
theorem Paced.run (P : Paced q w interval tr s) (S : Sound s) (h : Run (machine calling0) pre s)
    (hx : (machine calling0).exec s .run = some s') {done todo : List Entry} {e : Entry}
    (hp : s.phase = .calling now done (e :: todo)) : Paced q w interval (tr ++ [(s, .run)]) s' := by
  cases (run_spec calling0 S hp).1.symm.trans hx
  obtain ⟨v, hv, hdue⟩ := batch_due h hp List.mem_cons_self
  have hmem (b : Addr) : b ∈ addrs (done ++ [e]) ↔ b ∈ addrs done ∨ b = (ofLex e).2 := by
    rw [addrs_append, List.mem_append]
    exact or_congr Iff.rfl List.mem_singleton
  by_cases hq : v.sequence = q
  · have hout : (ofLex e).2 ∉ addrs s.phase.done := by
      intro hd
      have hn := S.batch_nodup
      rw [hp] at hn hd
      exact (List.nodup_append.1 hn).2.2 _ hd _ List.mem_cons_self rfl
    obtain ⟨hexp, hone⟩ := P.ahead _ v hv hq hout
    have htr : fired q (tr ++ [(s, .run)]) = fired q tr ++ [now] := by
      simp [fired_snoc, Act.firesAt, hp, hv, hq]
    have hnow : due w interval (fired q tr) ≤ now := hexp ▸ hdue
    have hself (b : Addr) (u : Timer) (hu : s.heap b = some u) (hs : u.sequence = q) : b = (ofLex e).2 :=
      S.rep.objects.inj _ _ u v hu hv (hs.trans hq.symm)
    refine ⟨P.born, ?_, ?_, ?_, P.interval_eq, ?_, ?_⟩
    all_goals rw [htr]
    · exact spaced_snoc P.spaced hnow
    · intro n hn
      cases hl : fired q tr with
      | nil =>
        rw [hl] at hn hnow
        cases hn
        exact hnow
      | cons m times =>
        rw [hl] at hn
        exact P.first n (by rw [hl]; exact hn)
    · intro hpos
      rw [hone hpos]
      exact Nat.le_refl 1
    · intro b u hu hs hb
      exact absurd ((hmem b).2 (.inr (hself b u hu hs))) hb
    · intro b u hu hs hb
      exact ⟨now, done ++ [e], todo, rfl, List.getLast?_concat ..⟩
  · refine P.quiet ?_ (fun b u hu _ => hu) (Nat.le_refl _) (fun b u hu hs => ?_) (fun n d r hp' _ => ?_)
    · simp [Act.firesAt, hp, hv, hq]
    · rw [hp]
      refine (hmem b).trans (or_iff_left ?_)
      rintro rfl
      cases hu.symm.trans hv
      exact hq hs
    · cases hp.symm.trans hp'
      exact ⟨_, _, rfl⟩

/-- The batch is over, and the timer waits again for its time and the interval. -/
theorem Paced.reset {clock : Int} (P : Paced q w interval tr s) (S : Sound s)
    (he : (machine calling0).enabled s (.reset clock)) (hx : (machine calling0).exec s (.reset clock) = some s') :
    Paced q w interval (tr ++ [(s, .reset clock)]) s' := by
  have hn := S.numCreated_le he hx
  obtain ⟨now, done, hp, hidle, -, -, hb⟩ := S.reset_leaves he hx
  have htr : fired q (tr ++ [(s, .reset clock)]) = fired q tr := by
    rw [fired_snoc]
    exact List.append_nil _
  -- a timer of the batch that is left has been restarted
  have back (b : Addr) (v : Timer) (hv : s'.heap b = some v) (hq : v.sequence = q) :
      (b ∉ addrs done ∧ s.heap b = some v) ∨
        ∃ u, b ∈ addrs done ∧ s.heap b = some u ∧ u.sequence = q ∧ u.repeat_ = true ∧ v = u.restart now := by
    rw [hb b] at hv
    split at hv
    · rename_i hmem
      obtain ⟨u, hu, hv⟩ := Option.bind_eq_some_iff.1 hv
      rw [settled] at hv
      split at hv
      · rename_i hrep
        cases hv
        exact .inr ⟨u, hmem, hu, hq, hrep.1, rfl⟩
      · cases hv
    · rename_i hmem
      exact .inl ⟨hmem, hv⟩
  have hdone : s.phase.done = done := by rw [hp]; rfl
  refine ⟨Nat.le_trans P.born hn, ?_, ?_, ?_, ?_, ?_, ?_⟩
  all_goals try rw [htr]
  · exact P.spaced
  · exact P.first
  · exact P.once
  · intro b v hv hq
    rcases back b v hv hq with ⟨-, h⟩ | ⟨u, -, hu, hs, -, rfl⟩
    · exact P.interval_eq b v h hq
    · exact P.interval_eq b u hu hs
  · intro b v hv hq _
    rcases back b v hv hq with ⟨hmem, h⟩ | ⟨u, hmem, hu, hs, hrep, rfl⟩
    · exact P.ahead b v h hq (hdone ▸ hmem)
    · have hi := P.interval_eq b u hu hs
      obtain ⟨now', done', todo', hp', hlast⟩ := P.behind b u hu hs (hdone ▸ hmem)
      cases hp.symm.trans hp'
      refine ⟨?_, fun hpos => ?_⟩
      · rw [Timer.restart, if_pos hrep, due, hlast, hi]
      · rw [Timer.repeat_, hi, hpos] at hrep
        cases hrep
  · intro b v _ _ hbd
    rw [hidle] at hbd
    cases hbd

theorem step_paced (P : Paced q w interval tr s) (h : Run (machine calling0) pre s)
    (he : (machine calling0).enabled s act) (hx : (machine calling0).exec s act = some s') :
    Paced q w interval (tr ++ [(s, act)]) s' := by
  have S := run_sound_all h
  have hn := S.numCreated_le he hx
  by_cases hrun : act = .run
  · subst hrun
    obtain ⟨now, done, e, todo, hp⟩ := Phase.next_ne_none he
    exact P.run S h hx hp
  by_cases hreset : act.isReset = true
  · cases act with
    | reset clock => exact P.reset S he hx
    | _ => cases hreset
  have hreset : act.isReset = false := Bool.not_eq_true _ ▸ hreset
  have hf : act.firesAt q s = none := by
    cases act with
    | run => exact absurd rfl hrun
    | _ => rfl
  have hback (b : Addr) (v : Timer) (hv : s'.heap b = some v) (hq : v.sequence = q) : s.heap b = some v :=
    S.timer_back he hx hreset P.born hv hq
  have hcalls : act.calls s = none := by
    cases act with
    | run => exact absurd rfl hrun
    | _ => rfl
  cases hp : s.phase with
  | idle =>
    have hdone : s'.phase.done = [] := by
      cases act with
      | handleRead n =>
        obtain ⟨batch, -, hb, -⟩ := S.handleRead_batch hp hx
        rw [hb]
        rfl
      | addTimer a w i =>
        cases hx
        rw [hp]
        rfl
      | addTimerInLoop a clock | cancelInLoop id =>
        obtain ⟨_, -, rfl⟩ := Option.map_eq_some_iff.1 hx
        dsimp only
        rw [hp]
        rfl
      | run => exact absurd rfl hrun
      | reset clock => cases hreset
    refine P.quiet hf hback hn (fun b v _ _ => ?_) (fun n d r hp' _ => absurd (hp.symm.trans hp') nofun)
    rw [hdone, hp]
    rfl
  | calling now done todo =>
    obtain ⟨⟨rest, hp', -⟩, -⟩ := S.step_batch he hx hreset hp
    rw [hcalls, Option.toList_none, List.append_nil] at hp'
    refine P.quiet hf hback hn (fun b v _ _ => ?_) (fun n d r h _ => ?_)
    · rw [hp, hp']
      rfl
    · cases hp.symm.trans h
      exact ⟨done, rest, hp'⟩

theorem paced_new (S : Sound t) (he : (machine calling0).enabled t (.addTimer a w interval))
    (hx : (machine calling0).exec t (.addTimer a w interval) = some s) :
    Paced (t.numCreated + 1) w interval [] s := by
  cases hx
  obtain ⟨-, -, ha⟩ := he
  -- an older timer has a smaller sequence
  have new (b : Addr) (v : Timer) (hv : Function.update t.heap a (some ⟨w, interval, t.numCreated + 1⟩) b = some v)
      (hq : v.sequence = t.numCreated + 1) : b = a ∧ v = ⟨w, interval, t.numCreated + 1⟩ := by
    by_cases hb : b = a
    · subst hb
      rw [Function.update_self] at hv
      cases hv
      exact ⟨rfl, rfl⟩
    · rw [Function.update_of_ne hb] at hv
      have := (S.rep.objects.seq b v hv).2.1
      omega
  refine ⟨Nat.le_refl _, .nil, fun n hn => ?_, fun _ => Nat.zero_le _, fun b v hv hq => ?_, fun b v hv hq _ => ?_,
    fun b v hv hq hb => ?_⟩
  · cases hn
  · rw [(new b v hv hq).2]
  · rw [(new b v hv hq).2]
    exact ⟨rfl, fun _ => rfl⟩
  · obtain ⟨rfl, -⟩ := new b v hv hq
    refine absurd ha ((S.rep.held b).1 (List.mem_append_right _ (List.mem_append_right _ ?_)))
    rw [Phase.batch_eq, addrs_append]
    exact List.mem_append_left _ hb

/-- A timer that is added for `w` with an interval is called first in a batch
whose time is `w` or later, and then each time in one whose time is at least the
interval after that of the batch before: the batch of its call `k + 1` is not
before `w` and `k` intervals. Without an interval it is called once at most. -/
theorem timer_pace (h : Run (machine calling0) (pre ++ (t, .addTimer a w interval) :: post) s) :
    (∀ n ∈ (fired (t.numCreated + 1) post).head?, w ≤ n) ∧
    (fired (t.numCreated + 1) post).IsChain (fun m n => addTime m interval ≤ n) ∧
    (∀ (k : Nat) n, (fired (t.numCreated + 1) post)[k]? = some n → w + k * interval.delta ≤ n) ∧
    (interval.positive = false → (fired (t.numCreated + 1) post).length ≤ 1) := by
  obtain ⟨t', hpre, hpost⟩ := h.split
  cases hpost with
  | @cons _ s₁ _ _ _ he hx hpost =>
    have S := run_sound_all hpre
    have h₁ : Run (machine calling0) (pre ++ [(t, .addTimer a w interval)]) s₁ := Steps.snoc hpre he hx
    have P : Paced (t.numCreated + 1) w interval post s := by
      refine Steps.inv_trace (fun tr s => Paced (t.numCreated + 1) w interval tr s) (paced_new S he hx) ?_ hpost
      intro tr v act v' hv P he hx
      exact step_paced P (h₁.append hv) he hx
    exact ⟨P.first, P.spaced, fun k n => P.spaced.le P.first k, P.once⟩

/-- The address is that of a timer that is gone. The loop is late for the second
call, and the third comes no sooner for it. -/
theorem timer_pace_late : ∃ pre t post s, Run (machine false) (pre ++ (t, .addTimer 8 5 ⟨true, 7⟩) :: post) s ∧
    t.numCreated = 1 ∧ fired 2 post = [10, 40, 47] ∧
    (fired (t.numCreated + 1) post).IsChain (fun m n => addTime m ⟨true, 7⟩ ≤ n) := by
  obtain ⟨r, hr, he, hn, q, hq, hf⟩ : ∃ r ∈ (machine false).play (machine false).init
      [.addTimer 8 1 ⟨false, 0⟩, .addTimerInLoop 8 1, .handleRead 2, .run, .reset 3],
      (machine false).enabled r.2 (.addTimer 8 5 ⟨true, 7⟩) ∧ r.2.numCreated = 1 ∧
      ∃ q ∈ (machine false).play
        { r.2 with
          heap := Function.update r.2.heap 8 (some ⟨5, ⟨true, 7⟩, r.2.numCreated + 1⟩)
          numCreated := r.2.numCreated + 1
          queued := r.2.queued ++ [8]
          issued := r.2.issued ++ [⟨8, r.2.numCreated + 1⟩] }
        [.addTimerInLoop 8 4, .handleRead 10, .run, .reset 11, .handleRead 40, .run, .reset 41, .handleRead 46, .reset 46,
          .handleRead 47, .run],
      fired 2 q.1 = [10, 40, 47] := by decide +kernel
  have hrun := (Machine.play_steps hr).append (.cons he rfl (Machine.play_steps hq))
  exact ⟨r.1, r.2, q.1, q.2, hrun, hn, hf, (timer_pace hrun).2.1⟩

end Cppnetool.TimerQueue
