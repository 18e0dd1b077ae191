import Cppnetool.TimerQueueRuns
/-!
# The alarm

The timer descriptor is set in two places only: when an insertion changes the
earliest timer, and at the end of a batch. Between two batches its deadline
covers every waiting timer; during a batch it covers those whose expiration is
not a valid timestamp, for which the end of the batch sets nothing.
-/
open Lib

namespace Cppnetool.TimerQueue

variable {calling0 : Bool} {s s' : St} {a : Addr} {now clock w w' : Int} {fd : Option Arming}

/-- A value that `timerfd_settime` takes and that does not disarm. -/
def Timespec.Settable (ts : Timespec) : Prop := ts ≠ ⟨0, 0⟩ ∧ 0 ≤ ts.tv_nsec ∧ ts.tv_nsec < 1000000000

/-- The descriptor is armed, or has fired and is not read, and its deadline is
late for `w` by no more than the least setting. -/
def Covers (fd : Option Arming) (w : Int) : Prop := ∃ a ∈ fd, a.deadline ≤ max w (a.clock + 100)

/-- What is assumed of the clock and of a `double`: the time is positive, and
a positive interval is not a negative `delta`. -/
def Clocked : Act → Prop
  | .addTimer _ _ interval => interval.positive = true → 0 ≤ interval.delta
  | .handleRead now => 0 < now
  | _ => True

instance : ∀ a, Decidable (Clocked a)
  | .addTimer _ _ _ => inferInstanceAs (Decidable (_ → _))
  | .handleRead now => inferInstanceAs (Decidable (0 < now))
  | .addTimerInLoop _ _ | .cancelInLoop _ | .run | .reset _ => .isTrue trivial

/-! ## The values set -/

theorem howMuchTimeFromNow_settable (when clock : Int) : (howMuchTimeFromNow when clock).Settable := by
  have h : 100 ≤ max (when - clock) 100 := le_max_right ..
  unfold howMuchTimeFromNow Timespec.Settable
  dsimp only [kMicroSecondsPerSecond]
  generalize max (when - clock) 100 = microseconds at h
  refine ⟨?_, by omega, by omega⟩
  intro he
  simp only [Timespec.mk.injEq] at he
  omega

theorem deadline_eq (when clock : Int) :
    (⟨clock, howMuchTimeFromNow when clock⟩ : Arming).deadline = max when (clock + 100) := by
  simp only [Arming.deadline, howMuchTimeFromNow, kMicroSecondsPerSecond]
  omega

theorem Covers.mono (h : Covers fd w) (hw : w ≤ w') : Covers fd w' := by
  obtain ⟨a, ha, hd⟩ := h
  exact ⟨a, ha, by omega⟩

theorem covers_reset (s : St) (w clock : Int) : Covers (resetTimerfd s w clock).timerfd w :=
  ⟨_, rfl, le_of_eq (deadline_eq w clock)⟩

/-- `timers_` is ordered by expiration first. -/
theorem first_expiration {timers : OrdSet Entry} {e e' : Entry} (h : timers.first = some e) (h' : e' ∈ timers) :
    (ofLex e).1 ≤ (ofLex e').1 := by
  rcases Prod.Lex.le_iff.1 (OrdSet.first_le h h') with h | ⟨h, -⟩
  · exact le_of_lt h
  · exact le_of_eq h

/-! ## What the operations do to the descriptor -/

/-- An insertion that changes the earliest timer sets the descriptor for it;
any other comes after a timer that waits already. -/
theorem addTimerInLoop_cases (h : addTimerInLoop s a clock = some s') :
    ∃ t, s.heap a = some t ∧ s'.heap = s.heap ∧ s'.timers = s.timers.insert (toLex (t.expiration, a)) ∧
      ((s'.timerfd = (resetTimerfd s t.expiration clock).timerfd ∧ ∀ e ∈ s'.timers, t.expiration ≤ (ofLex e).1) ∨
        (s'.timerfd = s.timerfd ∧ ∃ e ∈ s.timers, (ofLex e).1 ≤ t.expiration)) := by
  obtain ⟨r, hr, h⟩ := Option.bind_eq_some_iff.1 h
  obtain ⟨t, ht, rfl⟩ := insert_cases hr
  dsimp only at h
  rw [earliestChanged] at h
  cases hf : s.timers.first with
  | none =>
    rw [hf, if_pos rfl, show (inserted s a t).heap a = some t from ht] at h
    cases h
    refine ⟨t, ht, rfl, rfl, .inl ⟨rfl, ?_⟩⟩
    intro e he
    rcases OrdSet.mem_insert.1 he with rfl | he
    · exact le_rfl
    · exact absurd he (OrdSet.first_eq_none.1 hf e)
  | some e₀ =>
    rw [hf] at h
    by_cases hlt : t.expiration < (ofLex e₀).1
    · rw [if_pos (by simpa using hlt), show (inserted s a t).heap a = some t from ht] at h
      cases h
      refine ⟨t, ht, rfl, rfl, .inl ⟨rfl, ?_⟩⟩
      intro e he
      rcases OrdSet.mem_insert.1 he with rfl | he
      · exact le_rfl
      · exact (le_of_lt hlt).trans (first_expiration hf he)
    · rw [if_neg (by simpa using hlt)] at h
      cases h
      exact ⟨t, ht, rfl, rfl, .inr ⟨rfl, e₀, OrdSet.first_mem hf, Int.not_lt.1 hlt⟩⟩

/-- No `double` of a timer is taken for a negative `delta`. -/
def Fair (heap : Addr → Option Timer) : Prop :=
  ∀ a t, heap a = some t → t.interval.positive = true → 0 ≤ t.interval.delta

theorem Fair.update (hF : Fair s.heap) {t : Timer} (ht : t.interval.positive = true → 0 ≤ t.interval.delta) :
    Fair (Function.update s.heap a (some t)) := by
  intro b u hu
  by_cases hb : b = a
  · subst hb
    rw [Function.update_self] at hu
    cases hu
    exact ht
  · rw [Function.update_of_ne hb] at hu
    exact hF b u hu

theorem Fair.delete (hF : Fair s.heap) : Fair (Function.update s.heap a none) := by
  intro b u hu
  by_cases hb : b = a
  · subst hb
    rw [Function.update_self] at hu
    cases hu
  · rw [Function.update_of_ne hb] at hu
    exact hF b u hu

/-- What `reset` puts back expires at `now` or later; the descriptor is left alone. -/
theorem resetExpired_cases {es : List Entry} (hF : Fair s.heap) (h : resetExpired now es s = some s') :
    s'.timerfd = s.timerfd ∧ Fair s'.heap ∧ ∀ e ∈ s'.timers, e ∈ s.timers ∨ now ≤ (ofLex e).1 := by
  induction es generalizing s with
  | nil =>
    cases h
    exact ⟨rfl, hF, fun e he => .inl he⟩
  | cons e es ih =>
    unfold resetExpired at h
    obtain ⟨t, ht, h⟩ := Option.bind_eq_some_iff.1 h
    dsimp only at h
    split at h
    · rename_i hc
      obtain ⟨r, hr, h⟩ := Option.bind_eq_some_iff.1 h
      obtain ⟨u, hu, rfl⟩ := insert_cases hr
      have hu : Function.update s.heap (ofLex e).2 (some (t.restart now)) (ofLex e).2 = some u := hu
      rw [Function.update_self] at hu
      cases hu
      obtain ⟨h1, h2, h3⟩ := ih (hF.update (t := t.restart now) (hF _ t ht)) h
      refine ⟨h1, h2, ?_⟩
      intro e' he'
      rcases h3 e' he' with he' | he'
      · rcases OrdSet.mem_insert.1 he' with rfl | he'
        · have := hF _ t ht hc.1
          simp only [Timer.restart, hc.1, if_true, addTime, ofLex_toLex]
          omega
        · exact .inl he'
      · exact .inr he'
    · obtain ⟨s₁, hs₁, h⟩ := Option.bind_eq_some_iff.1 h
      obtain ⟨u, -, hs₁⟩ := Option.bind_eq_some_iff.1 hs₁
      cases hs₁
      exact ih (s := { s with heap := Function.update s.heap (ofLex e).2 none, deleted := s.deleted ++ [u.sequence] })
        hF.delete h

/-- At the end of a batch the descriptor is set for the earliest timer, unless
its expiration is not valid. -/
theorem reset_cases {es : List Entry} {queued : List Addr} (R : Rep s queued (addrs es)) (hF : Fair s.heap)
    (h : reset s es now clock = some s') :
    Fair s'.heap ∧ (∀ e ∈ s'.timers, e ∈ s.timers ∨ now ≤ (ofLex e).1) ∧
      ((s'.timerfd = s.timerfd ∧ ∀ e ∈ s'.timers.first, (ofLex e).1 ≤ 0) ∨
        ∃ w, s'.timerfd = (resetTimerfd s w clock).timerfd ∧ ∀ e ∈ s'.timers, w ≤ (ofLex e).1) := by
  obtain ⟨s₁, hs₁, h⟩ := Option.bind_eq_some_iff.1 h
  obtain ⟨hfd, hF₁, hin⟩ := resetExpired_cases hF hs₁
  obtain ⟨_, hs₁', R₁, -⟩ := resetExpired_spec now es R
  cases hs₁'.symm.trans hs₁
  cases hf : s₁.timers.first with
  | none =>
    rw [hf] at h
    cases h
    refine ⟨hF₁, hin, .inl ⟨hfd, ?_⟩⟩
    intro e he
    rw [hf] at he
    cases he
  | some e =>
    rw [hf] at h
    obtain ⟨t, ht, h⟩ := Option.bind_eq_some_iff.1 h
    obtain ⟨u, hu, hw, -⟩ := R₁.tie.timer (ofLex e).1 (ofLex e).2 (OrdSet.first_mem hf)
    cases hu.symm.trans ht
    split at h
    · cases h
      refine ⟨hF₁, hin, .inr ⟨t.expiration, rfl, ?_⟩⟩
      intro e' he'
      rw [hw]
      exact first_expiration hf he'
    · rename_i hv
      cases h
      refine ⟨hF₁, hin, .inl ⟨hfd, ?_⟩⟩
      intro e' he'
      rw [hf] at he'
      cases he'
      rw [← hw]
      exact Int.not_lt.1 hv

/-! ## Runs -/

/-- Between batches every waiting timer is covered, in a batch those whose
expiration is not valid. -/
structure Alarm (s : Sys) : Prop where
  covered : ∀ e ∈ s.timers, s.phase = .idle ∨ (ofLex e).1 ≤ 0 → Covers s.timerfd (ofLex e).1
  settable : ∀ a ∈ s.timerfd, a.it_value.Settable
  time : ∀ now done todo, s.phase = .calling now done todo → 0 < now
  fair : Fair s.heap

theorem alarm_init (calling0 : Bool) : Alarm (machine calling0).init where
  covered e he := absurd he OrdSet.not_mem_empty
  settable _ ha := by cases ha
  time _ _ _ hp := by cases hp
  fair _ _ h := by cases h

section Step
variable {s s' : Sys} {act : Act} (A : Alarm s)
include A

theorem addTimerInLoop_alarm (hx : (machine calling0).exec s (.addTimerInLoop a clock) = some s') : Alarm s' := by
  obtain ⟨t, ht, rfl⟩ := Option.map_eq_some_iff.1 hx
  obtain ⟨timer, -, hheap, htimers, ⟨hfd, hall⟩ | ⟨hfd, e₀, he₀, hle⟩⟩ := addTimerInLoop_cases ht
  · refine ⟨?_, ?_, A.time, hheap ▸ A.fair⟩
    · intro e he _
      dsimp only at he ⊢
      rw [hfd]
      exact (covers_reset s.toSt timer.expiration clock).mono (hall e he)
    · intro b hb
      dsimp only at hb
      rw [hfd] at hb
      cases hb
      exact howMuchTimeFromNow_settable ..
  · refine ⟨?_, hfd ▸ A.settable, A.time, hheap ▸ A.fair⟩
    intro e he hp
    dsimp only at he hp ⊢
    rw [hfd]
    rw [htimers] at he
    rcases OrdSet.mem_insert.1 he with rfl | he
    · -- the new timer comes after one that was covered
      exact (A.covered e₀ he₀ (hp.imp id hle.trans)).mono hle
    · exact A.covered e he hp

theorem cancelInLoop_alarm (S : Sound s) {id : TimerId}
    (hx : (machine calling0).exec s (.cancelInLoop id) = some s') : Alarm s' := by
  obtain ⟨t, ht, rfl⟩ := Option.map_eq_some_iff.1 hx
  rcases cancelInLoop_spec S.rep id with ⟨timer, -, -, -, hc, -⟩ | ⟨-, hc⟩
  · cases hc.symm.trans ht
    exact ⟨fun e he => A.covered e (OrdSet.mem_erase.1 he).2, A.settable, A.time, A.fair.delete⟩
  · cases hc.symm.trans ht
    split
    · exact ⟨A.covered, A.settable, A.time, A.fair⟩
    · exact A

theorem handleRead_alarm (S : Sound s) (hidle : s.phase = .idle) (hnow : 0 < now)
    (hx : (machine calling0).exec s (.handleRead now) = some s') : Alarm s' := by
  obtain ⟨r, hr, rfl⟩ := Option.map_eq_some_iff.1 hx
  have R := S.rep
  rw [hidle] at R
  obtain ⟨active', hr', R'⟩ := handleRead_spec R now
  cases hr'.symm.trans hr
  refine ⟨?_, ?_, ?_, A.fair⟩
  · -- what is left after `getExpired` expires after `now`, which is positive
    intro e he hp
    have := R.late he
    rcases hp with hp | hp
    · cases hp
    · omega
  · intro b hb
    exact A.settable b (Option.mem_filter_iff.1 hb).1
  · intro now' done todo hp
    cases hp
    exact hnow

theorem reset_alarm (S : Sound s) (hx : (machine calling0).exec s (.reset clock) = some s') : Alarm s' := by
  simp only [machine] at hx
  split at hx
  · rename_i now done todo hp
    obtain ⟨t, ht, rfl⟩ := Option.map_eq_some_iff.1 hx
    obtain ⟨hF, hin, ⟨hfd, hfirst⟩ | ⟨w, hfd, hall⟩⟩ := reset_cases (S.rep_batch hp) A.fair ht
    · refine ⟨?_, hfd ▸ A.settable, (fun _ _ _ h => by cases h), hF⟩
      intro e he _
      dsimp only at he ⊢
      rw [hfd]
      -- the earliest timer was inserted by a callback, and was covered then
      cases hf : t.timers.first with
      | none => exact absurd he (OrdSet.first_eq_none.1 hf e)
      | some e₀ =>
        have hle : (ofLex e₀).1 ≤ 0 := hfirst e₀ hf
        have hnow := A.time now done todo hp
        rcases hin e₀ (OrdSet.first_mem hf) with h | h
        · exact (A.covered e₀ h (.inr hle)).mono (first_expiration hf he)
        · omega
    · refine ⟨?_, ?_, (fun _ _ _ h => by cases h), hF⟩
      · intro e he _
        dsimp only at he ⊢
        rw [hfd]
        exact (covers_reset _ w clock).mono (hall e he)
      · intro b hb
        dsimp only at hb
        rw [hfd] at hb
        cases hb
        exact howMuchTimeFromNow_settable ..
  · cases hx

/-- Every step keeps the alarm. -/
theorem step_alarm (S : Sound s) (he : (machine calling0).enabled s act) (hc : Clocked act)
    (hx : (machine calling0).exec s act = some s') : Alarm s' := by
  cases act with
  | addTimer a w i =>
    cases hx
    exact ⟨A.covered, A.settable, A.time, A.fair.update hc⟩
  | addTimerInLoop a clock => exact addTimerInLoop_alarm A hx
  | cancelInLoop id => exact cancelInLoop_alarm A S hx
  | handleRead now => exact handleRead_alarm A S he hc hx
  | run =>
    obtain ⟨now, done, e, todo, hp⟩ := Phase.next_ne_none he
    cases (run_spec calling0 S hp).1.symm.trans hx
    refine ⟨?_, A.settable, ?_, A.fair⟩
    · intro e' he' hq
      exact A.covered e' he' (hq.imp (fun h => by cases h) id)
    · intro now' done' todo' h
      cases h
      exact A.time now done (e :: todo) hp
  | reset clock => exact reset_alarm A S hx

end Step

/-- Over every run with a positive clock: between two batches, if a timer
waits, the descriptor is armed or has fired unread, and its deadline is no
later than the earliest expiration or 100 microseconds after the arming; and
every value it was set to is one that arms it. -/
theorem timer_not_forgotten (calling0 : Bool) {tr : List (Sys × Act)} {s : Sys} (h : Run (machine calling0) tr s)
    (hc : Meets (fun _ => Clocked) tr) : ∀ t, Visited tr s t →
      (t.phase = .idle → ∀ e ∈ t.timers.first, ∃ a ∈ t.timerfd, a.deadline ≤ max (ofLex e).1 (a.clock + 100)) ∧
      ∀ a ∈ t.timerfd, a.it_value.Settable := by
  intro t hv
  obtain ⟨pre, hr, hpre⟩ := Steps.visited h hv
  have hA : Alarm t :=
    (Run.inv_if (fun s => Sound s ∧ Alarm s) (fun _ => Clocked) ⟨sound_init calling0, alarm_init calling0⟩
      (fun s a s' ⟨S, A⟩ he hg hx => by
        obtain ⟨s'', hx', S', -⟩ := step_sound S he
        rw [hx] at hx'; cases hx'
        exact ⟨S', step_alarm A S he hg hx⟩) hr fun p hp => hc p (hpre.subset hp)).2
  exact ⟨fun hidle e he => hA.covered e (OrdSet.first_mem he) (.inl hidle), hA.settable⟩

/-- The callback of a timer adds one with the invalid timestamp: the end of the
batch sets nothing, and the setting made at its insertion stands. -/
theorem timer_not_forgotten_invalid : ∃ tr s, Run (machine true) tr s ∧ s.phase = .idle ∧
    s.timers.first = some (toLex (0, 2)) ∧ s.timerfd = some ⟨2001, ⟨0, 100000⟩⟩ ∧
    ∃ a ∈ s.timerfd, a.deadline ≤ max 0 (a.clock + 100) := by
  obtain ⟨r, hr, hp, hf, hfd, hG⟩ : ∃ r ∈ (machine true).play (machine true).init
      [.addTimer 1 1000 ⟨false, 0⟩, .addTimerInLoop 1 500, .handleRead 2000, .run, .addTimer 2 0 ⟨false, 0⟩,
        .addTimerInLoop 2 2001, .reset 2002],
      r.2.phase = .idle ∧ r.2.timers.first = some (toLex (0, 2)) ∧ r.2.timerfd = some ⟨2001, ⟨0, 100000⟩⟩ ∧
        Meets (fun _ => Clocked) r.1 := by decide
  have hrun := Machine.play_steps hr
  exact ⟨r.1, r.2, hrun, hp, hf, hfd, (timer_not_forgotten true hrun hG r.2 (.inr rfl)).1 hp _ hf⟩

end Cppnetool.TimerQueue
