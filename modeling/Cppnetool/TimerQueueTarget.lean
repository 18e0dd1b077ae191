import Mathlib.Data.List.DropRight
import Cppnetool.TimerQueueRuns
/-!
# What a cancellation leaves alone

An id names a timer by its address and its sequence, and the address may belong
to another timer by the time the id is cancelled. `Untouched` is what
`cancelInLoop` does to a timer of another sequence, which is nothing; and what
it notes in `cancelingTimers_` counts at the end of the batch against the timer
with that address and that sequence, and no other (`reset_heap`, `noted`).
-/
open Lib

namespace Cppnetool.TimerQueue

variable {calling0 : Bool} {s s' : Sys} {id : TimerId} {a b : Addr} {t : Timer} {now clock : Int}
  {tr pre mid : List (Sys × Act)}

/-! ## One cancellation -/

/-- The timer `t` is at `a` and in the two sets. -/
structure Waits (s : St) (a : Addr) (t : Timer) : Prop where
  heap : s.heap a = some t
  timers : toLex (t.expiration, a) ∈ s.timers
  active : toLex (a, t.sequence) ∈ s.activeTimers

/-- The timer `t` at `a` is where it was, and is noted as cancelled only if it was. -/
structure Untouched (s s' : Sys) (a : Addr) (t : Timer) : Prop where
  heap : s'.heap a = some t
  deleted : t.sequence ∉ s'.deleted
  timers : ∀ w, toLex (w, a) ∈ s'.timers ↔ toLex (w, a) ∈ s.timers
  active : ∀ q, toLex (a, q) ∈ s'.activeTimers ↔ toLex (a, q) ∈ s.activeTimers
  canceling : toLex (a, t.sequence) ∈ s'.cancelingTimers ↔ toLex (a, t.sequence) ∈ s.cancelingTimers
  held : s'.queued = s.queued ∧ s'.phase = s.phase

theorem Sound.cancel_untouched (S : Sound s) (hx : (machine calling0).exec s (.cancelInLoop id) = some s')
    (ha : s.heap a = some t) (hne : t.sequence ≠ id.sequence) : Untouched s s' a t := by
  have hdel := (S.rep.objects.seq a t ha).2.2
  rcases cancelInLoop_spec S.rep id with ⟨u, hu, hq, -, hc, -⟩ | ⟨-, hc⟩
  · -- the timer deleted is at another address
    have haddr : a ≠ id.timer := by
      rintro rfl
      cases ha.symm.trans hu
      exact hne hq
    simp only [machine, hc] at hx
    cases hx
    refine ⟨(Function.update_of_ne haddr _ _).trans ha, ?_, fun w => ?_, fun q => ?_, Iff.rfl, rfl, rfl⟩
    · intro h
      rcases List.mem_append.1 h with h | h
      · exact hdel h
      · exact hne ((List.mem_singleton.1 h).trans hq)
    · exact OrdSet.mem_erase.trans (and_iff_right fun e => haddr (Prod.mk.inj (toLex.injective e)).2)
    · exact OrdSet.mem_erase.trans (and_iff_right fun e => haddr (Prod.mk.inj (toLex.injective e)).1)
  · simp only [machine, hc] at hx
    split at hx
    · cases hx
      refine ⟨ha, hdel, fun _ => Iff.rfl, fun _ => Iff.rfl, ?_, rfl, rfl⟩
      exact OrdSet.mem_insert.trans (or_iff_right fun e => hne (Prod.mk.inj (toLex.injective e)).2)
    · cases hx
      exact ⟨ha, hdel, fun _ => Iff.rfl, fun _ => Iff.rfl, Iff.rfl, rfl, rfl⟩

/-! ## The end of a batch -/

/-- What `reset` leaves at `a` of a timer of the batch. -/
def settled (canceling : OrdSet ActiveTimer) (now : Int) (a : Addr) (t : Timer) : Option Timer :=
  if t.repeat_ ∧ toLex (a, t.sequence) ∉ canceling then some (t.restart now) else none

theorem addrs_cons (e : Entry) (es : List Entry) : addrs (e :: es) = (ofLex e).2 :: addrs es := rfl

theorem resetExpired_leaves {s s' : St} {es : List Entry} (hn : (addrs es).Nodup)
    (h : resetExpired now es s = some s') :
    s'.cancelingTimers = s.cancelingTimers ∧
      ∀ b, s'.heap b = if b ∈ addrs es then (s.heap b).bind (settled s.cancelingTimers now b) else s.heap b := by
  induction es generalizing s with
  | nil => cases h; simp [addrs]
  | cons e es ih =>
    obtain ⟨hnm, hn⟩ := List.nodup_cons.1 (addrs_cons e es ▸ hn)
    unfold resetExpired at h
    obtain ⟨t, ht, h⟩ := Option.bind_eq_some_iff.1 h
    dsimp only at h
    -- the head is settled, and the rest of the batch is at other addresses
    have main : ∀ s₁ : St, resetExpired now es s₁ = some s' →
        s₁.heap = Function.update s.heap (ofLex e).2 (settled s.cancelingTimers now (ofLex e).2 t) →
        s₁.cancelingTimers = s.cancelingTimers →
        s'.cancelingTimers = s.cancelingTimers ∧ ∀ b, s'.heap b =
          if b ∈ addrs (e :: es) then (s.heap b).bind (settled s.cancelingTimers now b) else s.heap b := by
      intro s₁ hr h₁ hc
      obtain ⟨hc', hb'⟩ := ih hn hr
      refine ⟨hc'.trans hc, ?_⟩
      intro b
      rw [hb' b, h₁, hc]
      by_cases hb : b = (ofLex e).2
      · subst hb
        rw [if_neg hnm, addrs_cons, if_pos List.mem_cons_self, Function.update_self, ht]
        rfl
      · have hmem : b ∈ addrs (e :: es) ↔ b ∈ addrs es := by simp [addrs_cons, hb]
        simp only [hmem, Function.update_of_ne hb]
    split at h
    · rename_i hc
      obtain ⟨r, hr, h⟩ := Option.bind_eq_some_iff.1 h
      obtain ⟨u, -, rfl⟩ := insert_cases hr
      exact main _ h (by rw [settled, if_pos hc]; rfl) rfl
    · rename_i hc
      obtain ⟨s₁, hs₁, h⟩ := Option.bind_eq_some_iff.1 h
      obtain ⟨u, -, hs₁⟩ := Option.bind_eq_some_iff.1 hs₁
      cases hs₁
      exact main _ h (by rw [settled, if_neg hc]) rfl

theorem reset_leaves {s s' : St} {es : List Entry} (hn : (addrs es).Nodup) (h : reset s es now clock = some s') :
    s'.cancelingTimers = s.cancelingTimers ∧
      ∀ b, s'.heap b = if b ∈ addrs es then (s.heap b).bind (settled s.cancelingTimers now b) else s.heap b := by
  obtain ⟨s₁, hs₁, h⟩ := Option.bind_eq_some_iff.1 h
  have hl := resetExpired_leaves hn hs₁
  cases hf : s₁.timers.first with
  | none =>
    rw [hf] at h
    cases h
    exact hl
  | some e =>
    rw [hf] at h
    obtain ⟨t, -, h⟩ := Option.bind_eq_some_iff.1 h
    split at h
    · cases h; exact hl
    · cases h; exact hl

/-- `reset` ends the batch: what it leaves at each address. -/
theorem Sound.reset_leaves (S : Sound s) (he : (machine calling0).enabled s (.reset clock))
    (hx : (machine calling0).exec s (.reset clock) = some s') :
    ∃ now done, s.phase = .calling now done [] ∧ s'.phase = .idle ∧ s'.queued = s.queued ∧
      s'.cancelingTimers = s.cancelingTimers ∧ ∀ b, s'.heap b =
        if b ∈ addrs done then (s.heap b).bind (settled s.cancelingTimers now b) else s.heap b := by
  obtain ⟨now, done, hp⟩ := Phase.next_none he.1 he.2
  have hn : (addrs (done ++ [])).Nodup := by
    have := S.batch_nodup
    rw [hp] at this
    rw [addrs_append]
    exact this
  simp only [machine, hp] at hx
  obtain ⟨t, hr, rfl⟩ := Option.map_eq_some_iff.1 hx
  obtain ⟨hc, hb⟩ := TimerQueue.reset_leaves hn hr
  rw [List.append_nil] at hb
  exact ⟨now, done, hp, rfl, rfl, hc, hb⟩

/-! ## What is noted -/

def Act.isRead : Act → Bool
  | handleRead _ => true
  | _ => false

/-- The steps since the last `handleRead` began. -/
def sinceRead (tr : List (Sys × Act)) : List (Sys × Act) := tr.rtakeWhile fun p => !p.2.isRead

/-- `id` was cancelled since the last `handleRead` began. -/
def Canceled (tr : List (Sys × Act)) (id : TimerId) : Prop := ∃ p ∈ sinceRead tr, p.2 = .cancelInLoop id

instance (tr : List (Sys × Act)) (id : TimerId) : Decidable (Canceled tr id) :=
  inferInstanceAs (Decidable (∃ p ∈ sinceRead tr, _))

theorem sinceRead_snoc {p : Sys × Act} (h : p.2.isRead = false) : sinceRead (tr ++ [p]) = sinceRead tr ++ [p] :=
  List.rtakeWhile_concat_pos _ _ _ (by rw [h]; rfl)

theorem sinceRead_read {p : Sys × Act} (h : p.2.isRead = true) : sinceRead (tr ++ [p]) = [] :=
  List.rtakeWhile_concat_neg _ _ _ (by rw [h]; decide)

theorem Canceled.snoc {p : Sys × Act} (h : Canceled tr id) (hp : p.2.isRead = false) : Canceled (tr ++ [p]) id := by
  obtain ⟨r, hr, e⟩ := h
  exact ⟨r, by rw [sinceRead_snoc hp]; exact List.mem_append_left _ hr, e⟩

/-- No operation but `cancelInLoop` notes anything, and `handleRead` forgets
what was noted. -/
theorem Sound.noted_step (S : Sound s) {act : Act} (he : (machine calling0).enabled s act)
    (hx : (machine calling0).exec s act = some s') {q : Nat} (hm : toLex (a, q) ∈ s'.cancelingTimers) :
    act.isRead = false ∧ (act = .cancelInLoop ⟨a, q⟩ ∨ toLex (a, q) ∈ s.cancelingTimers) := by
  cases act with
  | addTimer b w i => cases hx; exact ⟨rfl, .inr hm⟩
  | addTimerInLoop b clock =>
    obtain ⟨t, fd, -, hx', -⟩ := addTimerInLoop_spec S.rep he.1 clock
    simp only [machine, hx'] at hx
    cases hx
    exact ⟨rfl, .inr hm⟩
  | cancelInLoop id =>
    refine ⟨rfl, ?_⟩
    rcases cancelInLoop_spec S.rep id with ⟨t, -, -, -, hc, -⟩ | ⟨-, hc⟩
    · simp only [machine, hc] at hx
      cases hx
      exact .inr hm
    · simp only [machine, hc] at hx
      split at hx
      · cases hx
        refine (OrdSet.mem_insert.1 hm).imp_left fun e => ?_
        obtain ⟨rfl, rfl⟩ := Prod.mk.inj (toLex.injective e)
        rfl
      · cases hx
        exact .inr hm
  | handleRead now =>
    obtain ⟨active', hx', -⟩ := handleRead_spec (S.rep_idle he) now
    simp only [machine, hx'] at hx
    cases hx
    exact absurd hm OrdSet.not_mem_empty
  | run =>
    obtain ⟨now, done, e, todo, hp⟩ := Phase.next_ne_none he
    cases (run_spec calling0 S hp).1.symm.trans hx
    exact ⟨rfl, .inr hm⟩
  | reset clock =>
    obtain ⟨-, -, -, -, -, hc, -⟩ := S.reset_leaves he hx
    exact ⟨rfl, .inr (hc ▸ hm)⟩

theorem noted (h : Run (machine calling0) tr s) {q : Nat} (hm : toLex (a, q) ∈ s.cancelingTimers) :
    Canceled tr ⟨a, q⟩ := by
  refine Steps.inv_trace (fun tr s => ∀ a q, toLex (a, q) ∈ s.cancelingTimers → Canceled tr ⟨a, q⟩) ?_ ?_ h a q hm
  · intro a q h
    exact absurd h OrdSet.not_mem_empty
  · intro tr s act s' hr ih he hx a q hm
    obtain ⟨hread, hm⟩ := (run_sound_all hr).noted_step he hx hm
    rcases hm with rfl | hm
    · exact ⟨(s, _), by rw [sinceRead_snoc hread]; exact List.mem_append_right _ List.mem_cons_self, rfl⟩
    · exact (ih a q hm).snoc hread

/-- A repeating timer of the batch that is not noted goes back to the sets. -/
theorem Sound.reinserted (S : Sound s) (he : (machine calling0).enabled s (.reset clock))
    (hx : (machine calling0).exec s (.reset clock) = some s') (ha : a ∈ addrs s.phase.batch) (ht : s.heap a = some t)
    (hrep : t.repeat_ = true) (hc : toLex (a, t.sequence) ∉ s.cancelingTimers) :
    ∃ now done, s.phase = .calling now done [] ∧ Waits s'.toSt a (t.restart now) := by
  obtain ⟨now, done, hp, hidle, hq, -, hb⟩ := S.reset_leaves he hx
  obtain ⟨_, hx', S', -⟩ := step_sound S he
  cases hx'.symm.trans hx
  have hnq : a ∉ s.queued := fun h =>
    (List.nodup_append.1 S.rep.nodup).2.2 a h a (List.mem_append_right _ ha) rfl
  have ht' : s'.heap a = some (t.restart now) := by
    rw [hp, Phase.batch, List.append_nil] at ha
    rw [hb a, if_pos ha, ht]
    exact if_pos ⟨hrep, hc⟩
  -- it is held somewhere, and nothing else can hold it
  have hw : a ∈ waiting s'.timers := by
    have hheld := ((S'.rep_idle hidle).held a).2 (by rw [ht']; exact Option.some_ne_none _)
    rw [holders, List.append_nil, hq] at hheld
    exact (List.mem_append.1 hheld).resolve_left hnq
  exact ⟨now, done, hp, ht', (S'.rep.tie.mem_timers ht').2 ⟨rfl, hw⟩, (S'.rep.tie.mem_active ht').2 ⟨rfl, hw⟩⟩

/-! ## Runs -/

/-- Every id is given out for one timer. -/
theorem issued_nodup (h : Run (machine calling0) tr s) : (s.issued.map TimerId.sequence).Nodup := by
  have hI : Sound s ∧ (s.issued.map TimerId.sequence).Nodup := by
    refine h.inv (fun s => Sound s ∧ (s.issued.map TimerId.sequence).Nodup) ⟨sound_init calling0, .nil⟩ ?_
    rintro s act s' ⟨S, hn⟩ he hx
    obtain ⟨_, hx', S', -⟩ := step_sound S he
    cases hx'.symm.trans hx
    refine ⟨S', ?_⟩
    cases act with
    | addTimer a w i =>
      cases hx
      rw [List.map_append, List.nodup_append]
      refine ⟨hn, List.nodup_singleton _, ?_⟩
      intro q hq r hr
      obtain ⟨id, hid, rfl⟩ := List.mem_map.1 hq
      -- the ids given out before have smaller sequences
      have hle := (S.issued id hid).1.2
      rw [List.mem_singleton.1 hr]
      change id.sequence ≠ s.numCreated + 1
      omega
    | addTimerInLoop a clock => obtain ⟨_, -, rfl⟩ := Option.map_eq_some_iff.1 hx; exact hn
    | cancelInLoop id => obtain ⟨_, -, rfl⟩ := Option.map_eq_some_iff.1 hx; exact hn
    | handleRead now => obtain ⟨_, -, rfl⟩ := Option.map_eq_some_iff.1 hx; exact hn
    | run =>
      obtain ⟨now, done, e, todo, hp⟩ := Phase.next_ne_none he
      cases (run_spec calling0 S hp).1.symm.trans hx
      exact hn
    | reset clock =>
      obtain ⟨now, done, hp⟩ := Phase.next_none he.1 he.2
      simp only [machine, hp] at hx
      obtain ⟨_, -, rfl⟩ := Option.map_eq_some_iff.1 hx
      exact hn
  exact hI.2

/-- Over every run, with addresses given out again and ids cancelled whenever
and however often: a cancellation leaves every timer but its own where it is,
and at the end of a batch a repeating timer goes back to the sets unless its
own id was cancelled during that batch. -/
theorem cancel_target (h : Run (machine calling0) tr s) :
    (s.issued.map TimerId.sequence).Nodup ∧
    (∀ id s', (machine calling0).enabled s (.cancelInLoop id) →
      (machine calling0).exec s (.cancelInLoop id) = some s' →
      ∀ a t, s.heap a = some t → t.sequence ≠ id.sequence → Untouched s s' a t) ∧
    ∀ clock s', (machine calling0).enabled s (.reset clock) → (machine calling0).exec s (.reset clock) = some s' →
      ∀ a ∈ addrs s.phase.batch, ∀ t, s.heap a = some t → t.repeat_ = true → ¬ Canceled tr ⟨a, t.sequence⟩ →
        ∃ now done, s.phase = .calling now done [] ∧ Waits s'.toSt a (t.restart now) := by
  have S := run_sound_all h
  refine ⟨issued_nodup h, ?_, ?_⟩
  · intro id s' _ hx a t ha hne
    exact S.cancel_untouched hx ha hne
  · intro clock s' he hx a ha t ht hrep hc
    exact S.reinserted he hx ha ht hrep fun hm => hc (noted h hm)

/-- The second timer has the address of the first, whose id is cancelled from
the second's own callback. -/
theorem cancel_target_stale : ∃ tr s s', Run (machine false) tr s ∧
    (machine false).exec s (.reset 21) = some s' ∧ toLex (8, 1) ∈ s.cancelingTimers ∧
    Waits s'.toSt 8 ⟨27, ⟨true, 7⟩, 2⟩ := by
  obtain ⟨r, hr, hm, he, hb, ht, hc, hnow⟩ : ∃ r ∈ (machine false).play (machine false).init
      [.addTimer 8 5 ⟨false, 0⟩, .addTimerInLoop 8 1, .handleRead 10, .run, .reset 11, .addTimer 8 20 ⟨true, 7⟩,
        .addTimerInLoop 8 12, .handleRead 20, .run, .cancelInLoop ⟨8, 1⟩],
      toLex (8, 1) ∈ r.2.cancelingTimers ∧ (machine false).enabled r.2 (.reset 21) ∧ 8 ∈ addrs r.2.phase.batch ∧
        r.2.heap 8 = some ⟨20, ⟨true, 7⟩, 2⟩ ∧ ¬ Canceled r.1 ⟨8, 2⟩ ∧
        r.2.phase = .calling 20 [toLex (20, 8)] [] := by decide +kernel
  have hrun := Machine.play_steps hr
  obtain ⟨s', hx, -⟩ := step_sound (run_sound_all hrun) he
  obtain ⟨now, done, hp, hw⟩ := (cancel_target hrun).2.2 21 s' he hx 8 hb _ ht rfl hc
  cases hnow.symm.trans hp
  exact ⟨r.1, r.2, s', hrun, hx, hm, hw⟩

end Cppnetool.TimerQueue
