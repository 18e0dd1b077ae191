import Cppnetool.TimerQueueRep
/-!
# The timer queue's operations

One lemma for each: on a sound queue it does not fail, and the queue it leaves
is sound, with each timer's holder where the operation puts it.
-/
open Lib

namespace Cppnetool.TimerQueue

variable {heap : Addr → Option Timer} {timers : OrdSet Entry} {active : OrdSet ActiveTimer} {s : St}
  {queued batch : List Addr} {a b : Addr} {t : Timer} {q : Nat} {w now clock : Int}

/-! ## Holders -/

theorem waiting_insert (h : toLex (w, a) ∉ timers) :
    (waiting (timers.insert (toLex (w, a)))).Perm (a :: waiting timers) :=
  (OrdSet.insert_perm h).map _

theorem waiting_erase (h : toLex (w, a) ∈ timers) :
    (waiting timers).Perm (a :: waiting (timers.erase (toLex (w, a)))) :=
  (OrdSet.perm_erase h).map _

theorem waiting_split (timers : OrdSet Entry) (e : Entry) :
    waiting timers = addrs (timers.below e) ++ waiting (timers.above e) := by
  rw [waiting, waiting, addrs, addrs, addrs, ← List.map_append, OrdSet.below_append_above]

theorem holders_waiting {timers' : OrdSet Entry} (h : (waiting timers).Perm (a :: waiting timers')) :
    (holders queued timers batch).Perm (a :: holders queued timers' batch) :=
  ((h.append_right batch).append_left queued).trans List.perm_middle

theorem holders_queued (h : a ∈ queued) :
    (holders queued timers batch).Perm (a :: holders (queued.erase a) timers batch) :=
  (List.perm_cons_erase h).append_right _

theorem holders_batch : (holders queued timers (a :: batch)).Perm (a :: holders queued timers batch) :=
  (List.perm_middle.append_left queued).trans List.perm_middle

/-- A timer that is deleted leaves its only holder. -/
theorem held_delete {l l' : List Addr} (p : l.Perm (a :: l')) (hn : l.Nodup) (h : ∀ b, b ∈ l ↔ heap b ≠ none) :
    l'.Nodup ∧ ∀ b, b ∈ l' ↔ Function.update heap a none b ≠ none := by
  obtain ⟨ha, hn'⟩ := List.nodup_cons.1 (p.nodup_iff.1 hn)
  refine ⟨hn', ?_⟩
  intro b
  by_cases hb : b = a
  · subst hb; simp [ha]
  · rw [Function.update_of_ne hb, ← h b, p.mem_iff, List.mem_cons]
    simp [hb]

section Rep
variable (R : Rep s queued batch)
include R

theorem Rep.not_waiting_of_queued (h : a ∈ queued) : a ∉ waiting s.timers := fun hw =>
  (List.nodup_append.1 R.nodup).2.2 a h a (List.mem_append_left _ hw) rfl

theorem Rep.not_waiting_of_batch (h : a ∈ batch) : a ∉ waiting s.timers := fun hw =>
  (List.nodup_append.1 (List.nodup_append.1 R.nodup).2.1).2.2 a hw a h rfl

theorem Rep.heap_of_mem (h : a ∈ holders queued s.timers batch) : ∃ t, s.heap a = some t :=
  Option.ne_none_iff_exists'.1 ((R.held a).1 h)

/-- `addTimer` gives the new timer to the functor it queues. -/
theorem Rep.new (ha : s.heap a = none) (hlt : a < UINTPTR_MAX) (ht : t.sequence = s.numCreated + 1) :
    Rep { s with heap := Function.update s.heap a (some t), numCreated := s.numCreated + 1 } (queued ++ [a]) batch := by
  have hfresh : a ∉ holders queued s.timers batch := fun h => (R.held a).1 h ha
  have p : (holders (queued ++ [a]) s.timers batch).Perm (a :: holders queued s.timers batch) := by
    rw [holders, List.append_assoc]; exact List.perm_middle
  refine ⟨R.objects.new ha hlt ht, R.tie.frame ?_, ?_, ?_⟩
  · intro b hb
    refine Function.update_of_ne ?_ _ _
    rintro rfl
    exact hfresh (List.mem_append_right _ (List.mem_append_left _ hb))
  · exact p.nodup_iff.2 (List.nodup_cons.2 ⟨hfresh, R.nodup⟩)
  · intro b
    rw [p.mem_iff, List.mem_cons, R.held]
    by_cases hb : b = a
    · subst hb; simp
    · simp [hb]

end Rep

/-! ## Timers over time -/

/-- Each timer in the later heap was there before, with its sequence. -/
def Aged (heap heap' : Addr → Option Timer) : Prop :=
  ∀ a t', heap' a = some t' → ∃ t, heap a = some t ∧ t.sequence = t'.sequence

theorem Aged.refl (heap : Addr → Option Timer) : Aged heap heap := fun _ t' h => ⟨t', h, rfl⟩

theorem Aged.trans {heap₁ heap₂ heap₃ : Addr → Option Timer} (h : Aged heap₁ heap₂) (h' : Aged heap₂ heap₃) :
    Aged heap₁ heap₃ := by
  intro a t₃ h₃
  obtain ⟨t₂, h₂, e₂⟩ := h' a t₃ h₃
  obtain ⟨t₁, h₁, e₁⟩ := h a t₂ h₂
  exact ⟨t₁, h₁, e₁.trans e₂⟩

theorem Aged.delete (heap : Addr → Option Timer) (a : Addr) : Aged heap (Function.update heap a none) := by
  intro b t h
  by_cases hb : b = a
  · subst hb; rw [Function.update_self] at h; cases h
  · rw [Function.update_of_ne hb] at h; exact ⟨t, h, rfl⟩

theorem Aged.update {u : Timer} (ha : heap a = some t) (hu : u.sequence = t.sequence) :
    Aged heap (Function.update heap a (some u)) := by
  intro b v h
  by_cases hb : b = a
  · subst hb; rw [Function.update_self] at h; cases h; exact ⟨t, ha, hu.symm⟩
  · rw [Function.update_of_ne hb] at h; exact ⟨v, h, rfl⟩

/-! ## `insert` and `addTimerInLoop` -/

def inserted (s : St) (a : Addr) (t : Timer) : St :=
  { s with
    timers := s.timers.insert (toLex (t.expiration, a))
    activeTimers := s.activeTimers.insert (toLex (a, t.sequence)) }

theorem insert_spec (T : Tie s.heap s.timers s.activeTimers) (ha : s.heap a = some t) (hw : a ∉ waiting s.timers) :
    insert s a = some (inserted s a t, earliestChanged s t.expiration) := by
  have h1 : toLex (t.expiration, a) ∉ s.timers := fun h => hw ((T.mem_timers ha).1 h).2
  have h2 : toLex (a, t.sequence) ∉ s.activeTimers := fun h => hw ((T.mem_active ha).1 h).2
  unfold insert
  rw [assert_bind T.size, ha, some_bind, assert_bind h1, assert_bind h2, assert_bind (T.insert ha).size]
  rfl

theorem insert_cases {r : St × Bool} (h : insert s a = some r) :
    ∃ t, s.heap a = some t ∧ r = (inserted s a t, earliestChanged s t.expiration) := by
  unfold insert at h
  obtain ⟨_, -, h⟩ := Option.bind_eq_some_iff.1 h
  obtain ⟨t, ht, h⟩ := Option.bind_eq_some_iff.1 h
  obtain ⟨_, -, h⟩ := Option.bind_eq_some_iff.1 h
  obtain ⟨_, -, h⟩ := Option.bind_eq_some_iff.1 h
  obtain ⟨_, -, h⟩ := Option.bind_eq_some_iff.1 h
  exact ⟨t, ht, (Option.some.inj h).symm⟩

theorem waiting_inserted (T : Tie s.heap s.timers s.activeTimers) (ha : s.heap a = some t)
    (hw : a ∉ waiting s.timers) : (waiting (inserted s a t).timers).Perm (a :: waiting s.timers) :=
  waiting_insert fun h => hw ((T.mem_timers ha).1 h).2

/-- The functor hands its timer to the sets. -/
theorem addTimerInLoop_spec (R : Rep s queued batch) (h : a ∈ queued) (clock : Int) :
    ∃ t fd, s.heap a = some t ∧ addTimerInLoop s a clock = some { inserted s a t with timerfd := fd } ∧
      Rep { inserted s a t with timerfd := fd } (queued.erase a) batch := by
  obtain ⟨t, ha⟩ := R.heap_of_mem (List.mem_append_left _ h)
  have hw := R.not_waiting_of_queued h
  have p : (holders queued s.timers batch).Perm (holders (queued.erase a) (inserted s a t).timers batch) :=
    (holders_queued h).trans (holders_waiting (waiting_inserted R.tie ha hw)).symm
  have R' (fd : Option Arming) : Rep { inserted s a t with timerfd := fd } (queued.erase a) batch :=
    ⟨R.objects, R.tie.insert ha, p.nodup_iff.1 R.nodup, fun b => p.mem_iff.symm.trans (R.held b)⟩
  unfold addTimerInLoop
  rw [insert_spec R.tie ha hw, some_bind]
  dsimp only
  split
  · rw [show (inserted s a t).heap a = some t from ha, some_bind]
    exact ⟨t, _, ha, rfl, R' _⟩
  · exact ⟨t, s.timerfd, ha, rfl, R' _⟩

/-! ## `cancelInLoop` -/

/-- A waiting timer taken out of the sets and deleted. -/
def canceled (s : St) (a : Addr) (t : Timer) : St :=
  { s with
    heap := Function.update s.heap a none
    deleted := s.deleted ++ [t.sequence]
    timers := s.timers.erase (toLex (t.expiration, a))
    activeTimers := s.activeTimers.erase (toLex (a, t.sequence)) }

/-- A waiting timer is deleted, any other id is noted while callbacks run. -/
theorem cancelInLoop_spec (R : Rep s queued batch) (id : TimerId) :
    (∃ t, s.heap id.timer = some t ∧ t.sequence = id.sequence ∧ id.timer ∈ waiting s.timers ∧
      cancelInLoop s id = some (canceled s id.timer t) ∧ Rep (canceled s id.timer t) queued batch) ∨
    (toLex (id.timer, id.sequence) ∉ s.activeTimers ∧
      cancelInLoop s id = some
        (if s.callingExpiredTimers then
          { s with cancelingTimers := s.cancelingTimers.insert (toLex (id.timer, id.sequence)) }
        else s)) := by
  unfold cancelInLoop
  rw [assert_bind R.tie.size]
  by_cases hm : toLex (id.timer, id.sequence) ∈ s.activeTimers
  · obtain ⟨t, ha, hq, hm'⟩ := R.tie.active _ _ hm
    have hw := ((R.tie.mem_timers ha).1 hm').2
    have T : Tie (canceled s id.timer t).heap (canceled s id.timer t).timers (canceled s id.timer t).activeTimers := by
      refine (R.tie.erase ha).frame fun b hb => Function.update_of_ne ?_ _ _
      rintro rfl
      obtain ⟨hne, hmem⟩ := OrdSet.mem_erase.1 (mem_waiting.1 hb).choose_spec
      exact hne (congrArg toLex (Prod.ext ((R.tie.mem_timers ha).1 hmem).1 rfl))
    obtain ⟨hn, hheld⟩ := held_delete (holders_waiting (waiting_erase hm')) R.nodup R.held
    refine .inl ⟨t, ha, hq, hw, ?_, R.objects.delete ha, T, hn, hheld⟩
    have hsz := T.size
    rw [if_pos hm, ha]
    simp only [some_bind, assert_bind hm', delete, ha, pure, ← hq]
    exact assert_bind hsz
  · refine .inr ⟨hm, ?_⟩
    rw [if_neg hm]
    split
    · exact assert_bind R.tie.size
    · exact assert_bind R.tie.size

/-! ## `handleRead` and `reset` -/

theorem eraseActive_spec (es : List Entry) (active : OrdSet ActiveTimer)
    (hseq : ∀ a q, toLex (a, q) ∈ active → ∃ t, heap a = some t ∧ t.sequence = q)
    (hes : ∀ a ∈ addrs es, ∃ t, heap a = some t ∧ toLex (a, t.sequence) ∈ active) (hn : (addrs es).Nodup) :
    ∃ active', eraseActive heap es active = some active' ∧
      ∀ a q, toLex (a, q) ∈ active' ↔ toLex (a, q) ∈ active ∧ a ∉ addrs es := by
  induction es generalizing active with
  | nil => exact ⟨active, rfl, fun a q => by simp [addrs]⟩
  | cons e es ih =>
    obtain ⟨hne, hn⟩ := List.nodup_cons.1 hn
    obtain ⟨t, ht, hm⟩ := hes (ofLex e).2 List.mem_cons_self
    obtain ⟨active', hx, h'⟩ := ih (active.erase (toLex ((ofLex e).2, t.sequence)))
      (fun a q h => hseq a q (OrdSet.mem_erase.1 h).2)
      (fun a ha => by
        obtain ⟨u, hu, hm'⟩ := hes a (List.mem_cons_of_mem _ ha)
        refine ⟨u, hu, OrdSet.mem_erase.2 ⟨fun e' => hne ?_, hm'⟩⟩
        obtain ⟨rfl, -⟩ := Prod.mk.inj (toLex.injective e')
        exact ha) hn
    refine ⟨active', ?_, ?_⟩
    · unfold eraseActive
      rw [ht, some_bind, assert_bind hm, hx]
    · intro a q
      rw [h', OrdSet.mem_erase]
      -- an address tells its sequence, so only the entry of `e` is erased
      have hhead : toLex (a, q) ∈ active → (toLex (a, q) ≠ toLex ((ofLex e).2, t.sequence) ↔ a ≠ (ofLex e).2) := by
        intro h
        obtain ⟨u, hu, rfl⟩ := hseq a q h
        constructor
        · rintro hne' rfl
          rw [ht] at hu; cases hu; exact hne' rfl
        · intro hne' e'
          exact hne' (Prod.mk.inj (toLex.injective e')).1
      constructor
      · rintro ⟨⟨h1, h2⟩, h3⟩
        exact ⟨h2, fun hm => (List.mem_cons.1 hm).elim ((hhead h2).1 h1) h3⟩
      · rintro ⟨h2, h3⟩
        exact ⟨⟨(hhead h2).2 fun h => h3 (h ▸ List.mem_cons_self), h2⟩, fun h => h3 (List.mem_cons_of_mem _ h)⟩

/-- No timer is at the address of the sentry, so what is not below it expires later. -/
theorem Rep.late (R : Rep s queued batch) {now : Int} {e : Entry}
    (he : e ∈ s.timers.above (toLex (now, UINTPTR_MAX))) : now < (ofLex e).1 := by
  obtain ⟨hmt, hle⟩ := OrdSet.mem_above.1 he
  obtain ⟨t, ht, -, -⟩ := R.tie.timer (ofLex e).1 (ofLex e).2 hmt
  rcases Prod.Lex.le_iff.1 hle with h | ⟨-, h⟩
  · exact h
  · exact absurd h (Nat.not_le_of_lt (R.objects.addr _ _ ht))

/-- The expired timers go from the sets to the batch. -/
theorem getExpired_spec (R : Rep s queued []) (now : Int) :
    ∃ active', getExpired s now = some
        ({ s with timers := s.timers.above (toLex (now, UINTPTR_MAX)), activeTimers := active' },
          s.timers.below (toLex (now, UINTPTR_MAX))) ∧
      Rep { s with timers := s.timers.above (toLex (now, UINTPTR_MAX)), activeTimers := active' }
        queued (addrs (s.timers.below (toLex (now, UINTPTR_MAX)))) := by
  generalize hsentry : (toLex (now, UINTPTR_MAX) : Entry) = sentry
  have hwn := R.tie.waiting_nodup
  rw [waiting_split s.timers sentry, List.nodup_append] at hwn
  obtain ⟨active', hx, h'⟩ := @eraseActive_spec s.heap (s.timers.below sentry) s.activeTimers
    (fun a q h => by obtain ⟨t, ht, hq, -⟩ := R.tie.active a q h; exact ⟨t, ht, hq⟩)
    (fun a h => by
      obtain ⟨w, hw⟩ := mem_addrs.1 h
      obtain ⟨t, ht, -, hm⟩ := R.tie.timer w a (OrdSet.mem_below.1 hw).1
      exact ⟨t, ht, hm⟩) hwn.1
  have T : Tie s.heap (s.timers.above sentry) active' := by
    refine ⟨?_, ?_⟩
    · intro w a h
      obtain ⟨t, ht, hw, hm⟩ := R.tie.timer w a (OrdSet.mem_above.1 h).1
      exact ⟨t, ht, hw, (h' _ _).2 ⟨hm, fun hb => hwn.2.2 a hb a (mem_waiting.2 ⟨w, h⟩) rfl⟩⟩
    · intro a q h
      obtain ⟨hm, hb⟩ := (h' a q).1 h
      obtain ⟨t, ht, hq, hmt⟩ := R.tie.active a q hm
      refine ⟨t, ht, hq, ?_⟩
      rw [← OrdSet.mem_toList, ← OrdSet.below_append_above s.timers sentry, List.mem_append] at hmt
      exact hmt.resolve_left fun h => hb (mem_addrs.2 ⟨_, h⟩)
  have hlate : ∀ e ∈ (s.timers.above sentry).first, now < (ofLex e).1 := fun e he =>
    R.late (hsentry ▸ OrdSet.first_mem he)
  have p : (holders queued s.timers []).Perm
      (holders queued (s.timers.above sentry) (addrs (s.timers.below sentry))) := by
    rw [holders, holders, List.append_nil, waiting_split s.timers sentry]
    exact List.perm_append_comm.append_left queued
  refine ⟨active', ?_, R.objects, T, p.nodup_iff.1 R.nodup, fun a => p.mem_iff.symm.trans (R.held a)⟩
  simp only [getExpired, hsentry]
  rw [assert_bind hlate, hx, some_bind, assert_bind T.size]
  rfl

/-- The queue in which the callbacks of the expired timers run. -/
def alarmed (s : St) (now : Int) (active' : OrdSet ActiveTimer) : St :=
  { s with
    timers := s.timers.above (toLex (now, UINTPTR_MAX))
    activeTimers := active'
    cancelingTimers := .empty
    callingExpiredTimers := true
    timerfd := (readTimerfd s now).timerfd }

theorem handleRead_spec (R : Rep s queued []) (now : Int) :
    ∃ active', handleRead s now = some (alarmed s now active', s.timers.below (toLex (now, UINTPTR_MAX))) ∧
      Rep (alarmed s now active') queued (addrs (s.timers.below (toLex (now, UINTPTR_MAX)))) := by
  obtain ⟨active', hx, R'⟩ :=
    getExpired_spec (s := readTimerfd s now) ⟨R.objects, R.tie, R.nodup, R.held⟩ now
  refine ⟨active', ?_, R'.objects, R'.tie, R'.nodup, R'.held⟩
  unfold handleRead
  rw [hx, some_bind]
  rfl

/-- A repeating timer goes back from the batch to the sets. -/
theorem Rep.restarted (R : Rep s queued (a :: batch)) (ht : s.heap a = some t) (now : Int) {s₁ : St}
    (hs₁ : s₁ = { s with heap := Function.update s.heap a (some (t.restart now)) }) :
    ∃ first, insert s₁ a = some (inserted s₁ a (t.restart now), first) ∧
      Rep (inserted s₁ a (t.restart now)) queued batch := by
  have hnw := R.not_waiting_of_batch List.mem_cons_self
  have ha₁ : s₁.heap a = some (t.restart now) := by rw [hs₁]; exact Function.update_self ..
  have T₁ : Tie s₁.heap s₁.timers s₁.activeTimers := by
    subst hs₁
    refine R.tie.frame fun b hmem => Function.update_of_ne ?_ _ _
    rintro rfl
    exact hnw hmem
  have hnw₁ : a ∉ waiting s₁.timers := by rw [hs₁]; exact hnw
  have p : (holders queued s.timers (a :: batch)).Perm
      (holders queued (inserted s₁ a (t.restart now)).timers batch) := by
    have h := waiting_inserted T₁ ha₁ hnw₁
    rw [show s₁.timers = s.timers by rw [hs₁]] at h
    exact holders_batch.trans (holders_waiting h).symm
  refine ⟨_, insert_spec T₁ ha₁ hnw₁, ?_, Tie.insert T₁ ha₁, p.nodup_iff.1 R.nodup, ?_⟩
  · subst hs₁
    exact R.objects.update ht rfl
  · intro b
    rw [← p.mem_iff, R.held]
    by_cases hba : b = a
    · subst hba; simp [inserted, hs₁, ht]
    · simp [inserted, hs₁, hba]

/-- Any other timer of the batch is deleted. -/
theorem Rep.dropped (R : Rep s queued (a :: batch)) (ht : s.heap a = some t) :
    Rep { s with heap := Function.update s.heap a none, deleted := s.deleted ++ [t.sequence] } queued batch := by
  obtain ⟨hn, hheld⟩ := held_delete holders_batch R.nodup R.held
  refine ⟨R.objects.delete ht, R.tie.frame fun b hmem => Function.update_of_ne ?_ _ _, hn, hheld⟩
  rintro rfl
  exact R.not_waiting_of_batch List.mem_cons_self hmem

/-- Repeating timers go back from the batch to the sets; the others, and those
noted as cancelled, are deleted. -/
theorem resetExpired_spec (now : Int) (es : List Entry) (R : Rep s queued (addrs es)) :
    ∃ s', resetExpired now es s = some s' ∧ Rep s' queued [] ∧ s'.numCreated = s.numCreated ∧
      Aged s.heap s'.heap ∧ s.deleted ⊆ s'.deleted ∧
      ∀ a ∈ addrs es, ∀ t, s.heap a = some t →
        t.repeat_ = false ∨ toLex (a, t.sequence) ∈ s.cancelingTimers → t.sequence ∈ s'.deleted := by
  induction es generalizing s with
  | nil => exact ⟨s, rfl, R, rfl, .refl _, List.Subset.refl _, by simp [addrs]⟩
  | cons e es ih =>
    obtain ⟨a, hae⟩ : ∃ a, (ofLex e).2 = a := ⟨_, rfl⟩
    have hcons : addrs (e :: es) = a :: addrs es := by rw [← hae]; rfl
    rw [hcons] at R ⊢
    obtain ⟨t, ht⟩ := R.heap_of_mem (List.mem_append_right _ (List.mem_append_right _ List.mem_cons_self))
    -- `a` is held once, so the timers behind it are as they were
    have hnb : a ∉ addrs es :=
      (List.nodup_cons.1 (List.nodup_append.1 (List.nodup_append.1 R.nodup).2.1).2.1).1
    have hframe : ∀ (v : Option Timer), ∀ b ∈ addrs es, Function.update s.heap a v b = s.heap b := by
      intro v b hmem
      refine Function.update_of_ne ?_ _ _
      rintro rfl
      exact hnb hmem
    simp only [resetExpired, hae]
    rw [ht, some_bind]
    by_cases hc : t.repeat_ = true ∧ toLex (a, t.sequence) ∉ s.cancelingTimers
    · obtain ⟨first, hins, R₁⟩ := R.restarted ht now rfl
      obtain ⟨s', hx, R', hn', hA, hd, hall⟩ := ih R₁
      refine ⟨s', ?_, R', hn', (Aged.update ht (Timer.restart_sequence t now)).trans hA, hd, ?_⟩
      · rw [if_pos hc, hins, some_bind]
        exact hx
      · intro b hmem u hu hdel
        rcases List.mem_cons.1 hmem with rfl | hmem
        · rw [ht] at hu; cases hu
          exact absurd hdel (not_or.2 ⟨by rw [hc.1]; decide, hc.2⟩)
        · exact hall b hmem u ((hframe _ b hmem).trans hu) hdel
    · obtain ⟨s', hx, R', hn', hA, hd, hall⟩ := ih (R.dropped ht)
      refine ⟨s', ?_, R', hn', (Aged.delete _ _).trans hA, fun q hq => hd (List.mem_append_left _ hq), ?_⟩
      · rw [if_neg hc, delete, ht, some_bind]
        exact hx
      · intro b hmem u hu hdel
        rcases List.mem_cons.1 hmem with rfl | hmem
        · rw [ht] at hu; cases hu
          exact hd (List.mem_append_right _ (List.mem_singleton.2 rfl))
        · exact hall b hmem u ((hframe _ b hmem).trans hu) hdel

theorem reset_spec (es : List Entry) (now clock : Int) (R : Rep s queued (addrs es)) :
    ∃ s', reset s es now clock = some s' ∧ Rep s' queued [] ∧ s'.numCreated = s.numCreated ∧
      Aged s.heap s'.heap ∧ s.deleted ⊆ s'.deleted ∧
      ∀ a ∈ addrs es, ∀ t, s.heap a = some t →
        t.repeat_ = false ∨ toLex (a, t.sequence) ∈ s.cancelingTimers → t.sequence ∈ s'.deleted := by
  obtain ⟨s', hx, R', hn, hA, hd, hall⟩ := resetExpired_spec now es R
  unfold reset
  rw [hx, some_bind]
  cases hf : s'.timers.first with
  | none => exact ⟨s', rfl, R', hn, hA, hd, hall⟩
  | some e =>
    obtain ⟨t, ht, -, -⟩ := R'.tie.timer (ofLex e).1 (ofLex e).2 (OrdSet.first_mem hf)
    dsimp only
    rw [ht, some_bind]
    split
    · exact ⟨_, rfl, ⟨R'.objects, R'.tie, R'.nodup, R'.held⟩, hn, hA, hd, hall⟩
    · exact ⟨s', rfl, R', hn, hA, hd, hall⟩

end Cppnetool.TimerQueue
