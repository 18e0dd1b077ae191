import Cppnetool.TimerQueueRuns
/-!
# Cancelling a timer

`cancelInLoop` deletes a timer that waits and keeps one that is being run, or
has been, from being inserted again. It does nothing about a timer whose turn
in the batch is still to come, nor about one still to be inserted: that one is
called later.
-/
open Lib

namespace Cppnetool.TimerQueue

variable {calling0 : Bool} {s s' t : Sys} {id : TimerId} {a : Addr} {q : Nat} {tr pre post : List (Sys × Act)}

/-- The step `run` taken in this state calls the timer with sequence `q`. -/
def Starts (s : Sys) (q : Nat) : Prop := ∃ e, s.phase.next = some e ∧ SeqAt s.toSt (ofLex e).2 q

/-- The timer of `id` is still to be inserted, or its turn in the running
batch is still to come. -/
def Due (s : Sys) (id : TimerId) : Prop :=
  (id.timer ∈ s.queued ∨ id.timer ∈ addrs s.phase.todo) ∧ SeqAt s.toSt id.timer id.sequence

theorem Phase.next_todo {p : Phase} {e : Entry} (h : p.next = some e) : e ∈ p.todo := by
  match p, h with
  | calling _ _ (e' :: todo), h => cases h; exact List.mem_cons_self

/-- A timer that is `Final` is not called. -/
theorem Sound.not_starts (S : Sound s) (hf : Final s id) : ¬ Starts s id.sequence := by
  rintro ⟨e, hnext, t, ht, hq⟩
  rcases hf with hdel | ⟨hdone, ⟨u, hu, hq'⟩, -⟩
  · exact (S.rep.objects.seq _ t ht).2.2 (hq ▸ hdel)
  · have ha := S.rep.objects.inj _ _ t u ht hu (hq.trans hq'.symm)
    have htodo : (ofLex e).2 ∈ addrs s.phase.todo := List.mem_map_of_mem (Phase.next_todo hnext)
    exact (List.nodup_append.1 S.batch_nodup).2.2 _ hdone _ htodo ha.symm

/-- The timer of an id given out is deleted, due, waiting or called already. -/
theorem Sound.final_of_cancel (S : Sound s) (hid : id ∈ s.issued) (hdue : ¬ Due s id)
    (hx : (machine calling0).exec s (.cancelInLoop id) = some s') : Final s' id := by
  obtain ⟨⟨h1, h2⟩, hat⟩ := S.issued id hid
  rcases cancelInLoop_spec S.rep id with ⟨t, ht, hq, -, hc, -⟩ | ⟨hna, hc⟩
  · simp only [machine, hc] at hx
    cases hx
    exact .inl (List.mem_append_right _ (List.mem_singleton.2 hq.symm))
  · simp only [machine, hc] at hx
    rcases S.rep.objects.all id.sequence h1 h2 with hdel | ⟨a, t, ht, hq⟩
    · cases hx
      refine .inl ?_
      dsimp only
      split <;> exact hdel
    · cases hat a t ht hq
      have hheld := (S.rep.held id.timer).2 (by rw [ht]; exact Option.some_ne_none t)
      rw [Phase.batch_eq, addrs_append] at hheld
      have hdone : id.timer ∈ addrs s.phase.done := by
        rcases List.mem_append.1 hheld with h | h
        · exact absurd ⟨.inl h, t, ht, hq⟩ hdue
        · rcases List.mem_append.1 h with h | h
          · exact absurd ((S.rep.tie.mem_active ht).2 ⟨hq.symm, h⟩) hna
          · rcases List.mem_append.1 h with h | h
            · exact h
            · exact absurd ⟨.inr h, t, ht, hq⟩ hdue
      have hcalling := S.calling fun h => by rw [h] at hdone; cases hdone
      rw [if_pos hcalling] at hx
      cases hx
      exact .inr ⟨hdone, ⟨t, ht, hq⟩, OrdSet.mem_insert.2 (.inl rfl)⟩

/-- From a cancellation that finds its timer not due, the timer is never called again. -/
theorem cancel_final (h : Run (machine calling0) (pre ++ (t, .cancelInLoop id) :: post) s) (hid : id ∈ t.issued)
    (hdue : ¬ Due t id) : ∀ u, (u, Act.run) ∈ post → ¬ Starts u id.sequence := by
  obtain ⟨_, hpre, hpost⟩ := Steps.split h
  cases hpost with
  | cons he hx hpost =>
    have S := run_sound_all hpre
    obtain ⟨_, hx', S', -⟩ := step_sound S he
    rw [hx] at hx'; cases hx'
    obtain ⟨-, hall⟩ := hpost.keeps (fun u => Sound u ∧ Final u id)
      (fun u b u' _ hu hb hub => by
        obtain ⟨u'', hx'', Su, hk⟩ := step_sound hu.1 hb
        rw [hub] at hx''; cases hx''
        exact ⟨Su, hk id hu.2⟩) ⟨S', S.final_of_cancel hid hdue hx⟩
    intro u hu
    obtain ⟨Su, hf⟩ := hall _ hu
    exact Su.not_starts hf

/-! ## A timer that is due -/

variable (calling0) in
/-- The batch runs up to any of its timers. -/
theorem Sound.run_to (S : Sound s) (l : List Entry) {now : Int} {done rest : List Entry}
    (hp : s.phase = .calling now done (l ++ rest)) :
    ∃ tr, Steps (machine calling0) s tr { s with phase := .calling now (done ++ l) rest } ∧
      Sound { s with phase := .calling now (done ++ l) rest } := by
  induction l generalizing s done with
  | nil =>
    have : { s with phase := .calling now (done ++ []) rest } = s := by
      rw [List.append_nil]
      change s.phase = .calling now done rest at hp
      rw [← hp]
    rw [this]
    exact ⟨[], .nil s, S⟩
  | cons e l ih =>
    obtain ⟨hx, S'⟩ := run_spec calling0 S hp
    obtain ⟨tr, hs, S''⟩ := ih S' rfl
    have he : (machine calling0).enabled s .run := by
      change s.phase.next ≠ none
      rw [hp]
      exact Option.some_ne_none e
    rw [List.append_assoc] at hs S''
    exact ⟨_, .cons he hx hs, S''⟩

variable (calling0) in
/-- A timer in the rest of the batch is called. -/
theorem Sound.starts_of_todo (S : Sound s) (h : a ∈ addrs s.phase.todo) (hq : SeqAt s.toSt a q) :
    ∃ tr u u', Steps (machine calling0) s (tr ++ [(u, .run)]) u' ∧ Starts u q := by
  obtain ⟨e, he, rfl⟩ := List.mem_map.1 h
  match hp : s.phase with
  | .idle => rw [hp] at he; cases he
  | .calling now done todo =>
    rw [hp] at he
    obtain ⟨l, rest, rfl⟩ := List.append_of_mem he
    obtain ⟨tr, hs, S'⟩ := S.run_to calling0 l hp
    obtain ⟨hx, -⟩ := run_spec calling0 S' rfl
    exact ⟨tr, _, _, hs.snoc (by exact Option.some_ne_none e) hx, e, rfl, hq⟩

variable (calling0) in
/-- `handleRead` comes to its end, whatever batch it runs. -/
theorem Sound.to_idle (S : Sound s) : ∃ tr u, Steps (machine calling0) s tr u ∧ Sound u ∧ u.phase = .idle ∧
    u.queued = s.queued ∧ Aged s.heap u.heap := by
  match hp : s.phase with
  | .idle => exact ⟨[], s, .nil s, S, hp, rfl, .refl _⟩
  | .calling now done todo =>
    have hp' : s.phase = .calling now done (todo ++ []) := by rw [hp, List.append_nil]
    obtain ⟨tr, hs, S'⟩ := S.run_to calling0 todo hp'
    obtain ⟨t, hx, R, hn, hA, -, -⟩ := reset_spec ((done ++ todo) ++ []) now now (S'.rep_batch rfl)
    have he : (machine calling0).enabled { s with phase := .calling now (done ++ todo) [] } (.reset now) :=
      ⟨fun h => (by cases h), rfl⟩
    exact ⟨_, { s with toSt := t, phase := .idle }, hs.snoc he (congrArg (Option.map _) hx),
      ⟨R, fun h => absurd rfl h, S.aged hA rfl hn⟩, rfl, rfl, hA⟩

/-- A timer still to be inserted is called, at the latest in the batch after next. -/
theorem Sound.starts_of_queued (S : Sound s) (h : a ∈ s.queued) (hq : SeqAt s.toSt a q) :
    ∃ tr u u', Steps (machine calling0) s (tr ++ [(u, .run)]) u' ∧ Starts u q := by
  obtain ⟨tr₁, s₁, hs₁, S₁, hp₁, hqu₁, hA₁⟩ := S.to_idle calling0
  have ha₁ : a ∈ s₁.queued := hqu₁ ▸ h
  have hen : (machine calling0).enabled s₁ (.addTimerInLoop a 0) := ⟨ha₁, by rw [hp₁]; trivial⟩
  obtain ⟨t, fd, ht, hx, R⟩ := addTimerInLoop_spec S₁.rep ha₁ 0
  have hqt : t.sequence = q := by
    obtain ⟨t₀, ht₀, e⟩ := hA₁ a t ht
    obtain ⟨t', ht', hq⟩ := hq
    rw [ht'] at ht₀; cases ht₀
    exact e.symm.trans hq
  -- after the running batch the timer is inserted, and the next batch has it
  set s₂ : Sys := { s₁ with toSt := { inserted s₁.toSt a t with timerfd := fd }, queued := s₁.queued.erase a }
  have S₂ : Sound s₂ := ⟨R, S₁.calling, S₁.issued⟩
  obtain ⟨active', hx₃, R₃⟩ := handleRead_spec (S₂.rep_idle hp₁) t.expiration
  set s₃ : Sys := { s₂ with
    toSt := alarmed s₂.toSt t.expiration active'
    phase := .calling t.expiration [] (s₂.timers.below (toLex (t.expiration, UINTPTR_MAX))) }
  have hmem : toLex (t.expiration, a) ∈ s₂.timers.below (toLex (t.expiration, UINTPTR_MAX)) := by
    refine OrdSet.mem_below.2 ⟨OrdSet.mem_insert.2 (.inl rfl), Prod.Lex.lt_iff.2 (.inr ⟨rfl, ?_⟩)⟩
    exact S₁.rep.objects.addr a t ht
  obtain ⟨tr, u, u', hs, hstart⟩ := Sound.starts_of_todo calling0 (s := s₃) (a := a) (q := q)
    ⟨R₃, fun _ => rfl, S₂.issued⟩ (mem_addrs.2 ⟨_, hmem⟩) ⟨t, ht, hqt⟩
  have hs₃ : Steps (machine calling0) s (tr₁ ++ [(s₁, .addTimerInLoop a 0)] ++ [(s₂, .handleRead t.expiration)]) s₃ :=
    (hs₁.snoc hen (congrArg (Option.map _) hx)).snoc (show s₂.phase = .idle from hp₁) (congrArg (Option.map _) hx₃)
  exact ⟨_, u, u', by rw [List.append_assoc]; exact hs₃.append hs, hstart⟩

/-- A cancellation leaves a timer that is due where it is. -/
theorem Sound.due_of_cancel (S : Sound s) (hdue : Due s id)
    (hx : (machine calling0).exec s (.cancelInLoop id) = some s') : Due s' id := by
  have hnw : id.timer ∉ waiting s.timers := by
    rcases hdue.1 with h | h
    · exact S.rep.not_waiting_of_queued h
    · apply S.rep.not_waiting_of_batch
      rw [Phase.batch_eq, addrs_append]
      exact List.mem_append_right _ h
  rcases cancelInLoop_spec S.rep id with ⟨t, -, -, hw, -, -⟩ | ⟨-, hc⟩
  · exact absurd hw hnw
  · simp only [machine, hc] at hx
    split at hx
    · cases hx; exact hdue
    · cases hx; exact hdue

/-- A cancellation of a timer is final, in every run that goes on from it,
exactly when the timer is not due. -/
theorem cancel_final_iff (h : Run (machine calling0) tr t) (he : (machine calling0).enabled t (.cancelInLoop id))
    (hid : id ∈ t.issued) :
    (∀ post s, Run (machine calling0) (tr ++ (t, .cancelInLoop id) :: post) s →
      ∀ u, (u, Act.run) ∈ post → ¬ Starts u id.sequence) ↔ ¬ Due t id := by
  refine ⟨?_, fun hdue post s hr => cancel_final hr hid hdue⟩
  intro hfinal hdue
  have S := run_sound_all h
  obtain ⟨t', hx, S', -⟩ := step_sound S he
  obtain ⟨hin, hq⟩ := S.due_of_cancel hdue hx
  have hstart : ∃ tr u u', Steps (machine calling0) t' (tr ++ [(u, .run)]) u' ∧ Starts u id.sequence :=
    hin.elim (fun h => S'.starts_of_queued h hq) fun h => S'.starts_of_todo _ h hq
  obtain ⟨post, u, u', hs, hstart⟩ := hstart
  exact hfinal _ u' (h.append (.cons he hx hs)) u (by simp) hstart

/-- A repeating timer cancelled by its own callback. -/
theorem cancel_final_iff_self : ∃ tr t, Run (machine false) tr t ∧ t.phase ≠ .idle ∧
    ∀ post s, Run (machine false) (tr ++ (t, .cancelInLoop ⟨8, 1⟩) :: post) s →
      ∀ u, (u, Act.run) ∈ post → ¬ Starts u 1 := by
  obtain ⟨r, hr, hp, he, hid, hq, htodo⟩ : ∃ r ∈ (machine false).play (machine false).init
      [.addTimer 8 5 ⟨true, 7⟩, .addTimerInLoop 8 1, .handleRead 10, .run],
      r.2.phase ≠ .idle ∧ (machine false).enabled r.2 (.cancelInLoop ⟨8, 1⟩) ∧ ⟨8, 1⟩ ∈ r.2.issued ∧
        r.2.queued = [] ∧ r.2.phase.todo = [] := by decide
  have hrun := Machine.play_steps hr
  refine ⟨r.1, r.2, hrun, hp, (cancel_final_iff hrun he hid).2 ?_⟩
  rintro ⟨h, -⟩
  rw [hq, htodo] at h
  exact h.elim List.not_mem_nil List.not_mem_nil

/-- Two timers expire together; the callback of the first cancels the second,
which is called all the same. -/
theorem cancel_not_final_batch : ∃ tr s, Run (machine false) tr s ∧
    (∃ p ∈ tr[6]?, p.2 = .cancelInLoop ⟨16, 2⟩ ∧ ⟨16, 2⟩ ∈ p.1.issued) ∧
    ∃ p ∈ tr[7]?, p.2 = .run ∧ Starts p.1 2 := by
  obtain ⟨r, hr, hcancel, p, hp, hrun, hnext, hq⟩ : ∃ r ∈ (machine false).play (machine false).init
      [.addTimer 8 5 ⟨false, 0⟩, .addTimer 16 6 ⟨false, 0⟩, .addTimerInLoop 8 1, .addTimerInLoop 16 1,
        .handleRead 10, .run, .cancelInLoop ⟨16, 2⟩, .run],
      (∃ p ∈ r.1[6]?, p.2 = .cancelInLoop ⟨16, 2⟩ ∧ ⟨16, 2⟩ ∈ p.1.issued) ∧
      ∃ p ∈ r.1[7]?, p.2 = .run ∧ p.1.phase.next = some (toLex (6, 16)) ∧
        p.1.heap 16 = some ⟨6, ⟨false, 0⟩, 2⟩ := by decide
  exact ⟨r.1, r.2, Machine.play_steps hr, hcancel, p, hp, hrun, _, hnext, _, hq, rfl⟩

end Cppnetool.TimerQueue
