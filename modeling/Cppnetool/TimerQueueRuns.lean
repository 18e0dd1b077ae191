import Cppnetool.TimerQueueOps
/-!
# Runs of the timer queue

Callbacks add and cancel timers as they like while the batch they belong to is
being run. `Sound` is what every step keeps, and `Final` what every step keeps
once a timer can never be called again. From them: where each timer created is
(`timers_held`), and when a cancellation is final (`cancel_final`).
-/
open Lib

namespace Cppnetool.TimerQueue

variable {calling0 : Bool} {s s' t : Sys} {id : TimerId} {a : Addr} {q : Nat}

structure Sound (s : Sys) : Prop where
  rep : Rep s.toSt s.queued (addrs s.phase.batch)
  calling : s.phase ≠ .idle → s.callingExpiredTimers = true
  issued : ∀ id ∈ s.issued, (1 ≤ id.sequence ∧ id.sequence ≤ s.numCreated) ∧
    ∀ a t, s.heap a = some t → t.sequence = id.sequence → a = id.timer

/-- The callbacks of the running batch that have been started. -/
def Phase.done : Phase → List Entry
  | idle => []
  | calling _ done _ => done

/-- The callbacks of the running batch whose turn is still to come. -/
def Phase.todo : Phase → List Entry
  | idle => []
  | calling _ _ todo => todo

/-- The timer of `id` is at address `a`. -/
def SeqAt (s : St) (a : Addr) (q : Nat) : Prop := ∃ t, s.heap a = some t ∧ t.sequence = q

/-- The timer of `id` can never be called again: it is deleted, or it has been
called in this batch and is noted as cancelled. -/
def Final (s : Sys) (id : TimerId) : Prop :=
  id.sequence ∈ s.deleted ∨
    id.timer ∈ addrs s.phase.done ∧ SeqAt s.toSt id.timer id.sequence ∧
      toLex (id.timer, id.sequence) ∈ s.cancelingTimers

theorem addrs_append (l l' : List Entry) : addrs (l ++ l') = addrs l ++ addrs l' := List.map_append

theorem Phase.batch_eq (p : Phase) : p.batch = p.done ++ p.todo := by
  cases p <;> rfl

theorem Phase.next_ne_none {p : Phase} (h : p.next ≠ none) :
    ∃ now done e todo, p = calling now done (e :: todo) := by
  match p, h with
  | calling now done (e :: todo), _ => exact ⟨now, done, e, todo, rfl⟩

theorem Phase.next_none {p : Phase} (h : p ≠ idle) (hn : p.next = none) : ∃ now done, p = calling now done [] := by
  match p, h, hn with
  | calling now done [], _, _ => exact ⟨now, done, rfl⟩

theorem sound_init (calling0 : Bool) : Sound (machine calling0).init where
  rep :=
    { objects := ⟨by simp [machine], by simp [machine], by simp [machine], by simp [machine], .nil,
        fun q h1 h2 => absurd h2 (by simp [machine]; omega)⟩
      tie := ⟨fun _ _ h => absurd h OrdSet.not_mem_empty, fun _ _ h => absurd h OrdSet.not_mem_empty⟩
      nodup := .nil
      held := fun a => iff_of_false List.not_mem_nil fun h => h rfl }
  calling h := absurd rfl h
  issued id h := absurd h List.not_mem_nil

section Sound
variable (S : Sound s)
include S

theorem Sound.batch_nodup : (addrs s.phase.done ++ addrs s.phase.todo).Nodup := by
  rw [← addrs_append, ← Phase.batch_eq]
  exact (List.nodup_append.1 (List.nodup_append.1 S.rep.nodup).2.1).2.1

/-- What `reset` finds. -/
theorem Sound.rep_batch {now : Int} {done todo : List Entry} (hp : s.phase = .calling now done todo) :
    Rep { s.toSt with callingExpiredTimers := false } s.queued (addrs (done ++ todo)) := by
  have := S.rep
  rw [hp] at this
  exact ⟨this.objects, this.tie, this.nodup, this.held⟩

theorem Sound.rep_idle (he : s.phase = .idle) : Rep s.toSt s.queued [] := by
  have := S.rep
  rwa [he] at this

theorem Sound.aged (h : Aged s.heap s'.heap) (hi : s'.issued = s.issued) (hn : s'.numCreated = s.numCreated) :
    ∀ id ∈ s'.issued, (1 ≤ id.sequence ∧ id.sequence ≤ s'.numCreated) ∧
      ∀ a t, s'.heap a = some t → t.sequence = id.sequence → a = id.timer := by
  rw [hi, hn]
  intro id hid
  refine ⟨(S.issued id hid).1, ?_⟩
  intro a t' ht' hq
  obtain ⟨t, ht, e⟩ := h a t' ht'
  exact (S.issued id hid).2 a t ht (e.trans hq)

/-! ## One step -/

theorem addTimer_sound {w : Int} {i : Interval} (he : (machine calling0).enabled s (.addTimer a w i)) :
    ∃ s', (machine calling0).exec s (.addTimer a w i) = some s' ∧ Sound s' ∧ ∀ id, Final s id → Final s' id := by
  obtain ⟨-, hlt, ha⟩ := he
  have hnew : ∀ b t', b ≠ a → Function.update s.heap a (some ⟨w, i, s.numCreated + 1⟩) b = some t' →
      s.heap b = some t' := fun b t' hb h => by rwa [Function.update_of_ne hb] at h
  refine ⟨_, rfl, ⟨S.rep.new ha hlt rfl, S.calling, fun id hid => ?_⟩, fun id hf => ?_⟩
  · rcases List.mem_append.1 hid with hid | hid
    · obtain ⟨⟨h1, h2⟩, h3⟩ := S.issued id hid
      refine ⟨⟨h1, Nat.le_succ_of_le h2⟩, ?_⟩
      intro b t' ht' hq
      by_cases hb : b = a
      · subst hb
        change Function.update s.heap b _ b = _ at ht'
        rw [Function.update_self] at ht'; cases ht'
        change s.numCreated + 1 = _ at hq
        omega
      · exact h3 b t' (hnew b t' hb ht') hq
    · rw [List.mem_singleton.1 hid]
      refine ⟨⟨Nat.succ_pos _, Nat.le_refl _⟩, ?_⟩
      intro b t' ht' hq
      by_contra hb
      -- an older timer has a smaller sequence
      have hle := (S.rep.objects.seq b t' (hnew b t' hb ht')).2.1
      change t'.sequence = s.numCreated + 1 at hq
      omega
  · rcases hf with hf | ⟨hd, ⟨t', ht', hq⟩, hc⟩
    · exact .inl hf
    · refine .inr ⟨hd, ⟨t', ?_, hq⟩, hc⟩
      change Function.update s.heap a _ _ = _
      rw [Function.update_of_ne, ht']
      rintro e
      rw [e, ha] at ht'; cases ht'

theorem addTimerInLoop_sound {clock : Int} (he : (machine calling0).enabled s (.addTimerInLoop a clock)) :
    ∃ s', (machine calling0).exec s (.addTimerInLoop a clock) = some s' ∧ Sound s' ∧
      ∀ id, Final s id → Final s' id := by
  obtain ⟨t, fd, -, hx, R⟩ := addTimerInLoop_spec S.rep he.1 clock
  exact ⟨{ s with toSt := { inserted s.toSt a t with timerfd := fd }, queued := s.queued.erase a },
    congrArg (Option.map _) hx, ⟨R, S.calling, S.issued⟩, fun id hf => hf⟩

theorem cancelInLoop_sound (id : TimerId) :
    ∃ s', (machine calling0).exec s (.cancelInLoop id) = some s' ∧ Sound s' ∧ ∀ id, Final s id → Final s' id := by
  rcases cancelInLoop_spec S.rep id with ⟨t, ht, hq, hw, hx, R⟩ | ⟨-, hx⟩
  · refine ⟨{ s with toSt := canceled s.toSt id.timer t }, congrArg (Option.map _) hx,
      ⟨R, S.calling, S.aged (Aged.delete _ _) rfl rfl⟩, ?_⟩
    intro id' hf
    rcases hf with hf | ⟨hd, ⟨u, hu, hq'⟩, hc⟩
    · exact .inl (List.mem_append_left _ hf)
    · refine .inr ⟨hd, ⟨u, ?_, hq'⟩, hc⟩
      change Function.update s.heap _ _ _ = _
      rw [Function.update_of_ne, hu]
      intro e
      refine S.rep.not_waiting_of_batch (a := id'.timer) ?_ (e ▸ hw)
      rw [Phase.batch_eq, addrs_append]
      exact List.mem_append_left _ hd
  · split at hx
    · refine ⟨{ s with cancelingTimers := s.cancelingTimers.insert (toLex (id.timer, id.sequence)) },
        congrArg (Option.map _) hx,
        ⟨⟨S.rep.objects, S.rep.tie, S.rep.nodup, S.rep.held⟩, S.calling, S.issued⟩, ?_⟩
      intro id' hf
      exact hf.imp (fun h => h) fun ⟨hd, hq, hc⟩ => ⟨hd, hq, OrdSet.mem_insert.2 (.inr hc)⟩
    · exact ⟨s, congrArg (Option.map _) hx, S, fun id' hf => hf⟩

theorem handleRead_sound {now : Int} (he : s.phase = .idle) :
    ∃ s', (machine calling0).exec s (.handleRead now) = some s' ∧ Sound s' ∧ ∀ id, Final s id → Final s' id := by
  obtain ⟨active', hx, R⟩ := handleRead_spec (S.rep_idle he) now
  refine ⟨{ s with
    toSt := alarmed s.toSt now active'
    phase := .calling now [] (s.timers.below (toLex (now, UINTPTR_MAX))) },
    congrArg (Option.map _) hx, ⟨R, fun _ => rfl, S.issued⟩, ?_⟩
  intro id hf
  rcases hf with hf | ⟨hd, -, -⟩
  · exact .inl hf
  · rw [he] at hd
    cases hd

variable (calling0) in
theorem run_spec {now : Int} {done todo : List Entry} {e : Entry} (hp : s.phase = .calling now done (e :: todo)) :
    (machine calling0).exec s .run = some { s with phase := .calling now (done ++ [e]) todo } ∧
      Sound { s with phase := .calling now (done ++ [e]) todo } := by
  have hb : s.phase.batch = (done ++ [e]) ++ todo := by rw [hp]; simp [Phase.batch]
  obtain ⟨t, ht⟩ := S.rep.heap_of_mem (a := (ofLex e).2) (List.mem_append_right _ (List.mem_append_right _
    (by rw [hb, addrs_append, addrs_append]; simp [addrs])))
  have R := S.rep
  rw [hb] at R
  exact ⟨by simp only [machine, hp, ht]; rfl, R, fun _ => S.calling (by rw [hp]; exact fun h => by cases h), S.issued⟩

theorem run_sound (he : s.phase.next ≠ none) :
    ∃ s', (machine calling0).exec s .run = some s' ∧ Sound s' ∧ ∀ id, Final s id → Final s' id := by
  obtain ⟨now, done, e, todo, hp⟩ := Phase.next_ne_none he
  obtain ⟨hx, S'⟩ := run_spec calling0 S hp
  refine ⟨_, hx, S', fun id hf => hf.imp (fun h => h) fun ⟨hd, hq, hc⟩ => ⟨?_, hq, hc⟩⟩
  rw [hp] at hd
  rw [Phase.done, addrs_append]
  exact List.mem_append_left _ hd

theorem reset_sound {clock : Int} (he : s.phase ≠ .idle ∧ s.phase.next = none) :
    ∃ s', (machine calling0).exec s (.reset clock) = some s' ∧ Sound s' ∧ ∀ id, Final s id → Final s' id := by
  obtain ⟨now, done, hp⟩ := Phase.next_none he.1 he.2
  obtain ⟨t, hx, R, hn, hA, hd, hall⟩ := reset_spec (done ++ []) now clock (S.rep_batch hp)
  refine ⟨{ s with toSt := t, phase := .idle }, by simp only [machine, hp, hx]; rfl,
    ⟨R, fun h => absurd rfl h, S.aged hA rfl hn⟩, fun id hf => .inl ?_⟩
  rcases hf with hf | ⟨hdone, ⟨u, hu, hq⟩, hc⟩
  · exact hd hf
  · rw [hp] at hdone
    rw [← hq]
    refine hall id.timer (by rw [List.append_nil]; exact hdone) u hu (.inr ?_)
    rw [hq]; exact hc

/-- No step fails; each keeps `Sound`, and whatever was `Final`. -/
theorem step_sound {a : Act} (he : (machine calling0).enabled s a) :
    ∃ s', (machine calling0).exec s a = some s' ∧ Sound s' ∧ ∀ id, Final s id → Final s' id := by
  cases a with
  | addTimer a w i => exact addTimer_sound S he
  | addTimerInLoop a clock => exact addTimerInLoop_sound S he
  | cancelInLoop id => exact cancelInLoop_sound S id
  | handleRead now => exact handleRead_sound S he
  | run => exact run_sound S he
  | reset clock => exact reset_sound S he

end Sound

theorem run_sound_all {tr : List (Sys × Act)} (h : Run (machine calling0) tr s) : Sound s :=
  h.inv Sound (sound_init calling0) fun s a s' S he hx => by
    obtain ⟨s'', hx', S', -⟩ := step_sound S he
    rw [hx] at hx'; cases hx'; exact S'

/-! ## Where the timers are -/

inductive Place
  | queued
  | waiting
  | expired
  | deleted

/-- The timer with sequence `q` is held by a functor that will insert it, by
the two sets, or by the batch of the running `handleRead`; or it is deleted. -/
def At (s : Sys) (q : Nat) : Place → Prop
  | .queued => ∃ a ∈ s.queued, SeqAt s.toSt a q
  | .waiting => ∃ a t, s.heap a = some t ∧ t.sequence = q ∧ toLex (t.expiration, a) ∈ s.timers ∧
      toLex (a, q) ∈ s.activeTimers
  | .expired => ∃ a ∈ addrs s.phase.batch, SeqAt s.toSt a q
  | .deleted => q ∈ s.deleted

/-- The addresses that a place holds. -/
def Place.held (s : Sys) : Place → List Addr
  | queued => s.queued
  | waiting => TimerQueue.waiting s.timers
  | expired => addrs s.phase.batch
  | deleted => []

/-- A timer that lives is where its address is. -/
theorem Sound.at_iff (S : Sound s) {t : Timer} (ht : s.heap a = some t) {p : Place} :
    At s t.sequence p ↔ a ∈ p.held s := by
  have hat : ∀ b, SeqAt s.toSt b t.sequence → b = a := by
    rintro b ⟨u, hu, e⟩
    exact S.rep.objects.inj b a u t hu ht e
  have hself : SeqAt s.toSt a t.sequence := ⟨t, ht, rfl⟩
  cases p with
  | queued | expired =>
    constructor
    · rintro ⟨b, hb, h⟩
      exact hat b h ▸ hb
    · intro h
      exact ⟨a, h, hself⟩
  | waiting =>
    constructor
    · rintro ⟨b, u, hu, e, hm, -⟩
      cases hat b ⟨u, hu, e⟩
      exact mem_waiting.2 ⟨_, hm⟩
    · intro h
      exact ⟨a, t, ht, rfl, (S.rep.tie.mem_timers ht).2 ⟨rfl, h⟩, (S.rep.tie.mem_active ht).2 ⟨rfl, h⟩⟩
  | deleted => simp [At, Place.held, (S.rep.objects.seq a t ht).2.2]

/-- No address is held at two places. -/
theorem Sound.held_unique (S : Sound s) {p r : Place} (hp : a ∈ p.held s) (hr : a ∈ r.held s) : p = r := by
  have hn := S.rep.nodup
  rw [holders, List.nodup_append, List.nodup_append] at hn
  obtain ⟨-, ⟨-, -, hwb⟩, hqwb⟩ := hn
  have hqw : a ∈ s.queued → a ∉ waiting s.timers := fun h h' => hqwb a h a (List.mem_append_left _ h') rfl
  have hqb : a ∈ s.queued → a ∉ addrs s.phase.batch := fun h h' => hqwb a h a (List.mem_append_right _ h') rfl
  have hwb : a ∈ waiting s.timers → a ∉ addrs s.phase.batch := fun h h' => hwb a h a h' rfl
  cases p <;> cases r <;> simp_all [Place.held]

theorem Sound.place (S : Sound s) (h1 : 1 ≤ q) (h2 : q ≤ s.numCreated) : ∃! p, At s q p := by
  have O := S.rep.objects
  rcases O.all q h1 h2 with hdel | ⟨a, t, ht, rfl⟩
  · -- no timer that lives has this sequence
    have hno : ∀ a, ¬ SeqAt s.toSt a q := by
      rintro a ⟨t, ht, rfl⟩
      exact (O.seq a t ht).2.2 hdel
    refine ⟨.deleted, hdel, ?_⟩
    intro p hp
    cases p with
    | deleted => rfl
    | queued | expired =>
      obtain ⟨a, -, h⟩ := hp
      exact absurd h (hno a)
    | waiting =>
      obtain ⟨a, t, ht, hq, -⟩ := hp
      exact absurd ⟨t, ht, hq⟩ (hno a)
  · have hmem := (S.rep.held a).2 (by rw [ht]; exact Option.some_ne_none t)
    obtain ⟨p, hp⟩ : ∃ p : Place, a ∈ p.held s := by
      rcases List.mem_append.1 hmem with h | h
      · exact ⟨.queued, h⟩
      · rcases List.mem_append.1 h with h | h
        · exact ⟨.waiting, h⟩
        · exact ⟨.expired, h⟩
    exact ⟨p, (S.at_iff ht).2 hp, fun r hr => S.held_unique ((S.at_iff ht).1 hr) hp⟩

/-- Over every run, with callbacks that add and cancel what they like: no
assert fails and no timer is used that is not alive; the two sets hold the same
timers, under their expirations and sequences; and each timer created is in
exactly one place, held once or deleted once. -/
theorem timers_held (calling0 : Bool) :
    (machine calling0).Safe ∧ ∀ tr s, Run (machine calling0) tr s →
      Tie s.heap s.timers s.activeTimers ∧
      (waiting s.timers).Perm (s.activeTimers.toList.map fun x => (ofLex x).1) ∧
      (∀ q, 1 ≤ q → q ≤ s.numCreated → ∃! p, At s q p) ∧
      s.deleted.Nodup ∧ (holders s.queued s.timers (addrs s.phase.batch)).Nodup := by
  refine ⟨Machine.safe_of_inv Sound (sound_init calling0) ?_, ?_⟩
  · intro s a S he
    obtain ⟨s', hx, S', -⟩ := step_sound S he
    exact ⟨s', hx, S'⟩
  · intro tr s h
    have S := run_sound_all h
    exact ⟨S.rep.tie, S.rep.tie.same, fun q => S.place, S.rep.objects.nodup, S.rep.nodup⟩

/-- A callback that cancels itself and its sibling in the batch and adds a
timer: the first two are deleted after the batch, the third waits. -/
theorem timers_held_batch : ∃ tr s, Run (machine false) tr s ∧ s.deleted = [1, 2] ∧ s.numCreated = 3 ∧
    ∃! p, At s 3 p := by
  obtain ⟨r, hr, hdel, hn⟩ : ∃ r ∈ (machine false).play (machine false).init
      [.addTimer 8 5 ⟨true, 7⟩, .addTimer 16 6 ⟨true, 7⟩, .addTimerInLoop 16 1, .addTimerInLoop 8 1,
        .handleRead 10, .run, .cancelInLoop ⟨8, 1⟩, .cancelInLoop ⟨16, 2⟩, .addTimer 24 20 ⟨false, 0⟩,
        .addTimerInLoop 24 11, .run, .reset 12],
      r.2.deleted = [1, 2] ∧ r.2.numCreated = 3 := by decide
  have hrun := Machine.play_steps hr
  exact ⟨r.1, r.2, hrun, hdel, hn, ((timers_held false).2 r.1 r.2 hrun).2.2.1 3 (by decide) (by omega)⟩

end Cppnetool.TimerQueue
