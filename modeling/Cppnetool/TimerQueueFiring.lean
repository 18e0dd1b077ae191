import Cppnetool.TimerQueueCancel
import Cppnetool.TimerQueueTarget
/-!
# When timers fire

`handleRead` takes the timers that have expired by the time it is given and
calls them in the order of `timers_`, whatever their callbacks do to the queue
meanwhile. A one-shot timer that has been called is `Spent` from then on.
-/
open Lib

namespace Cppnetool.TimerQueue

variable {calling0 : Bool} {s s' u u' : Sys} {a : Addr} {t : Timer} {now clock : Int} {q : Nat} {act : Act}
  {tr pre mid post : List (Sys × Act)}

def Act.isReset : Act → Bool
  | reset _ => true
  | _ => false

/-- The entry whose timer the step calls. -/
def Act.calls (s : Sys) : Act → Option Entry
  | run => s.phase.next
  | _ => none

/-- The timers called by the steps of a run, in order. -/
def called (tr : List (Sys × Act)) : List Entry := tr.filterMap fun p => p.2.calls p.1

/-- What `handleRead` has to call at the time `now`. -/
structure Batch (s : Sys) (now : Int) (batch : List Entry) : Prop where
  ordered : batch.Pairwise fun e f => (ofLex e).1 ≤ (ofLex f).1
  once : (addrs batch).Nodup
  due : ∀ w a, toLex (w, a) ∈ batch ↔ w ≤ now ∧ ∃ t, t.expiration = w ∧ Waits s.toSt a t

/-! ## The batch -/

section Sound
variable (S : Sound s)
include S

theorem Sound.below_batch (now : Int) : Batch s now (s.timers.below (toLex (now, UINTPTR_MAX))) where
  ordered := by
    have hs := s.timers.sorted.sublist (List.takeWhile_sublist (· < toLex (now, UINTPTR_MAX)))
    refine hs.imp fun {e f} h => ?_
    rcases Prod.Lex.lt_iff.1 h with h | ⟨h, -⟩
    · exact le_of_lt h
    · exact le_of_eq h
  once := by
    have hn := S.rep.tie.waiting_nodup
    rw [waiting_split s.timers (toLex (now, UINTPTR_MAX)), List.nodup_append] at hn
    exact hn.1
  due w a := by
    rw [OrdSet.mem_below]
    constructor
    · rintro ⟨hm, hlt⟩
      obtain ⟨t, ht, rfl, hactive⟩ := S.rep.tie.timer w a hm
      refine ⟨?_, t, rfl, ht, hm, hactive⟩
      rcases Prod.Lex.lt_iff.1 hlt with h | ⟨h, -⟩
      · exact le_of_lt h
      · exact le_of_eq h
    · rintro ⟨hle, t, rfl, hw⟩
      -- the sentry is the last entry for `now`
      refine ⟨hw.timers, Prod.Lex.lt_iff.2 ?_⟩
      rcases lt_or_eq_of_le hle with h | h
      · exact .inl h
      · exact .inr ⟨h, S.rep.objects.addr a t hw.heap⟩

theorem Sound.handleRead_batch (he : s.phase = .idle)
    (hx : (machine calling0).exec s (.handleRead now) = some s') :
    ∃ batch, Batch s now batch ∧ s'.phase = .calling now [] batch ∧ s'.heap = s.heap := by
  obtain ⟨active', hx', -⟩ := handleRead_spec (S.rep_idle he) now
  simp only [machine, hx'] at hx
  cases hx
  exact ⟨_, S.below_batch now, rfl, rfl⟩

/-- In a batch a step calls the next timer or none, and no timer of the batch changes. -/
theorem Sound.step_batch (he : (machine calling0).enabled s act) (hx : (machine calling0).exec s act = some s')
    (hreset : act.isReset = false) {done todo : List Entry} (hp : s.phase = .calling now done todo) :
    (∃ rest, s'.phase = .calling now (done ++ (act.calls s).toList) rest ∧ (act.calls s).toList ++ rest = todo) ∧
      ∀ a ∈ addrs s.phase.batch, s'.heap a = s.heap a := by
  have hlive : ∀ a ∈ addrs s.phase.batch, s.heap a ≠ none := fun a ha =>
    (S.rep.held a).1 (List.mem_append_right _ (List.mem_append_right _ ha))
  -- any other step than `run` leaves the loop where it is
  have hstay (hc : act.calls s = none) (h : s'.phase = s.phase) :
      ∃ rest, s'.phase = .calling now (done ++ (act.calls s).toList) rest ∧ (act.calls s).toList ++ rest = todo := by
    rw [hc, h, hp]
    exact ⟨todo, by rw [Option.toList_none, List.append_nil], rfl⟩
  cases act with
  | addTimer b w i =>
    cases hx
    refine ⟨hstay rfl rfl, fun a ha => Function.update_of_ne ?_ _ _⟩
    rintro rfl
    exact hlive a ha he.2.2
  | addTimerInLoop b clock =>
    obtain ⟨t, fd, -, hx', -⟩ := addTimerInLoop_spec S.rep he.1 clock
    simp only [machine, hx'] at hx
    cases hx
    exact ⟨hstay rfl rfl, fun _ _ => rfl⟩
  | cancelInLoop id =>
    rcases cancelInLoop_spec S.rep id with ⟨t, -, -, hw, hc, -⟩ | ⟨-, hc⟩
    · simp only [machine, hc] at hx
      cases hx
      refine ⟨hstay rfl rfl, fun a ha => Function.update_of_ne ?_ _ _⟩
      rintro rfl
      exact S.rep.not_waiting_of_batch ha hw
    · simp only [machine, hc] at hx
      split at hx
      · cases hx; exact ⟨hstay rfl rfl, fun _ _ => rfl⟩
      · cases hx; exact ⟨hstay rfl rfl, fun _ _ => rfl⟩
  | handleRead n => exact absurd (hp.symm.trans he) fun h => by cases h
  | run =>
    obtain ⟨now', done', e, rest, hp'⟩ := Phase.next_ne_none he
    cases hp.symm.trans hp'
    cases (run_spec calling0 S hp).1.symm.trans hx
    have hc : Act.run.calls s = some e := by rw [Act.calls, hp]; rfl
    rw [hc]
    exact ⟨⟨rest, rfl, rfl⟩, fun _ _ => rfl⟩
  | reset clock => cases hreset

/-- A one-shot timer of the batch is deleted at its end. -/
theorem Sound.reset_deletes (he : (machine calling0).enabled s (.reset clock))
    (hx : (machine calling0).exec s (.reset clock) = some s') :
    s.deleted ⊆ s'.deleted ∧
      ∀ a ∈ addrs s.phase.batch, ∀ t, s.heap a = some t → t.repeat_ = false → t.sequence ∈ s'.deleted := by
  obtain ⟨now, done, hp⟩ := Phase.next_none he.1 he.2
  obtain ⟨t, hr, -, -, -, hd, hall⟩ := reset_spec (done ++ []) now clock (S.rep_batch hp)
  simp only [machine, hp, hr] at hx
  cases hx
  rw [hp]
  exact ⟨hd, fun a ha t ht hrep => hall a ha t ht (.inl hrep)⟩

end Sound

/-! ## A whole batch -/

theorem called_snoc (tr : List (Sys × Act)) (s : Sys) (act : Act) :
    called (tr ++ [(s, act)]) = called tr ++ (act.calls s).toList := by
  cases h : act.calls s <;> simp [called, h]

/-- From `handleRead` on, up to `reset`: the batch is called from its front. -/
theorem Sound.batch_steps (S : Sound s)
    (hs : Steps (machine calling0) s ((s, .handleRead now) :: mid) u) (hmid : ∀ p ∈ mid, p.2.isReset = false) :
    ∃ batch rest, Batch s now batch ∧ Sound u ∧ u.phase = .calling now (called mid) rest ∧
      called mid ++ rest = batch ∧ ∀ a ∈ addrs batch, u.heap a = s.heap a := by
  cases hs with
  | @cons _ s₁ _ _ _ he hx hs =>
    obtain ⟨_, hx', S₁, -⟩ := step_sound S he
    cases hx'.symm.trans hx
    obtain ⟨batch, hB, hp, hh⟩ := S.handleRead_batch he hx
    have main : (∀ p ∈ mid, p.2.isReset = false) → Sound u ∧ (∃ rest, u.phase = .calling now (called mid) rest ∧
        called mid ++ rest = batch) ∧ ∀ a ∈ addrs batch, u.heap a = s.heap a := by
      refine Steps.inv_trace (fun mid u => (∀ p ∈ mid, p.2.isReset = false) → Sound u ∧
        (∃ rest, u.phase = .calling now (called mid) rest ∧ called mid ++ rest = batch) ∧
        ∀ a ∈ addrs batch, u.heap a = s.heap a) ?_ ?_ hs
      · intro _
        exact ⟨S₁, ⟨batch, hp, rfl⟩, fun a _ => congrFun hh a⟩
      · intro mid v act v' _ ih he hx hno
        obtain ⟨Sv, ⟨rest, hpv, hrest⟩, hheap⟩ := ih fun p hp => hno p (List.mem_append_left _ hp)
        obtain ⟨_, hx', Sv', -⟩ := step_sound Sv he
        cases hx'.symm.trans hx
        obtain ⟨⟨rest', hp', hrest'⟩, hheap'⟩ :=
          Sv.step_batch he hx (hno (v, act) (List.mem_append_right _ List.mem_cons_self)) hpv
        have hbatch : v.phase.batch = batch := by rw [hpv, ← hrest]; rfl
        refine ⟨Sv', ⟨rest', by rw [called_snoc]; exact hp', ?_⟩, fun a ha => ?_⟩
        · rw [called_snoc, List.append_assoc, hrest', hrest]
        · rw [hheap' a (hbatch ▸ ha), hheap a ha]
    obtain ⟨Su, ⟨rest, hpu, hrest⟩, hheap⟩ := main hmid
    exact ⟨batch, rest, hB, Su, hpu, hrest, hheap⟩

/-! ## One-shot timers -/

/-- The timer has been called, and will be deleted if it is not already. -/
def Spent (s : Sys) (q : Nat) : Prop :=
  q ∈ s.deleted ∨ ∃ a ∈ addrs s.phase.done, ∃ t, s.heap a = some t ∧ t.sequence = q ∧ t.repeat_ = false

theorem Sound.deleted_subset (S : Sound s) (he : (machine calling0).enabled s act)
    (hx : (machine calling0).exec s act = some s') : s.deleted ⊆ s'.deleted := by
  cases act with
  | addTimer b w i => cases hx; exact List.Subset.refl _
  | addTimerInLoop b clock =>
    obtain ⟨t, fd, -, hx', -⟩ := addTimerInLoop_spec S.rep he.1 clock
    simp only [machine, hx'] at hx
    cases hx
    exact List.Subset.refl _
  | cancelInLoop id =>
    rcases cancelInLoop_spec S.rep id with ⟨t, -, -, -, hc, -⟩ | ⟨-, hc⟩
    · simp only [machine, hc] at hx
      cases hx
      exact List.subset_append_left _ _
    · simp only [machine, hc] at hx
      split at hx
      · cases hx; exact List.Subset.refl _
      · cases hx; exact List.Subset.refl _
  | handleRead now =>
    obtain ⟨active', hx', -⟩ := handleRead_spec (S.rep_idle he) now
    simp only [machine, hx'] at hx
    cases hx
    exact List.Subset.refl _
  | run =>
    obtain ⟨now, done, e, todo, hp⟩ := Phase.next_ne_none he
    cases (run_spec calling0 S hp).1.symm.trans hx
    exact List.Subset.refl _
  | reset clock => exact (S.reset_deletes he hx).1

theorem Sound.step_spent (S : Sound s) (he : (machine calling0).enabled s act)
    (hx : (machine calling0).exec s act = some s') (h : Spent s q) : Spent s' q := by
  rcases h with hdel | ⟨a, ha, t, ht, rfl, hrep⟩
  · exact .inl (S.deleted_subset he hx hdel)
  · match hp : s.phase with
    | .idle => rw [hp] at ha; cases ha
    | .calling now done todo =>
      have hbatch : a ∈ addrs s.phase.batch := by
        rw [Phase.batch_eq, addrs_append]
        exact List.mem_append_left _ ha
      by_cases hreset : act.isReset = true
      · cases act with
        | reset clock => exact .inl ((S.reset_deletes he hx).2 a hbatch t ht hrep)
        | _ => cases hreset
      · obtain ⟨⟨rest, hp', -⟩, hheap⟩ := S.step_batch he hx (Bool.not_eq_true _ ▸ hreset) hp
        refine .inr ⟨a, ?_, t, (hheap a hbatch).trans ht, rfl, hrep⟩
        rw [hp] at ha
        rw [hp']
        change a ∈ addrs (done ++ _)
        rw [addrs_append]
        exact List.mem_append_left _ ha

/-- What has been called is not called again. -/
theorem Sound.spent_not_starts (S : Sound s) (h : Spent s q) : ¬ Starts s q := by
  rintro ⟨e, hnext, t, ht, hq⟩
  rcases h with hdel | ⟨a, hdone, u, hu, hq', -⟩
  · exact (S.rep.objects.seq _ t ht).2.2 (hq ▸ hdel)
  · have ha := S.rep.objects.inj _ _ t u ht hu (hq.trans hq'.symm)
    have htodo : (ofLex e).2 ∈ addrs s.phase.todo := List.mem_map_of_mem (Phase.next_todo hnext)
    exact (List.nodup_append.1 S.batch_nodup).2.2 _ hdone _ htodo ha.symm

theorem Sound.spent_steps (S : Sound s) (h : Spent s q) (hs : Steps (machine calling0) s post u) :
    ∀ p ∈ post, ¬ Starts p.1 q := by
  obtain ⟨-, hall⟩ := hs.keeps (fun s => Sound s ∧ Spent s q) (fun s b s' _ hs hb hsb => by
    obtain ⟨_, hx', S', -⟩ := step_sound hs.1 hb
    cases hx'.symm.trans hsb
    exact ⟨S', hs.1.step_spent hb hsb hs.2⟩) ⟨S, h⟩
  exact fun p hp => (hall p hp).1.spent_not_starts (hall p hp).2

/-! ## Over a run -/

/-- A batch that is being called began with the `handleRead` that read its time. -/
theorem read_of_batch (h : Run (machine calling0) tr s) {done todo : List Entry} (hp : s.phase = .calling now done todo) :
    ∃ pre r mid, tr = pre ++ (r, .handleRead now) :: mid ∧ ∀ p ∈ mid, p.2.isReset = false := by
  refine Steps.inv_trace (fun tr s => ∀ now done todo, s.phase = .calling now done todo →
    ∃ pre r mid, tr = pre ++ (r, .handleRead now) :: mid ∧ ∀ p ∈ mid, p.2.isReset = false) ?_ ?_ h now done todo hp
  · intro now done todo hp
    cases hp
  · intro tr s act s' hr ih he hx now' done' todo' hp'
    have S := run_sound_all hr
    match hp : s.phase with
    | .idle =>
      cases act with
      | handleRead n =>
        obtain ⟨batch, -, hb, -⟩ := S.handleRead_batch hp hx
        cases hb.symm.trans hp'
        exact ⟨tr, s, [], rfl, fun p hp => absurd hp List.not_mem_nil⟩
      | addTimer b w i => cases hx; exact absurd (hp.symm.trans hp') fun h => by cases h
      | addTimerInLoop b clock =>
        obtain ⟨_, -, rfl⟩ := Option.map_eq_some_iff.1 hx
        exact absurd (hp.symm.trans hp') fun h => by cases h
      | cancelInLoop id =>
        obtain ⟨_, -, rfl⟩ := Option.map_eq_some_iff.1 hx
        exact absurd (hp.symm.trans hp') fun h => by cases h
      | run => exact absurd (congrArg Phase.next hp) he
      | reset clock => exact absurd hp he.1
    | .calling now done todo =>
      by_cases hreset : act.isReset = true
      · cases act with
        | reset clock =>
          obtain ⟨_, _, _, hidle, -⟩ := S.reset_leaves he hx
          exact absurd (hidle.symm.trans hp') fun h => by cases h
        | _ => cases hreset
      · have hreset : act.isReset = false := Bool.not_eq_true _ ▸ hreset
        obtain ⟨⟨rest, hb, -⟩, -⟩ := S.step_batch he hx hreset hp
        cases hb.symm.trans hp'
        obtain ⟨pre, r, mid, rfl, hno⟩ := ih _ done todo hp
        refine ⟨pre, r, mid ++ [(s, act)], by simp, ?_⟩
        intro p hp
        rcases List.mem_append.1 hp with hp | hp
        · exact hno p hp
        · rw [List.mem_singleton.1 hp]
          exact hreset

theorem sinceRead_subset (pre mid : List (Sys × Act)) (s : Sys) (now : Int) :
    sinceRead (pre ++ (s, .handleRead now) :: mid) ⊆ mid := by
  induction mid using List.reverseRecOn with
  | nil => rw [sinceRead_read rfl]; exact List.Subset.refl _
  | append_singleton mid p ih =>
    rw [← List.cons_append, ← List.append_assoc]
    by_cases hp : p.2.isRead = true
    · rw [sinceRead_read hp]
      exact List.nil_subset _
    · rw [sinceRead_snoc (Bool.not_eq_true _ ▸ hp)]
      exact List.append_subset.2 ⟨List.subset_append_of_subset_left _ ih, List.subset_append_right _ _⟩

/-- What becomes of the timers of a batch when `reset` has ended it. -/
structure Settles (calling0 : Bool) (s u' : Sys) (now : Int) (mid : List (Sys × Act)) (batch : List Entry) : Prop where
  once : ∀ a ∈ addrs batch, ∀ t, s.heap a = some t → t.repeat_ = false →
    ∀ post v, Steps (machine calling0) u' post v → ∀ p ∈ post, ¬ Starts p.1 t.sequence
  again : ∀ a ∈ addrs batch, ∀ t, s.heap a = some t → t.repeat_ = true →
    (∀ p ∈ mid, p.2 ≠ .cancelInLoop ⟨a, t.sequence⟩) → Waits u'.toSt a { t with expiration := addTime now t.interval }

theorem settles {batch : List Entry} (h : Run (machine calling0) (pre ++ (s, .handleRead now) :: mid) u) (Su : Sound u)
    (hp : u.phase = .calling now batch []) (hheap : ∀ a ∈ addrs batch, u.heap a = s.heap a)
    (he : (machine calling0).enabled u (.reset clock)) (hx : (machine calling0).exec u (.reset clock) = some u') :
    Settles calling0 s u' now mid batch := by
  have hbatch : u.phase.batch = batch := by rw [hp, Phase.batch, List.append_nil]
  refine ⟨?_, ?_⟩
  · intro a ha t ht hrep post v hpost
    obtain ⟨_, hx', Su', -⟩ := step_sound Su he
    cases hx'.symm.trans hx
    have hdel := (Su.reset_deletes he hx).2 a (hbatch ▸ ha) t ((hheap a ha).trans ht) hrep
    exact Su'.spent_steps (.inl hdel) hpost
  · intro a ha t ht hrep hno
    obtain ⟨now', done, hp', hw⟩ := Su.reinserted he hx (hbatch ▸ ha) ((hheap a ha).trans ht) hrep fun hm => by
      obtain ⟨p, hpm, e⟩ := noted h hm
      exact hno p (sinceRead_subset pre mid _ now hpm) e
    cases hp.symm.trans hp'
    rwa [Timer.restart, if_pos hrep] at hw

/-- A timer that is called is one of the batch, whose `handleRead` found it due;
a one-shot timer is then spent. -/
theorem run_due {v : Sys} (h : Run (machine calling0) (pre ++ (v, .run) :: post) u) :
    ∃ e t, v.phase.next = some e ∧ v.heap (ofLex e).2 = some t ∧
      (∃ pre' r now mid, pre = pre' ++ (r, .handleRead now) :: mid ∧ (∀ p ∈ mid, p.2.isReset = false) ∧
        t.expiration ≤ now) ∧
      (t.repeat_ = false → ∀ p ∈ post, ¬ Starts p.1 t.sequence) := by
  obtain ⟨v₀, hpre, hs⟩ := Steps.split h
  cases hs with
  | cons he hx hpost =>
    have S := run_sound_all hpre
    obtain ⟨now, done, e, todo, hp⟩ := Phase.next_ne_none he
    obtain ⟨hx', S'⟩ := run_spec calling0 S hp
    cases hx'.symm.trans hx
    obtain ⟨pre', r, mid, rfl, hmid⟩ := read_of_batch hpre hp
    obtain ⟨r₀, hr, hbatch⟩ := Steps.split hpre
    obtain rfl : r₀ = r := by cases hbatch; rfl
    obtain ⟨batch, rest, hB, -, hp', hrest, hheap⟩ := (run_sound_all hr).batch_steps hbatch hmid
    cases hp.symm.trans hp'
    have hmem : e ∈ batch := hrest ▸ List.mem_append_right _ List.mem_cons_self
    obtain ⟨hle, t, ht, hw⟩ := (hB.due (ofLex e).1 (ofLex e).2).1 hmem
    have hv : v.heap (ofLex e).2 = some t := (hheap _ (List.mem_map_of_mem hmem)).trans hw.heap
    refine ⟨e, t, by rw [hp]; rfl, hv, ⟨pre', _, now, mid, rfl, hmid, ht ▸ hle⟩, fun hrep => ?_⟩
    refine S'.spent_steps (.inr ⟨(ofLex e).2, ?_, t, hv, rfl, hrep⟩) hpost
    rw [Phase.done, addrs_append]
    exact List.mem_append_right _ List.mem_cons_self

/-- From a `handleRead` at `now` on, for as long as its batch is being called:
what has been called is the front of the batch, which holds the timers that
waited with an expiration of `now` or before, in that order, each once and as
it was; at `reset` all of it has been called, one-shot timers of it are never called
again, and repeating ones wait for `now` plus their interval unless a callback
cancelled them. And in any run, a timer that is called had expired by the time
that was read for its batch, and a one-shot timer is not called a second time. -/
theorem timer_firing (calling0 : Bool) :
    (∀ pre s now mid u, Run (machine calling0) (pre ++ (s, .handleRead now) :: mid) u →
      (∀ p ∈ mid, p.2.isReset = false) →
      ∃ batch rest, Batch s now batch ∧ u.phase = .calling now (called mid) rest ∧ called mid ++ rest = batch ∧
        (∀ a ∈ addrs batch, u.heap a = s.heap a) ∧
        ∀ clock u', (machine calling0).enabled u (.reset clock) → (machine calling0).exec u (.reset clock) = some u' →
          called mid = batch ∧ Settles calling0 s u' now mid batch) ∧
    ∀ pre v post u, Run (machine calling0) (pre ++ (v, .run) :: post) u →
      ∃ e t, v.phase.next = some e ∧ v.heap (ofLex e).2 = some t ∧
        (∃ pre' r now mid, pre = pre' ++ (r, .handleRead now) :: mid ∧ (∀ p ∈ mid, p.2.isReset = false) ∧
          t.expiration ≤ now) ∧
        (t.repeat_ = false → ∀ p ∈ post, ¬ Starts p.1 t.sequence) := by
  constructor
  · intro pre s now mid u h hmid
    obtain ⟨s₀, hpre, hs⟩ := Steps.split h
    obtain rfl : s₀ = s := by cases hs; rfl
    obtain ⟨batch, rest, hB, Su, hp, hrest, hheap⟩ := (run_sound_all hpre).batch_steps hs hmid
    refine ⟨batch, rest, hB, hp, hrest, hheap, ?_⟩
    intro clock u' he hx
    have hnil : rest = [] := by
      have := he.2
      rw [hp] at this
      exact List.head?_eq_none_iff.1 this
    have hall : called mid = batch := by rw [← hrest, hnil, List.append_nil]
    rw [hall, hnil] at hp
    exact ⟨hall, settles h Su hp hheap he hx⟩
  · intro pre v post u h
    exact run_due h

/-- Two timers with one expiration and a repeating one expire together, a
fourth does not; a callback of the batch cancels one that is still to come. -/
theorem timer_firing_batch : ∃ tr s, Run (machine false) tr s ∧
    called tr = [toLex (4, 24), toLex (5, 8), toLex (5, 16)] ∧
    ∃ s', (machine false).exec s (.reset 11) = some s' ∧ Waits s'.toSt 24 ⟨17, ⟨true, 7⟩, 3⟩ ∧
      ∀ post v, Steps (machine false) s' post v → ∀ p ∈ post, ¬ Starts p.1 1 := by
  obtain ⟨r, hr, he, hcalled, hp, h8, h24, hno⟩ : ∃ r ∈ (machine false).play (machine false).init
      [.addTimer 8 5 ⟨false, 0⟩, .addTimer 16 5 ⟨true, 9⟩, .addTimer 24 4 ⟨true, 7⟩, .addTimer 32 11 ⟨false, 0⟩,
        .addTimerInLoop 8 1, .addTimerInLoop 16 1, .addTimerInLoop 24 1, .addTimerInLoop 32 1,
        .handleRead 10, .run, .run, .cancelInLoop ⟨16, 2⟩, .run],
      (machine false).enabled r.2 (.reset 11) ∧ called r.1 = [toLex (4, 24), toLex (5, 8), toLex (5, 16)] ∧
        r.2.phase = .calling 10 [toLex (4, 24), toLex (5, 8), toLex (5, 16)] [] ∧
        r.2.heap 8 = some ⟨5, ⟨false, 0⟩, 1⟩ ∧ r.2.heap 24 = some ⟨4, ⟨true, 7⟩, 3⟩ ∧
        ∀ p ∈ r.1, p.2 ≠ .cancelInLoop ⟨24, 3⟩ := by
    decide +kernel
  have hrun := Machine.play_steps hr
  obtain ⟨s', hx, -⟩ := step_sound (run_sound_all hrun) he
  obtain ⟨pre, s, mid, htr, hmid⟩ := read_of_batch hrun hp
  obtain ⟨batch, rest, -, hp', -, hheap, hend⟩ := (timer_firing false).1 pre s 10 mid r.2 (htr ▸ hrun) hmid
  obtain ⟨-, hc, -⟩ := Phase.calling.inj (hp.symm.trans hp')
  obtain ⟨hall, hset⟩ := hend 11 s' he hx
  rw [← hall, ← hc] at hset hheap
  refine ⟨r.1, r.2, hrun, hcalled, s', hx, ?_, ?_⟩
  · refine hset.again 24 (by decide) ⟨4, ⟨true, 7⟩, 3⟩ ((hheap 24 (by decide)).symm.trans h24) rfl fun p hp => ?_
    exact hno p (htr ▸ List.mem_append_right _ (List.mem_cons_of_mem _ hp))
  · exact hset.once 8 (by decide) ⟨5, ⟨false, 0⟩, 1⟩ ((hheap 8 (by decide)).symm.trans h8) rfl

end Cppnetool.TimerQueue
