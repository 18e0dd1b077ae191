import Cppnetool.Poller
/-!
# The poller's table

`Table` ties the three parts together: the map, the slots and the index in
each channel. `setInterest_spec` and `removeChannel_spec` say what the two
kinds of calls do to a table that satisfies it, in three cases: a first
registration appends a slot, an update rewrites the channel's slot, and a
removal moves the last slot into the free place.
-/
open Lib

namespace Cppnetool.Poller

variable {Ch : Type} {fd : Ch → Int} {s : Sys Ch} {c d x : Ch}

def Registered (s : St Ch) (c : Ch) : Prop := s.channels.find (s.chan c).fd = some c

instance [DecidableEq Ch] (s : St Ch) (c : Ch) : Decidable (Registered s c) :=
  inferInstanceAs (Decidable (_ = _))

/-- Each registered channel's index leads to a slot for its descriptor, each
slot belongs to a registered channel, and the map is as long as the slots. -/
structure Table (fd : Ch → Int) (s : Sys Ch) : Prop where
  fds : ∀ c, (s.chan c).fd = fd c
  size : s.channels.size = s.pollfds.length
  key : ∀ f c, s.channels.find f = some c → fd c = f
  slot : ∀ c, Registered s.toSt c → 0 ≤ (s.chan c).index ∧
    ∃ p, s.slot? c = some p ∧ (p.fd = fd c ∨ p.fd = ignored (fd c))
  owner : ∀ (i : Nat) p, s.pollfds[i]? = some p → ∃ c, Registered s.toSt c ∧ (s.chan c).index = (i : Int)
  fresh : ∀ c, c ∉ s.removed → 0 ≤ (s.chan c).index → Registered s.toSt c
  gone : ∀ c ∈ s.removed, ¬ Registered s.toSt c

theorem table_init [DecidableEq Ch] (fd : Ch → Int) : Table fd (machine fd).init where
  fds _ := rfl
  size := rfl
  key f c h := by simp [machine] at h
  slot c h := by simp [machine, Registered] at h
  owner i p h := by simp [machine] at h
  fresh c _ h := by simp [machine] at h
  gone c h := by simp [machine] at h

section Table
variable (T : Table fd s)
include T

theorem Table.registered_iff : Registered s.toSt c ↔ s.channels.find (fd c) = some c := by
  rw [Registered, T.fds]

theorem Table.index_lt (h : Registered s.toSt c) : (s.chan c).index.toNat < s.pollfds.length := by
  obtain ⟨-, p, hp, -⟩ := T.slot c h
  exact (List.getElem?_eq_some_iff.1 hp).1

theorem Table.index_eq (h : Registered s.toSt c) : ((s.chan c).index.toNat : Int) = (s.chan c).index :=
  Int.toNat_of_nonneg (T.slot c h).1

/-- Different channels have different slots. -/
theorem Table.index_inj (h0 : ∀ c, 0 ≤ fd c) (hc : Registered s.toSt c) (hd : Registered s.toSt d)
    (h : (s.chan c).index = (s.chan d).index) : c = d := by
  obtain ⟨-, p, hp, hpc⟩ := T.slot c hc
  obtain ⟨-, q, hq, hqd⟩ := T.slot d hd
  have hpq : p = q := by
    rw [St.slot?, h] at hp
    rw [St.slot?, hp] at hq
    exact Option.some.inj hq
  subst hpq
  have hfd : fd c = fd d := by
    have := h0 c
    have := h0 d
    simp only [ignored] at hpc hqd
    omega
  rw [T.registered_iff] at hc hd
  rw [hfd, hd] at hc
  exact (Option.some.inj hc).symm

theorem ne_of_registered (hi : (s.chan c).index < 0) (hd : Registered s.toSt d) : d ≠ c := by
  rintro rfl
  have := (T.slot d hd).1
  omega

end Table

/-! ## What the calls do -/

variable [DecidableEq Ch]

theorem updateChannel_new {s : St Ch} (hi : (s.chan c).index < 0)
    (hl : s.channels.find (s.chan c).fd = none) :
    updateChannel s c = some
      { chan := Function.update s.chan c { s.chan c with index := s.pollfds.length }
        pollfds := s.pollfds ++ [⟨(s.chan c).fd, (s.chan c).events, 0⟩]
        channels := s.channels.insert (s.chan c).fd c } := by
  simp [updateChannel, hi, hl]

theorem updateChannel_old {s : St Ch} (h : Registered s c) (h0 : 0 ≤ (s.chan c).index)
    {p : PollFd} (hp : s.slot? c = some p) (hfd : p.fd = (s.chan c).fd ∨ p.fd = ignored (s.chan c).fd) :
    updateChannel s c = some
      { s with
        pollfds := s.pollfds.set (s.chan c).index.toNat
          ⟨if (s.chan c).events = kNoneEvent then ignored (s.chan c).fd else p.fd, (s.chan c).events, 0⟩ } := by
  have hlt : (s.chan c).index < s.pollfds.length := by
    have := (List.getElem?_eq_some_iff.1 hp).1; omega
  have hl : s.channels.find (s.chan c).fd = some c := h
  have hp' : s.pollfds[(s.chan c).index.toNat]? = some p := hp
  unfold updateChannel
  rw [if_neg (by omega), assert_bind (by simp [hl]), assert_bind hl, assert_bind ⟨h0, hlt⟩, hp',
    some_bind, assert_bind hfd]
  split <;> rfl

/-- The last slot moves to the place of the removed channel. -/
theorem removeChannel_spec (T : Table fd s) (h0 : ∀ c, 0 ≤ fd c) (hr : Removable s.toSt c) :
    ∃ d, Registered s.toSt d ∧ ((s.chan d).index.toNat = s.pollfds.length - 1) ∧
    removeChannel s.toSt c = some
      { chan := if d = c then s.chan else Function.update s.chan d { s.chan d with index := (s.chan c).index }
        pollfds := (swapAt s.pollfds (s.chan c).index.toNat (s.pollfds.length - 1)).dropLast
        channels := s.channels.erase (fd c) } := by
  obtain ⟨hl, he, hidx, hslot⟩ := hr
  obtain ⟨p, hp', hpe⟩ := Option.map_eq_some_iff.1 hslot
  simp only [St.slot?, Prod.mk.injEq] at hp' hpe
  have hlast : s.pollfds[s.pollfds.length - 1]? = some s.pollfds[s.pollfds.length - 1] :=
    List.getElem?_eq_getElem (by omega)
  generalize hb : s.pollfds[s.pollfds.length - 1] = back at hlast
  obtain ⟨d, hd, hdi⟩ := T.owner _ _ hlast
  refine ⟨d, hd, by omega, ?_⟩
  simp only [removeChannel]
  rw [assert_bind (by simp [hl]), assert_bind hl, assert_bind he, assert_bind hidx, hp',
    some_bind, assert_bind ⟨hpe.1, hpe.2.trans he.symm⟩]
  have hdc : (s.chan c).index.toNat = s.pollfds.length - 1 ↔ d = c := by
    constructor
    · intro h
      exact T.index_inj h0 hd hl (by omega)
    · rintro rfl; omega
  -- the removed slot may be the last one itself
  by_cases hat : (s.chan c).index.toNat = s.pollfds.length - 1
  · rw [if_pos hat, if_pos (hdc.1 hat), hat, T.fds, swapAt_self]
    rfl
  · have hne : d ≠ c := fun h => hat (hdc.2 h)
    -- the moved channel is looked up by its descriptor, with the ignore encoding undone
    have hfd : (if back.fd < 0 then ignored back.fd else back.fd) = fd d := by
      obtain ⟨-, q, hq, hqfd⟩ := T.slot d hd
      have hqb : s.pollfds[(s.chan d).index.toNat]? = some back := by rw [hdi]; simpa using hlast
      rw [St.slot?, hqb] at hq; cases hq
      rcases hqfd with h | h
      · rw [if_neg (by rw [h]; exact Int.not_lt.2 (h0 d)), h]
      · rw [if_pos (by rw [h]; exact ignored_lt (h0 d)), h, ignored_ignored]
    have hdl : Map.find (s.channels.erase (fd c)) (fd d) = some d := by
      rw [Map.find_erase_ne, T.registered_iff.1 hd]
      intro h
      have hc := T.registered_iff.1 hl
      rw [← h, T.registered_iff.1 hd] at hc
      exact hne (Option.some.inj hc)
    rw [if_neg hat, if_neg hne, List.getLast?_eq_getElem?, hlast, T.fds, some_bind, hfd, hdl, some_bind]
    rfl

/-- `c` registered for the first time, with interest `e`: the slot after the
last is its. -/
def added (s : Sys Ch) (c : Ch) (e : Nat) : Sys Ch where
  chan := Function.update s.chan c { s.chan c with events := e, index := s.pollfds.length }
  pollfds := s.pollfds ++ [⟨(s.chan c).fd, e, 0⟩]
  channels := s.channels.insert (s.chan c).fd c
  removed := s.removed

/-- The interest of the registered `c`, whose slot has descriptor `f`, changed
to `e`. -/
def changed (s : Sys Ch) (c : Ch) (f : Int) (e : Nat) : Sys Ch where
  chan := Function.update s.chan c { s.chan c with events := e }
  pollfds := s.pollfds.set (s.chan c).index.toNat ⟨if e = kNoneEvent then ignored (s.chan c).fd else f, e, 0⟩
  channels := s.channels
  removed := s.removed

/-- `c` removed, with the slot of `d`, the last one, in its place. -/
def dropped (s : Sys Ch) (c d : Ch) : Sys Ch where
  chan := if d = c then s.chan else Function.update s.chan d { s.chan d with index := (s.chan c).index }
  pollfds := (swapAt s.pollfds (s.chan c).index.toNat (s.pollfds.length - 1)).dropLast
  channels := s.channels.erase (s.chan c).fd
  removed := c :: s.removed

/-- What a step does, in three cases. -/
theorem exec_cases (T : Table fd s) (hf : Function.Injective fd) (h0 : ∀ c, 0 ≤ fd c) {a : Act Ch}
    (ha : (machine fd).enabled s a) :
    (∃ c i, a = .set c i ∧ (s.chan c).index < 0 ∧ c ∉ s.removed ∧ s.channels.find (fd c) = none ∧
      (machine fd).exec s a = some (added s c (i.apply (s.chan c).events))) ∨
    (∃ c i p, a = .set c i ∧ Registered s.toSt c ∧ s.slot? c = some p ∧ (p.fd = fd c ∨ p.fd = ignored (fd c)) ∧
      (machine fd).exec s a = some (changed s c p.fd (i.apply (s.chan c).events))) ∨
    (∃ c d, a = .remove c ∧ Registered s.toSt c ∧ Registered s.toSt d ∧
      (s.chan d).index.toNat = s.pollfds.length - 1 ∧ (machine fd).exec s a = some (dropped s c d)) := by
  cases a with
  | set c i =>
    -- only the index tells a first registration from an update
    by_cases hi : (s.chan c).index < 0
    · have hnone : s.channels.find (fd c) = none := by
        cases h : s.channels.find (fd c) with
        | none => rfl
        | some d =>
          have hdc := hf (T.key _ _ h)
          subst hdc
          have := (T.slot d (T.registered_iff.2 h)).1
          omega
      refine .inl ⟨c, i, rfl, hi, ha, hnone, ?_⟩
      rw [← T.fds] at hnone
      simp only [machine, setInterest]
      rw [updateChannel_new (by simpa using hi) (by simpa using hnone)]
      simp [added]
    · have hr : Registered s.toSt c := T.fresh c ha (by omega)
      obtain ⟨hi0, p, hp, hpfd⟩ := T.slot c hr
      refine .inr (.inl ⟨c, i, p, rfl, hr, hp, hpfd, ?_⟩)
      rw [← T.fds] at hpfd
      simp only [machine, setInterest]
      rw [updateChannel_old (p := p) (by simpa [Registered] using hr) (by simpa using hi0)
        (by simpa [St.slot?] using hp) (by simpa using hpfd)]
      simp [changed]
  | remove c =>
    obtain ⟨d, hd, hdi, hx⟩ := removeChannel_spec T h0 ha
    exact .inr (.inr ⟨c, d, rfl, ha.1, hd, hdi, by simp only [machine, hx]; simp [dropped, T.fds]⟩)

/-! ## The three cases -/

section Added
variable {e : Nat} (T : Table fd s) (hi : (s.chan c).index < 0)
include T

@[simp] theorem added_fd : ((added s c e).chan d).fd = fd d := by
  by_cases hdc : d = c
  · subst hdc; simp [added, T.fds]
  · simp [added, hdc, T.fds]

theorem added_registered (hf : Function.Injective fd) :
    Registered (added s c e).toSt d ↔ d = c ∨ Registered s.toSt d := by
  rw [Registered, added_fd T]
  simp only [added, T.fds]
  by_cases hdc : d = c
  · subst hdc; simp
  · rw [Map.find_insert_ne fun h => hdc (hf h), T.registered_iff]; simp [hdc]

include hi

theorem added_slot (hd : Registered s.toSt d) : (added s c e).slot? d = s.slot? d := by
  simp only [St.slot?, added, Function.update_of_ne (ne_of_registered T hi hd)]
  rw [List.getElem?_append_left (T.index_lt hd)]

theorem table_added (hf : Function.Injective fd) (hn : c ∉ s.removed) (hnone : s.channels.find (fd c) = none) :
    Table fd (added s c e) where
  fds d := added_fd T
  size := by simp only [added]; rw [Map.size_insert (by rw [T.fds]; exact hnone), T.size]; simp
  key f d h := by
    simp only [added, T.fds] at h
    by_cases hfc : f = fd c
    · subst hfc; rw [Map.find_insert_self] at h; cases h; rfl
    · rw [Map.find_insert_ne hfc] at h; exact T.key f d h
  slot d hd := by
    rcases (added_registered T hf).1 hd with rfl | hd
    · simp [added, St.slot?, T.fds]
    · rw [added_slot T hi hd]
      simp only [added, Function.update_of_ne (ne_of_registered T hi hd)]
      exact T.slot d hd
  owner i p hp := by
    unfold added at hp
    by_cases hil : i < s.pollfds.length
    · rw [List.getElem?_append_left hil] at hp
      obtain ⟨d, hd, hdi⟩ := T.owner i p hp
      refine ⟨d, (added_registered T hf).2 (.inr hd), ?_⟩
      simp only [added, Function.update_of_ne (ne_of_registered T hi hd), hdi]
    · have hil' : i < s.pollfds.length + 1 := by
        have := (List.getElem?_eq_some_iff.1 hp).1
        simpa using this
      refine ⟨c, (added_registered T hf).2 (.inl rfl), ?_⟩
      simp only [added, Function.update_self]; omega
  fresh d hd h0 := by
    apply (added_registered T hf).2
    by_cases hdc : d = c
    · exact .inl hdc
    · simp only [added, Function.update_of_ne hdc] at h0
      exact .inr (T.fresh d hd h0)
  gone d hd hr := by
    rcases (added_registered T hf).1 hr with rfl | hr
    · exact hn hd
    · exact T.gone d hd hr

end Added

section Changed
variable {e : Nat} {f : Int}

@[simp] theorem changed_index : ((changed s c f e).chan d).index = (s.chan d).index := by
  by_cases hdc : d = c
  · subst hdc; simp [changed]
  · simp [changed, hdc]

@[simp] theorem changed_fd : ((changed s c f e).chan d).fd = (s.chan d).fd := by
  by_cases hdc : d = c
  · subst hdc; simp [changed]
  · simp [changed, hdc]

theorem changed_registered : Registered (changed s c f e).toSt d ↔ Registered s.toSt d := by
  rw [Registered, Registered, changed_fd]; rfl

variable (T : Table fd s) (h0 : ∀ c, 0 ≤ fd c) (hc : Registered s.toSt c)
include T hc

theorem changed_slot_self : (changed s c f e).slot? c =
    some ⟨if e = kNoneEvent then ignored (fd c) else f, e, 0⟩ := by
  rw [St.slot?, changed_index]
  simp only [changed, T.fds]
  rw [List.getElem?_set_self (T.index_lt hc)]

include h0

theorem changed_slot (hd : Registered s.toSt d) (hdc : d ≠ c) : (changed s c f e).slot? d = s.slot? d := by
  rw [St.slot?, changed_index]
  unfold changed
  rw [List.getElem?_set_ne, St.slot?]
  intro h
  have := T.index_eq hc
  have := T.index_eq hd
  exact hdc (T.index_inj h0 hd hc (by omega))

theorem table_changed (hfc : f = fd c ∨ f = ignored (fd c)) : Table fd (changed s c f e) where
  fds d := by rw [changed_fd, T.fds]
  size := by simpa [changed] using T.size
  key := T.key
  slot d hd := by
    have hd' := changed_registered.1 hd
    rw [changed_index]
    refine ⟨(T.slot d hd').1, ?_⟩
    by_cases hdc : d = c
    · subst hdc
      refine ⟨_, changed_slot_self T hc, ?_⟩
      dsimp only
      split
      · exact .inr rfl
      · exact hfc
    · rw [changed_slot T h0 hc hd' hdc]
      exact (T.slot d hd').2
  owner i q hq := by
    have hil : i < s.pollfds.length := by
      have := (List.getElem?_eq_some_iff.1 hq).1
      simpa [changed] using this
    obtain ⟨d, hd, hdi⟩ := T.owner i _ (List.getElem?_eq_getElem hil)
    exact ⟨d, changed_registered.2 hd, by rw [changed_index, hdi]⟩
  fresh d hd h0 := changed_registered.2 (T.fresh d hd (by rwa [changed_index] at h0))
  gone d hd hr := T.gone d hd (changed_registered.1 hr)

end Changed

section Dropped

@[simp] theorem dropped_fd : ((dropped s c d).chan x).fd = (s.chan x).fd := by
  unfold dropped
  split
  · rfl
  · by_cases hx : x = d
    · subst hx; simp
    · simp [hx]

@[simp] theorem dropped_events : ((dropped s c d).chan x).events = (s.chan x).events := by
  unfold dropped
  split
  · rfl
  · by_cases hx : x = d
    · subst hx; simp
    · simp [hx]

theorem dropped_index (hxc : x ≠ c) :
    ((dropped s c d).chan x).index = if x = d then (s.chan c).index else (s.chan x).index := by
  unfold dropped
  split
  · rename_i hdc
    rw [if_neg (by rw [hdc]; exact hxc)]
  · by_cases hx : x = d
    · subst hx; simp
    · simp [hx]

variable (T : Table fd s) (h0 : ∀ c, 0 ≤ fd c) (hc : Registered s.toSt c) (hd : Registered s.toSt d)
  (hdi : (s.chan d).index.toNat = s.pollfds.length - 1)
include T hc

theorem dropped_registered : Registered (dropped s c d).toSt x ↔ x ≠ c ∧ Registered s.toSt x := by
  rw [Registered, dropped_fd, T.fds, T.registered_iff]
  simp only [dropped, T.fds]
  by_cases hx : fd x = fd c
  · rw [hx, Map.find_erase_self, T.registered_iff.1 hc]
    simp [eq_comm]
  · rw [Map.find_erase_ne hx]
    exact ⟨fun h => ⟨fun hxc => hx (by rw [hxc]), h⟩, fun h => h.2⟩

include hd hdi h0

/-- A channel that stays keeps what its slot holds. -/
theorem dropped_slot (hxc : x ≠ c) (hx : Registered s.toSt x) : (dropped s c d).slot? x = s.slot? x := by
  have hlc := T.index_lt hc
  have hlx := T.index_lt hx
  have hec := T.index_eq hc
  have hex := T.index_eq hx
  have hed := T.index_eq hd
  have hxi : (s.chan x).index ≠ (s.chan c).index := fun h => hxc (T.index_inj h0 hx hc h)
  rw [St.slot?, dropped_index hxc]
  unfold dropped
  rw [getElem?_swapAt_dropLast hlc, St.slot?]
  by_cases hxd : x = d
  · subst hxd
    rw [if_pos rfl, if_pos (by omega), if_pos rfl, hdi]
  · have hxl : (s.chan x).index ≠ (s.chan d).index := fun h => hxd (T.index_inj h0 hx hd h)
    rw [if_neg hxd, if_pos (by omega), if_neg (by omega)]

theorem table_dropped : Table fd (dropped s c d) where
  fds x := by rw [dropped_fd, T.fds]
  size := by
    have h := T.registered_iff.1 hc
    rw [← T.fds] at h
    unfold dropped
    rw [Map.size_erase h, length_swapAt_dropLast, T.size]
  key f x hx := by
    simp only [dropped, T.fds] at hx
    by_cases hfc : f = fd c
    · subst hfc; rw [Map.find_erase_self] at hx; cases hx
    · rw [Map.find_erase_ne hfc] at hx; exact T.key f x hx
  slot x hx := by
    obtain ⟨hxc, hx⟩ := (dropped_registered T hc).1 hx
    rw [dropped_slot T h0 hc hd hdi hxc hx, dropped_index hxc]
    refine ⟨?_, (T.slot x hx).2⟩
    split
    · exact (T.slot c hc).1
    · exact (T.slot x hx).1
  owner k p hp := by
    have hlc := T.index_lt hc
    have hec := T.index_eq hc
    have hed := T.index_eq hd
    unfold dropped at hp
    rw [getElem?_swapAt_dropLast hlc] at hp
    split at hp
    · rename_i hk
      -- the slot of `c` is `d`'s now; every other slot kept its owner
      by_cases hki : k = (s.chan c).index.toNat
      · have hdc : d ≠ c := by rintro rfl; omega
        exact ⟨d, (dropped_registered T hc).2 ⟨hdc, hd⟩, by rw [dropped_index hdc, if_pos rfl]; omega⟩
      · rw [if_neg hki] at hp
        obtain ⟨x, hx, hxk⟩ := T.owner k p hp
        have hxc : x ≠ c := by rintro rfl; omega
        have hxd : x ≠ d := by rintro rfl; omega
        exact ⟨x, (dropped_registered T hc).2 ⟨hxc, hx⟩, by rw [dropped_index hxc, if_neg hxd, hxk]⟩
    · cases hp
  fresh x hx hx0 := by
    simp only [dropped, List.mem_cons, not_or] at hx
    rw [dropped_index hx.1] at hx0
    refine (dropped_registered T hc).2 ⟨hx.1, ?_⟩
    split at hx0
    · rename_i hxd; rw [hxd]; exact hd
    · exact T.fresh x hx.2 hx0
  gone x hx hr := by
    obtain ⟨hxc, hr⟩ := (dropped_registered T hc).1 hr
    rcases List.mem_cons.1 hx with rfl | hx
    · exact hxc rfl
    · exact T.gone x hx hr

end Dropped

/-! ## Runs -/

/-- No call fails an assert, and each keeps the table. -/
theorem step_table (hf : Function.Injective fd) (h0 : ∀ c, 0 ≤ fd c) (s : Sys Ch) (a : Act Ch) (T : Table fd s)
    (ha : (machine fd).enabled s a) : ∃ s', (machine fd).exec s a = some s' ∧ Table fd s' := by
  rcases exec_cases T hf h0 ha with
    ⟨c, i, -, hi, hn, hnone, hx⟩ | ⟨c, i, p, -, hc, -, hpfd, hx⟩ | ⟨c, d, -, hc, hd, hdi, hx⟩
  · exact ⟨_, hx, table_added T hi hf hn hnone⟩
  · exact ⟨_, hx, table_changed T h0 hc hpfd⟩
  · exact ⟨_, hx, table_dropped T h0 hc hd hdi⟩

/-- Every state a sequence of calls reaches has a sound table. -/
theorem run_table (hf : Function.Injective fd) (h0 : ∀ c, 0 ≤ fd c) {tr : List (Sys Ch × Act Ch)}
    (h : Run (machine fd) tr s) : Table fd s :=
  h.inv (Table fd) (table_init fd) fun s a s' T ha hx => by
    obtain ⟨s'', hx', T'⟩ := step_table hf h0 s a T ha
    rw [hx] at hx'; cases hx'; exact T'

end Cppnetool.Poller
