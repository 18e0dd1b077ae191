import Cppnetool.PollerDispatch
/-!
# Descriptors that are used again

The kernel gives the number of a closed socket to the next one it opens, and a
`Connector` gives the descriptor it connected to a new `TcpConnection`. So one
descriptor has many channels, one after the other, and the poller, which knows
a channel by its descriptor, must have forgotten the last one before the next
comes. `leases` says which descriptors are open and which channel stands for
each; the rules of `machine` are those that the owners of channels keep.
-/
open Lib

namespace Cppnetool.Descriptors

open Poller (Sys Registered Table Removable PollResult polled ready)

structure St (Ch : Type) extends Sys Ch where
  /-- The open descriptors, each with the channel that was made for it and is
  not removed yet. -/
  leases : Nat → Option (Option Ch)

variable {Ch : Type}

section Calls
variable [DecidableEq Ch]

/-- `socket`, `accept4` and their like give the number `fd`. -/
def opened (s : St Ch) (fd : Nat) : St Ch := { s with leases := Function.update s.leases fd (some none) }

/-- `close(2)`. -/
def closed (s : St Ch) (fd : Nat) : St Ch := { s with leases := Function.update s.leases fd none }

/-- `new Channel(loop, fd)` and the first call of the new channel. -/
def watch (s : St Ch) (c : Ch) (fd : Nat) (i : Interest) : Option (St Ch) := do
  let t ← Poller.setInterest { s.toSt with chan := Function.update s.chan c { fd := fd } } c i
  return { toSt := t, removed := s.removed, leases := Function.update s.leases fd (some (some c)) }

/-- `enableReading` and its like. -/
def set (s : St Ch) (c : Ch) (i : Interest) : Option (St Ch) := do
  let t ← Poller.setInterest s.toSt c i
  return { toSt := t, removed := s.removed, leases := s.leases }

/-- `EventLoop::removeChannel`. -/
def remove (s : St Ch) (c : Ch) : Option (St Ch) := do
  let t ← Poller.removeChannel s.toSt c
  return { toSt := t, removed := c :: s.removed
           leases := Function.update s.leases (s.chan c).fd.toNat (some none) }

/-- `poll` writes the events into the slots, and `fillActiveChannels` makes the
list of the channels that have some. -/
def poll (s : St Ch) (revents : List Nat) (numEvents : Nat) : Option (St Ch × List Ch) := do
  let pollfds := polled s.pollfds revents
  let (chan, activeChannels) ← Poller.fillActiveChannels s.channels pollfds numEvents s.chan []
  return ({ s with chan := chan, pollfds := pollfds }, activeChannels)

/-! ## Runs -/

inductive Act (Ch : Type)
  | opened (fd : Nat)
  | closed (fd : Nat)
  | watch (c : Ch) (fd : Nat) (i : Interest)
  | set (c : Ch) (i : Interest)
  | remove (c : Ch)
  | poll (revents : List Nat) (numEvents : Nat)

/-- A channel object that was made and is not removed. -/
def Made (s : St Ch) (c : Ch) : Prop := 0 ≤ (s.chan c).index ∧ c ∉ s.removed

instance (s : St Ch) (c : Ch) : Decidable (Made s c) := inferInstanceAs (Decidable (_ ∧ _))

/-- The kernel gives only numbers that are free. A channel is made for an open
descriptor that has none, is not used after its removal, and is removed
before its descriptor is closed. Nothing is asked of its interest then: the
asserts of `removeChannel` may fail. -/
def enabled (s : St Ch) : Act Ch → Prop
  | .opened fd => s.leases fd = none
  | .closed fd => s.leases fd = some none
  | .watch c fd _ => s.leases fd = some none ∧ (s.chan c).index < 0 ∧ c ∉ s.removed
  | .set c _ => Made s c
  | .remove c => Made s c
  | .poll revents numEvents => PollResult s.pollfds revents numEvents

instance (pollfds : List PollFd) (revents : List Nat) (numEvents : Nat) :
    Decidable (PollResult pollfds revents numEvents) :=
  decidable_of_iff (revents.length = pollfds.length ∧ (∀ q ∈ pollfds.zip revents, 0 < q.2 → 0 ≤ q.1.fd) ∧
      numEvents = revents.countP (0 < ·))
    ⟨fun ⟨h1, h2, h3⟩ => ⟨h1, fun _ p r hp hr =>
      h2 (p, r) (List.mem_of_getElem? (List.getElem?_zip_eq_some.2 ⟨hp, hr⟩)), h3⟩,
    fun h => ⟨h.length, fun q hq => by
      obtain ⟨k, hk⟩ := List.mem_iff_getElem?.1 hq
      obtain ⟨hp, hr⟩ := List.getElem?_zip_eq_some.1 hk
      exact h.watched k q.1 q.2 hp hr, h.count⟩⟩

instance (s : St Ch) : ∀ a, Decidable (enabled s a)
  | .opened _ => inferInstanceAs (Decidable (_ = _))
  | .closed _ => inferInstanceAs (Decidable (_ = _))
  | .watch _ _ _ => inferInstanceAs (Decidable (_ ∧ _ ∧ _))
  | .set c _ => inferInstanceAs (Decidable (Made s c))
  | .remove c => inferInstanceAs (Decidable (Made s c))
  | .poll revents numEvents => inferInstanceAs (Decidable (PollResult s.pollfds revents numEvents))

def exec (s : St Ch) : Act Ch → Option (St Ch)
  | .opened fd => some (opened s fd)
  | .closed fd => some (closed s fd)
  | .watch c fd i => watch s c fd i
  | .set c i => set s c i
  | .remove c => remove s c
  | .poll revents numEvents => (poll s revents numEvents).map Prod.fst

variable (Ch) in
def machine : Machine (St Ch) (Act Ch) where
  init := { chan := fun _ => { fd := 0 }, pollfds := [], channels := ∅, removed := [], leases := fun _ => none }
  enabled := enabled
  exec := exec

instance (s : St Ch) (a : Act Ch) : Decidable ((machine Ch).enabled s a) :=
  inferInstanceAs (Decidable (enabled s a))

end Calls

/-! ## The invariant -/

/-- The poller's map has exactly the channels that stand for a descriptor. -/
structure Inv (s : St Ch) : Prop where
  table : Table (fun c => (s.chan c).fd) s.toSys
  nonneg : ∀ c, 0 ≤ (s.chan c).fd
  lease : ∀ (fd : Nat) c, s.leases fd = some (some c) ↔ s.channels.find (fd : Int) = some c

theorem inv_init [DecidableEq Ch] : Inv (machine Ch).init where
  table := Poller.table_init (fun _ => 0)
  nonneg _ := by simp [machine]
  lease fd c := by simp [machine]

variable {s s' : St Ch} {c d : Ch} {fd e : Nat} {i : Interest}

/-- What `poll` is asked about a channel. -/
def asked (s : Poller.St Ch) (c : Ch) : Option (Int × Nat) := (s.slot? c).map fun p => (p.fd, p.events)

/-- What a step leaves alone about the channels `P`: all but the places of
their slots, and the events found there. -/
structure Frame (P : Ch → Prop) (s s' : St Ch) : Prop where
  fd : ∀ d, P d → (s'.chan d).fd = (s.chan d).fd
  events : ∀ d, P d → (s'.chan d).events = (s.chan d).events
  fresh : ∀ d, P d → ((s'.chan d).index < 0 ↔ (s.chan d).index < 0)
  removed : ∀ d, P d → (d ∈ s'.removed ↔ d ∈ s.removed)
  registered : ∀ d, P d → (Registered s'.toSt d ↔ Registered s.toSt d)
  asked : ∀ d, P d → Registered s.toSt d → asked s'.toSt d = asked s.toSt d

theorem Frame.mono {P Q : Ch → Prop} (F : Frame P s s') (h : ∀ d, Q d → P d) : Frame Q s s' where
  fd d hd := F.fd d (h d hd)
  events d hd := F.events d (h d hd)
  fresh d hd := F.fresh d (h d hd)
  removed d hd := F.removed d (h d hd)
  registered d hd := F.registered d (h d hd)
  asked d hd := F.asked d (h d hd)

theorem Frame.of_leases (leases : Nat → Option (Option Ch)) (P : Ch → Prop) : Frame P s { s with leases := leases } where
  fd _ _ := rfl
  events _ _ := rfl
  fresh _ _ := Iff.rfl
  removed _ _ := Iff.rfl
  registered _ _ := Iff.rfl
  asked _ _ _ := rfl

section Inv
variable (I : Inv s)
include I

theorem Inv.registered_iff : Registered s.toSt c ↔ s.leases (s.chan c).fd.toNat = some (some c) := by
  rw [I.lease, Int.toNat_of_nonneg (I.nonneg c)]
  rfl

theorem Inv.made_iff : Made s c ↔ Registered s.toSt c :=
  ⟨fun h => I.table.fresh c h.2 h.1, fun h => ⟨(I.table.slot c h).1, fun hm => I.table.gone c hm h⟩⟩

/-- A descriptor that no channel stands for is not in the poller's map. -/
theorem Inv.find_none (h : ∀ c, s.leases fd ≠ some (some c)) : s.channels.find (fd : Int) = none := by
  cases hf : s.channels.find (fd : Int) with
  | none => rfl
  | some c => exact absurd ((I.lease fd c).2 hf) (h c)

theorem Inv.ne_of_registered (hi : (s.chan c).index < 0) (hd : Registered s.toSt d) : d ≠ c :=
  Poller.ne_of_registered I.table hi hd

/-- The leases of the descriptors that no channel stands for may change. -/
theorem Inv.release {o : Option (Option Ch)} (h : ∀ c, s.leases fd ≠ some (some c)) (ho : ∀ c, o ≠ some (some c)) :
    Inv { s with leases := Function.update s.leases fd o } where
  table := I.table
  nonneg := I.nonneg
  lease f c := by
    by_cases hf : f = fd
    · subst hf
      simp [ho c, I.find_none h]
    · simpa [hf] using I.lease f c

end Inv

/-! ## What has events -/

/-- The state after `poll`, which writes no more than `revents`. -/
def revented (s : St Ch) (revents : List Nat) (chan : Ch → Channel) : St Ch :=
  { s with chan := chan, pollfds := polled s.pollfds revents }

section Revented
variable {revents : List Nat} {numEvents : Nat} {chan : Ch → Channel}
  (hr : PollResult s.pollfds revents numEvents) (hchan : ∀ c, chan c = { s.chan c with revents := (chan c).revents })
include hchan

theorem revented_fd : ((revented s revents chan).chan c).fd = (s.chan c).fd := by
  simp only [revented]
  rw [hchan]

theorem revented_index : ((revented s revents chan).chan c).index = (s.chan c).index := by
  simp only [revented]
  rw [hchan]

theorem revented_registered : Registered (revented s revents chan).toSt c ↔ Registered s.toSt c := by
  rw [Registered, revented_fd hchan]
  rfl

include hr

omit hchan in
theorem polled_slot {k : Nat} : (polled s.pollfds revents)[k]? =
    (s.pollfds[k]?).map fun p => { p with revents := revents[k]?.getD 0 } := by
  rw [polled, List.getElem?_zipWith]
  cases hp : s.pollfds[k]? with
  | none => rfl
  | some p =>
    have hk := (List.getElem?_eq_some_iff.1 hp).1
    rw [List.getElem?_eq_getElem (by rw [hr.length]; exact hk)]
    rfl

theorem revented_asked : asked (revented s revents chan).toSt c = asked s.toSt c := by
  simp only [asked, Poller.St.slot?]
  rw [revented_index hchan]
  simp only [revented]
  rw [polled_slot hr, Option.map_map]
  rfl

theorem frame_revented : Frame (fun _ => True) s (revented s revents chan) where
  fd _ _ := revented_fd hchan
  events d _ := by
    simp only [revented]
    rw [hchan]
  fresh _ _ := by rw [revented_index hchan]
  removed _ _ := Iff.rfl
  registered _ _ := revented_registered hchan
  asked _ _ _ := revented_asked hr hchan

theorem inv_revented (I : Inv s) : Inv (revented s revents chan) where
  table :=
    { fds := fun _ => rfl
      size := by
        simp only [revented, polled, List.length_zipWith, hr.length, Nat.min_self]
        exact I.table.size
      key := fun f d h => by
        rw [revented_fd hchan]
        exact I.table.key f d h
      slot := fun d hd => by
        have hd' := (revented_registered hchan).1 hd
        obtain ⟨hi, p, hp, hf⟩ := I.table.slot d hd'
        rw [revented_index hchan, Poller.St.slot?, revented_index hchan, revented_fd hchan]
        have hp' : s.pollfds[(s.chan d).index.toNat]? = some p := hp
        refine ⟨hi, { p with revents := revents[(s.chan d).index.toNat]?.getD 0 }, ?_, hf⟩
        simp only [revented]
        rw [polled_slot hr, hp']
        rfl
      owner := fun k p hp => by
        simp only [revented] at hp
        rw [polled_slot hr] at hp
        obtain ⟨q, hq, rfl⟩ := Option.map_eq_some_iff.1 hp
        obtain ⟨d, hd, hdk⟩ := I.table.owner k q hq
        exact ⟨d, (revented_registered hchan).2 hd, by rw [revented_index hchan]; exact hdk⟩
      fresh := fun d hd h0 => by
        rw [revented_index hchan] at h0
        exact (revented_registered hchan).2 (I.table.fresh d hd h0)
      gone := fun d hd h => I.table.gone d hd ((revented_registered hchan).1 h) }
  nonneg d := by
    rw [revented_fd hchan]
    exact I.nonneg d
  lease := I.lease

end Revented

variable [DecidableEq Ch]

/-! ## A channel for a descriptor -/

/-- The new channel's slot is the last one. -/
def watched (s : St Ch) (c : Ch) (fd e : Nat) : St Ch where
  chan := Function.update s.chan c { fd := fd, events := e, index := s.pollfds.length }
  pollfds := s.pollfds ++ [⟨fd, e, 0⟩]
  channels := s.channels.insert fd c
  removed := s.removed
  leases := Function.update s.leases fd (some (some c))

section Watched

theorem watched_chan_self : ((watched s c fd e).chan c) = { fd := fd, events := e, index := s.pollfds.length } :=
  Function.update_self ..

theorem watched_chan (hd : d ≠ c) : (watched s c fd e).chan d = s.chan d := Function.update_of_ne hd ..

theorem watched_registered_self : Registered (watched s c fd e).toSt c := by
  rw [Registered, watched_chan_self]
  exact Map.find_insert_self

theorem watched_slot_self : (watched s c fd e).slot? c = some ⟨fd, e, 0⟩ := by
  rw [Poller.St.slot?, watched_chan_self]
  simp [watched]

variable (I : Inv s) (hl : s.leases fd = some none) (hi : (s.chan c).index < 0)
include I hl

theorem watched_registered (hdc : d ≠ c) : Registered (watched s c fd e).toSt d ↔ Registered s.toSt d := by
  rw [Registered, watched_chan hdc, Registered]
  simp only [watched]
  by_cases hf : (s.chan d).fd = fd
  · rw [hf, Map.find_insert_self, I.find_none (by simp [hl])]
    simp [Ne.symm hdc]
  · rw [Map.find_insert_ne hf]

omit hl in
theorem watched_slot (hdc : d ≠ c) (hd : Registered s.toSt d) : (watched s c fd e).slot? d = s.slot? d := by
  rw [Poller.St.slot?, watched_chan hdc]
  simp only [watched]
  rw [List.getElem?_append_left (I.table.index_lt hd), Poller.St.slot?]

theorem frame_watched : Frame (· ≠ c) s (watched s c fd e) where
  fd d hdc := by rw [watched_chan hdc]
  events d hdc := by rw [watched_chan hdc]
  fresh d hdc := by rw [watched_chan hdc]
  removed _ _ := Iff.rfl
  registered _ hdc := watched_registered I hl hdc
  asked _ hdc hd := by rw [asked, watched_slot I hdc hd, asked]

include hi

theorem table_watched (hn : c ∉ s.removed) :
    Table (fun d => ((watched s c fd e).chan d).fd) (watched s c fd e).toSys where
  fds _ := rfl
  size := by
    simp only [watched]
    rw [Map.size_insert (I.find_none (by simp [hl])), I.table.size]
    simp
  key f d h := by
    simp only [watched] at h
    by_cases hf : f = fd
    · subst hf
      rw [Map.find_insert_self] at h
      cases h
      simp [watched]
    · rw [Map.find_insert_ne hf] at h
      have hd := I.table.key f d h
      rw [watched_chan (I.ne_of_registered hi (by rw [Registered]; simpa [hd] using h))]
      exact hd
  slot d hd := by
    by_cases hdc : d = c
    · subst hdc
      rw [watched_slot_self, watched_chan_self]
      exact ⟨Int.natCast_nonneg _, _, rfl, .inl rfl⟩
    · have hd' := (watched_registered I hl hdc).1 hd
      rw [watched_slot I hdc hd', watched_chan hdc]
      exact I.table.slot d hd'
  owner k p hp := by
    unfold watched at hp
    by_cases hk : k < s.pollfds.length
    · rw [List.getElem?_append_left hk] at hp
      obtain ⟨d, hd, hdk⟩ := I.table.owner k p hp
      have hdc := I.ne_of_registered hi hd
      exact ⟨d, (watched_registered I hl hdc).2 hd, by rw [watched_chan hdc]; exact hdk⟩
    · have hk' : k < s.pollfds.length + 1 := by
        have := (List.getElem?_eq_some_iff.1 hp).1
        simpa using this
      refine ⟨c, watched_registered_self, ?_⟩
      rw [watched_chan_self]
      dsimp only
      omega
  fresh d hd h0 := by
    by_cases hdc : d = c
    · subst hdc; exact watched_registered_self
    · rw [watched_chan hdc] at h0
      exact (watched_registered I hl hdc).2 (I.table.fresh d hd h0)
  gone d hd := by
    have hdc : d ≠ c := by rintro rfl; exact hn hd
    rw [watched_registered I hl hdc]
    exact I.table.gone d hd

theorem inv_watched (hn : c ∉ s.removed) : Inv (watched s c fd e) where
  table := table_watched I hl hi hn
  nonneg d := by
    by_cases hdc : d = c
    · subst hdc
      rw [watched_chan_self]
      exact Int.natCast_nonneg _
    · rw [watched_chan hdc]
      exact I.nonneg d
  lease f d := by
    simp only [watched]
    by_cases hf : f = fd
    · subst hf
      simp
    · rw [Function.update_of_ne hf, Map.find_insert_ne fun h => hf (Int.ofNat_inj.1 h)]
      exact I.lease f d

omit hi in
/-- The poller's assert that it does not have the descriptor yet holds. -/
theorem watch_eq : watch s c fd i = some (watched s c fd (i.apply kNoneEvent)) := by
  have hnone := I.find_none (by simp [hl] : ∀ c, s.leases fd ≠ some (some c))
  simp only [watch, Poller.setInterest]
  rw [Poller.updateChannel_new (by simp) (by simpa using hnone)]
  simp [watched]

end Watched

/-! ## Its interest -/

/-- The interest of the registered `c`, whose slot has descriptor `f`, is `e` from now on. -/
def changed (s : St Ch) (c : Ch) (f : Int) (e : Nat) : St Ch :=
  { toSys := Poller.changed s.toSys c f e, leases := s.leases }

section Changed
variable {f : Int}

theorem changed_events_self : ((changed s c f e).chan c).events = e := by simp [changed, Poller.changed]

@[simp] theorem changed_fd : ((changed s c f e).chan d).fd = (s.chan d).fd := Poller.changed_fd

@[simp] theorem changed_index : ((changed s c f e).chan d).index = (s.chan d).index := Poller.changed_index

theorem changed_registered : Registered (changed s c f e).toSt d ↔ Registered s.toSt d := Poller.changed_registered

variable (I : Inv s) (hc : Registered s.toSt c)
include I hc

theorem changed_slot_self : (changed s c f e).slot? c =
    some ⟨if e = kNoneEvent then ignored (s.chan c).fd else f, e, 0⟩ :=
  Poller.changed_slot_self I.table hc

theorem frame_changed : Frame (· ≠ c) s (changed s c f e) where
  fd _ _ := changed_fd
  events d hdc := by simp [changed, Poller.changed, hdc]
  fresh d hdc := by rw [changed_index]
  removed _ _ := Iff.rfl
  registered _ _ := changed_registered
  asked d hdc hd := congrArg (Option.map _) (Poller.changed_slot I.table I.nonneg hc hd hdc)

theorem inv_changed (hf : f = (s.chan c).fd ∨ f = ignored (s.chan c).fd) : Inv (changed s c f e) where
  table := by
    have h := Poller.table_changed (e := e) I.table I.nonneg hc hf
    rwa [show (fun d => (s.chan d).fd) = fun d => ((changed s c f e).chan d).fd from funext fun d => changed_fd.symm] at h
  nonneg d := by
    rw [changed_fd]
    exact I.nonneg d
  lease := I.lease

/-- The asserts of an update hold for a registered channel. -/
theorem set_eq : ∃ p, s.slot? c = some p ∧ (p.fd = (s.chan c).fd ∨ p.fd = ignored (s.chan c).fd) ∧
    set s c i = some (changed s c p.fd (i.apply (s.chan c).events)) := by
  obtain ⟨hi, p, hp, hf⟩ := I.table.slot c hc
  refine ⟨p, hp, hf, ?_⟩
  simp only [set, Poller.setInterest]
  rw [Poller.updateChannel_old (p := p) (by simpa [Registered] using hc) (by simpa using hi)
    (by simpa [Poller.St.slot?] using hp) (by simpa using hf)]
  simp [changed, Poller.changed]

end Changed

/-! ## Its removal -/

/-- `c` is gone; its descriptor stays open, with no channel. -/
def dropped (s : St Ch) (c d : Ch) : St Ch :=
  { toSys := Poller.dropped s.toSys c d
    leases := Function.update s.leases (s.chan c).fd.toNat (some none) }

section Dropped
variable {x : Ch}

@[simp] theorem dropped_fd : ((dropped s c d).chan x).fd = (s.chan x).fd := Poller.dropped_fd

variable (I : Inv s) (hc : Registered s.toSt c)
include I hc

theorem dropped_registered : Registered (dropped s c d).toSt x ↔ x ≠ c ∧ Registered s.toSt x :=
  Poller.dropped_registered I.table hc

variable (hd : Registered s.toSt d) (hdi : (s.chan d).index.toNat = s.pollfds.length - 1)
include hd hdi

theorem frame_dropped : Frame (· ≠ c) s (dropped s c d) where
  fd _ _ := dropped_fd
  events _ _ := Poller.dropped_events
  fresh x hxc := by
    have h := Poller.dropped_index (s := s.toSys) (d := d) hxc
    simp only [dropped]
    rw [h]
    -- the channel that moves had a slot before, and has one now
    split
    · rename_i hxd
      subst hxd
      have hi := (I.table.slot c hc).1
      have hj := (I.table.slot x hd).1
      omega
    · exact Iff.rfl
  removed x hxc := by simp [dropped, Poller.dropped, hxc]
  registered x hxc := by simp [dropped_registered I hc, hxc]
  asked x hxc hx := congrArg (Option.map _) (Poller.dropped_slot I.table I.nonneg hc hd hdi hxc hx)

theorem inv_dropped : Inv (dropped s c d) where
  table := by
    have h := Poller.table_dropped I.table I.nonneg hc hd hdi
    rwa [show (fun x => (s.chan x).fd) = fun x => ((dropped s c d).chan x).fd from funext fun x => dropped_fd.symm] at h
  nonneg x := by
    rw [dropped_fd]
    exact I.nonneg x
  lease fd x := by
    have hfd : (((s.chan c).fd.toNat : Nat) : Int) = (s.chan c).fd := Int.toNat_of_nonneg (I.nonneg c)
    simp only [dropped, Poller.dropped]
    by_cases hf : fd = (s.chan c).fd.toNat
    · subst hf
      simp [hfd]
    · rw [Function.update_of_ne hf, Map.find_erase_ne fun h => hf (by rw [← h, Int.toNat_natCast])]
      exact I.lease fd x

end Dropped

theorem remove_eq (I : Inv s) (hr : Removable s.toSt c) : ∃ d, Registered s.toSt d ∧
    (s.chan d).index.toNat = s.pollfds.length - 1 ∧ remove s c = some (dropped s c d) := by
  obtain ⟨d, hd, hdi, hx⟩ := Poller.removeChannel_spec I.table I.nonneg hr
  exact ⟨d, hd, hdi, by simp [remove, hx, dropped, Poller.dropped]⟩

omit [DecidableEq Ch] in
/-- A channel with events is one that `poll` was asked about. -/
theorem asked_of_ready (I : Inv s) {revents : List Nat} {numEvents r : Nat} (hr : PollResult s.pollfds revents numEvents)
    (hc : Registered s.toSt c) (hm : ((s.chan c).index, r) ∈ ready revents 0) :
    ∃ e, asked s.toSt c = some ((s.chan c).fd, e) := by
  obtain ⟨⟨r', k⟩, hq, he⟩ := List.mem_map.1 hm
  obtain ⟨hq, hpos⟩ := List.mem_filter.1 hq
  have hk := List.mem_zipIdx_iff_getElem?.1 hq
  simp only [Prod.mk.injEq] at he
  obtain ⟨-, p, hp, hf⟩ := I.table.slot c hc
  refine ⟨p.events, ?_⟩
  have h0 : 0 ≤ p.fd := hr.watched k p r' (by rw [Poller.St.slot?, ← he.1] at hp; exact hp) hk (by simpa using hpos)
  have hfd : p.fd = (s.chan c).fd := by
    have := ignored_lt (I.nonneg c)
    omega
  rw [asked, hp, ← hfd]
  rfl

/-- The list has the channels of exactly the slots with events, each once. -/
theorem poll_eq (I : Inv s) {revents : List Nat} {numEvents : Nat} (hr : PollResult s.pollfds revents numEvents) :
    ∃ chan new, poll s revents numEvents = some (revented s revents chan, new) ∧
      (∀ c, chan c = { s.chan c with revents := (chan c).revents }) ∧
      new.map (fun c => ((s.chan c).index, (chan c).revents)) = ready revents 0 ∧ new.Nodup ∧
      ∀ c ∈ new, Registered s.toSt c ∧ ∃ e, asked s.toSt c = some ((s.chan c).fd, e) := by
  obtain ⟨chan, new, hfill, hmap, hnd, hreg, hchan⟩ := I.table.dispatch I.nonneg [] hr
  refine ⟨chan, new, by simp [poll, hfill, revented], hchan, hmap, hnd, fun c hc => ⟨hreg c hc, ?_⟩⟩
  refine asked_of_ready (r := (chan c).revents) I hr (hreg c hc) ?_
  rw [← hmap]
  exact List.mem_map_of_mem (f := fun c => ((s.chan c).index, (chan c).revents)) hc

/-! ## Every run -/

/-- `removeChannel` succeeds only where the asserts at its head hold. -/
theorem removable_of_remove (hx : remove s c = some s') : Removable s.toSt c := by
  obtain ⟨t, hx, -⟩ := Option.bind_eq_some_iff.1 hx
  unfold Poller.removeChannel at hx
  obtain ⟨_, -, hx⟩ := Option.bind_eq_some_iff.1 hx
  obtain ⟨_, hc, hx⟩ := Option.bind_eq_some_iff.1 hx
  obtain ⟨_, he, hx⟩ := Option.bind_eq_some_iff.1 hx
  obtain ⟨_, hi, hx⟩ := Option.bind_eq_some_iff.1 hx
  obtain ⟨p, hp, hx⟩ := Option.bind_eq_some_iff.1 hx
  obtain ⟨_, hs, -⟩ := Option.bind_eq_some_iff.1 hx
  obtain ⟨hf, hpe⟩ := assert_eq_some.1 hs
  have he : (s.chan c).events = kNoneEvent := assert_eq_some.1 he
  refine ⟨assert_eq_some.1 hc, he, assert_eq_some.1 hi, ?_⟩
  rw [Poller.St.slot?, hp, Option.map_some, hf, hpe, he]

/-- No assert fails in a step that keeps the rules, but those of `removeChannel`. -/
theorem step_inv {a : Act Ch} (I : Inv s) (ha : enabled s a) (hr : ∀ c, a = .remove c → Removable s.toSt c) :
    ∃ s', exec s a = some s' ∧ Inv s' := by
  cases a with
  | opened fd =>
    have hl : s.leases fd = none := ha
    exact ⟨_, rfl, I.release (by simp [hl]) (by simp)⟩
  | closed fd =>
    have hl : s.leases fd = some none := ha
    exact ⟨_, rfl, I.release (by simp [hl]) (by simp)⟩
  | watch c fd i =>
    obtain ⟨hl, hi, hn⟩ := ha
    exact ⟨_, watch_eq I hl, inv_watched I hl hi hn⟩
  | set c i =>
    have hc := I.made_iff.1 ha
    obtain ⟨p, -, hf, hx⟩ := set_eq (i := i) I hc
    exact ⟨_, hx, inv_changed I hc hf⟩
  | remove c =>
    obtain ⟨d, hd, hdi, hx⟩ := remove_eq I (hr c rfl)
    exact ⟨_, hx, inv_dropped I (hr c rfl).1 hd hdi⟩
  | poll revents numEvents =>
    obtain ⟨chan, new, hx, hchan, -⟩ := poll_eq I ha
    exact ⟨_, by simp [exec, hx], inv_revented ha hchan I⟩

theorem removable_of_exec {a : Act Ch} (hx : exec s a = some s') : ∀ c, a = .remove c → Removable s.toSt c := by
  rintro c rfl
  exact removable_of_remove hx

/-! ## What the calls so far say of a slot -/

/-- The channel has been updated since it was made, and has no interest left. -/
def Quieted (acts : List (Act Ch)) (s : St Ch) (c : Ch) : Prop :=
  (∃ i, .set c i ∈ acts) ∧ (s.chan c).events = kNoneEvent

/-- The first update of a channel leaves its descriptor in the slot. One of the
later ones changes that if there is no interest left. -/
structure Told (acts : List (Act Ch)) (s : St Ch) : Prop where
  inv : Inv s
  made : ∀ c i, .set c i ∈ acts → 0 ≤ (s.chan c).index
  first : ∀ c, Registered s.toSt c → (∀ i, .set c i ∉ acts) → ∃ e, asked s.toSt c = some ((s.chan c).fd, e)
  later : ∀ c, Registered s.toSt c → Quieted acts s c → asked s.toSt c = some (ignored (s.chan c).fd, kNoneEvent)

theorem told_init : Told [] (machine Ch).init where
  inv := inv_init
  made _ _ h := by cases h
  first c h := by simp [Registered, machine] at h
  later c h := by simp [Registered, machine] at h

section Told
variable {acts : List (Act Ch)} {a : Act Ch} (T : Told acts s)
include T

omit [DecidableEq Ch] in
/-- The step leaves the channels `P` alone; what it says of the others is to be shown. -/
theorem Told.step {P : Ch → Prop} (I : Inv s') (F : Frame P s s') (ha : ∀ d i, a = .set d i → ¬ P d)
    (hmade : ∀ d, ¬ P d → ∀ i, .set d i ∈ acts ++ [a] → 0 ≤ (s'.chan d).index)
    (hfirst : ∀ d, ¬ P d → Registered s'.toSt d → (∀ i, .set d i ∉ acts ++ [a]) →
      ∃ e, asked s'.toSt d = some ((s'.chan d).fd, e))
    (hlater : ∀ d, ¬ P d → Registered s'.toSt d → Quieted (acts ++ [a]) s' d →
      asked s'.toSt d = some (ignored (s'.chan d).fd, kNoneEvent)) : Told (acts ++ [a]) s' := by
  have hold : ∀ d i, P d → .set d i ∈ acts ++ [a] → .set d i ∈ acts := by
    intro d i hd hm
    rcases List.mem_append.1 hm with hm | hm
    · exact hm
    · exact absurd hd (ha d i (List.mem_singleton.1 hm).symm)
  refine ⟨I, ?_, ?_, ?_⟩
  · intro d i hm
    by_cases hd : P d
    · have h0 := T.made d i (hold d i hd hm)
      exact Int.not_lt.1 fun hlt => absurd ((F.fresh d hd).1 hlt) (Int.not_lt.2 h0)
    · exact hmade d hd i hm
  · intro d hr hn
    by_cases hd : P d
    · have hr := (F.registered d hd).1 hr
      rw [F.asked d hd hr, F.fd d hd]
      exact T.first d hr fun i hm => hn i (List.mem_append_left _ hm)
    · exact hfirst d hd hr hn
  · rintro d hr ⟨⟨i, hm⟩, he⟩
    by_cases hd : P d
    · have hr := (F.registered d hd).1 hr
      rw [F.asked d hd hr, F.fd d hd]
      exact T.later d hr ⟨⟨i, hold d i hd hm⟩, by rw [← F.events d hd]; exact he⟩
    · exact hlater d hd hr ⟨⟨i, hm⟩, he⟩

omit [DecidableEq Ch] in
/-- The step is about no channel. -/
theorem Told.same (I : Inv s') (F : Frame (fun _ => True) s s') (ha : ∀ d i, a ≠ .set d i) : Told (acts ++ [a]) s' :=
  T.step I F (fun d i h => absurd h (ha d i)) (fun _ h => absurd trivial h) (fun _ h => absurd trivial h)
    fun _ h => absurd trivial h

theorem told_step (ha : enabled s a) (hx : exec s a = some s') : Told (acts ++ [a]) s' := by
  have I := T.inv
  obtain ⟨t, hx', I'⟩ := step_inv I ha (removable_of_exec hx)
  cases hx.symm.trans hx'
  cases a with
  | opened fd =>
    cases hx
    exact T.same I' (.of_leases _ _) fun _ _ h => by cases h
  | closed fd =>
    cases hx
    exact T.same I' (.of_leases _ _) fun _ _ h => by cases h
  | watch c fd i =>
    obtain ⟨hl, hi, -⟩ := ha
    cases (watch_eq I hl).symm.trans hx
    -- a channel that is made was not updated before
    have hnew : ∀ j, .set c j ∉ acts ++ [.watch c fd i] := by
      intro j hm
      have := T.made c j (by simpa using hm)
      omega
    refine T.step I' (frame_watched I hl) (fun _ _ h => by cases h) ?_ ?_ ?_
    · intro d hd j hm
      cases Classical.not_not.1 hd
      exact absurd hm (hnew j)
    · intro d hd _ _
      cases Classical.not_not.1 hd
      rw [asked, watched_slot_self, watched_chan_self]
      exact ⟨_, rfl⟩
    · rintro d hd - ⟨⟨j, hm⟩, -⟩
      cases Classical.not_not.1 hd
      exact absurd hm (hnew j)
  | set c i =>
    have hc := I.made_iff.1 ha
    obtain ⟨p, -, -, hset⟩ := set_eq (i := i) I hc
    cases hset.symm.trans hx
    refine T.step I' (frame_changed I hc) (fun d j h => by cases h; exact fun h => h rfl) ?_ ?_ ?_
    · intro d hd _ _
      cases Classical.not_not.1 hd
      rw [changed_index]
      exact ha.1
    · intro d hd _ hn
      cases Classical.not_not.1 hd
      exact absurd (List.mem_append_right _ List.mem_cons_self) (hn i)
    · rintro d hd - ⟨-, he⟩
      cases Classical.not_not.1 hd
      rw [changed_events_self] at he
      rw [asked, changed_slot_self I hc, if_pos he, he, changed_fd]
      rfl
  | remove c =>
    have hr := removable_of_remove hx
    obtain ⟨d, hd, hdi, hrem⟩ := remove_eq I hr
    cases hrem.symm.trans hx
    have hgone : ∀ e, ¬ e ≠ c → ¬ Registered (dropped s c d).toSt e := by
      intro e he h
      exact he ((dropped_registered I hr.1).1 h).1
    refine T.step I' (frame_dropped I hr.1 hd hdi) (fun _ _ h => by cases h) ?_ (fun e he h => absurd h (hgone e he))
      fun e he h => absurd h (hgone e he)
    intro e he j hm
    cases Classical.not_not.1 he
    have h0 := (I.table.slot c hr.1).1
    simp only [dropped, Poller.dropped]
    split
    · exact h0
    · by_cases hed : c = d
      · subst hed
        simpa using h0
      · rw [Function.update_of_ne hed]
        exact h0
  | poll revents numEvents =>
    obtain ⟨chan, new, hpoll, hchan, -⟩ := poll_eq I ha
    simp only [exec, hpoll, Option.map_some, Option.some.injEq] at hx
    subst hx
    exact T.same I' (frame_revented ha hchan) fun _ _ h => by cases h

omit [DecidableEq Ch] in
/-- The asserts of `removeChannel` hold for a channel that was left no interest
by a later call than its first, and for no other. -/
theorem Told.removable_iff (hc : Made s c) : Removable s.toSt c ↔ Quieted acts s c := by
  have hr := T.inv.made_iff.1 hc
  constructor
  · rintro ⟨-, he, -, hslot⟩
    refine ⟨?_, he⟩
    by_contra hn
    obtain ⟨e, ha⟩ := T.first c hr fun i hm => hn ⟨i, hm⟩
    have : some ((s.chan c).fd, e) = some (ignored (s.chan c).fd, kNoneEvent) := ha.symm.trans hslot
    exact ignored_ne _ (congrArg Prod.fst (Option.some.inj this)).symm
  · intro hq
    have h0 := (T.inv.table.slot c hr).1
    have h1 := T.inv.table.index_lt hr
    exact ⟨hr, hq.2, ⟨h0, by omega⟩, T.later c hr hq⟩

end Told

theorem run_told {tr : List (St Ch × Act Ch)} (h : Run (machine Ch) tr s) : Told (tr.map Prod.snd) s := by
  refine h.inv_trace (fun tr s => Told (tr.map Prod.snd) s) told_init fun tr t a u _ T ha hx => ?_
  rw [List.map_append]
  exact told_step T ha hx

/-- Whatever the order in which descriptors are opened, given to one channel
after another and closed: the only call that can fail is `removeChannel`, and it
fails exactly for a channel that has an interest, or was not updated again since
it was made. The poller's map has exactly the channels that stand for an open
descriptor, each with a slot, and every answer of `poll(2)` is dispatched to
such channels, in the order of their slots and each with the events of its own. -/
theorem leases_sound {tr : List (St Ch × Act Ch)} (h : Run (machine Ch) tr s) :
    (∀ a, enabled s a → (exec s a = none ↔ ∃ c, a = .remove c ∧ ¬ Quieted (tr.map Prod.snd) s c)) ∧
    (∀ fd c, s.channels.find fd = some c ↔ 0 ≤ fd ∧ s.leases fd.toNat = some (some c)) ∧
    (∀ c, Made s c ↔ s.leases (s.chan c).fd.toNat = some (some c)) ∧
    (∀ c, Made s c → ∃ p, s.slot? c = some p ∧ (p.fd = (s.chan c).fd ∨ p.fd = -(s.chan c).fd - 1)) ∧
    (∀ c d, Made s c → Made s d → (s.chan c).fd = (s.chan d).fd → c = d) ∧
    ∀ revents numEvents, PollResult s.pollfds revents numEvents → ∃ s' new,
      poll s revents numEvents = some (s', new) ∧
      new.map (fun c => ((s.chan c).index, (s'.chan c).revents)) = ready revents 0 ∧ new.Nodup ∧
      ∀ c ∈ new, s.leases (s.chan c).fd.toNat = some (some c) := by
  have T := run_told h
  have I := T.inv
  have hmade : ∀ c, Made s c ↔ s.leases (s.chan c).fd.toNat = some (some c) :=
    fun c => I.made_iff.trans I.registered_iff
  refine ⟨?_, ?_, hmade, fun c hc => (I.table.slot c (I.made_iff.1 hc)).2, ?_, ?_⟩
  · intro a ha
    constructor
    · intro hn
      by_contra hno
      obtain ⟨t, hx, -⟩ := step_inv I ha fun c hc => by
        subst hc
        exact (T.removable_iff ha).2 (Classical.not_not.1 fun hq => hno ⟨c, rfl, hq⟩)
      rw [hn] at hx
      cases hx
    · rintro ⟨c, rfl, hq⟩
      refine Option.eq_none_iff_forall_ne_some.2 fun t hx => hq ?_
      exact (T.removable_iff ha).1 (removable_of_remove hx)
  · intro fd c
    constructor
    · intro hf
      have h0 : 0 ≤ fd := by
        rw [← I.table.key fd c hf]
        exact I.nonneg c
      exact ⟨h0, (I.lease _ c).2 (by rw [Int.toNat_of_nonneg h0]; exact hf)⟩
    · rintro ⟨h0, hl⟩
      have := (I.lease _ c).1 hl
      rwa [Int.toNat_of_nonneg h0] at this
  · intro c d hc hd hf
    have hc := (hmade c).1 hc
    rw [hf, (hmade d).1 hd] at hc
    cases hc
    rfl
  · intro revents numEvents hr
    obtain ⟨chan, new, hx, -, hmap, hnd, hreg⟩ := poll_eq I hr
    exact ⟨_, new, hx, hmap, hnd, fun c hc => I.registered_iff.1 (hreg c hc).1⟩

/-! ## A descriptor with two channels -/

/-- Descriptor `3` of channel `0` is closed and given out again, to channel
`2`; its slot is now behind that of channel `1`, which has an interest and
cannot be removed. -/
theorem leases_sound_again : ∃ tr s, Run (machine Nat) tr s ∧
    s.channels.find 3 = some 2 ∧ s.pollfds = [⟨5, 3, 0⟩, ⟨3, 3, 1⟩] ∧ ¬ Made s 0 ∧
    s.leases 3 = some (some 2) ∧ Made s 1 ∧ exec s (.remove 1) = none := by
  obtain ⟨r, hr, hf, hp, h0, h1, he⟩ : ∃ r ∈ (machine Nat).play (machine Nat).init
      [.opened 3, .watch 0 3 .enableReading, .opened 5, .watch 1 5 .enableReading, .set 0 .disableAll, .remove 0,
        .closed 3, .opened 3, .watch 2 3 .enableReading, .poll [0, 1] 1],
      r.2.channels.find 3 = some 2 ∧ r.2.pollfds = [⟨5, 3, 0⟩, ⟨3, 3, 1⟩] ∧ ¬ Made r.2 0 ∧ Made r.2 1 ∧
        (r.2.chan 1).events = 3 := by decide +kernel
  have hrun := Machine.play_steps hr
  have h := leases_sound hrun
  refine ⟨r.1, r.2, hrun, hf, hp, h0, ((h.2.1 3 2).1 hf).2, h1, (h.1 (.remove 1) h1).2 ⟨1, rfl, fun hq => ?_⟩⟩
  exact absurd (he.symm.trans hq.2) (by decide)

end Cppnetool.Descriptors
