import Cppnetool.PollerTable
/-!
# What the poller watches

`poll(2)` watches a slot with a non-negative descriptor for the events in it.
`updateChannel` puts the ignore encoding into a slot when its channel has no
interest left, and nothing takes it out again; a first registration never puts
it in.
-/
open Lib

namespace Cppnetool.Poller

variable {Ch : Type} {fd : Ch → Int} {s s' : Sys Ch} {c d : Ch}

/-- What the slot of a channel with descriptor `f` and interest `e` should hold. -/
def watching (f : Int) (e : Nat) : Int × Nat := if e = kNoneEvent then (ignored f, 0) else (f, e)

/-- The slot of each registered channel holds what the channel declares. -/
def Agrees (s : St Ch) : Prop :=
  ∀ c, Registered s c →
    (s.slot? c).map (fun p => (p.fd, p.events)) = some (watching (s.chan c).fd (s.chan c).events)

/-- The calls that leave the slot as `watching` says: a first registration
that declares some interest, and on a registered channel those that drop all
interest or find some. -/
def Watchable (s : St Ch) : Act Ch → Prop
  | .set c i =>
    if (s.chan c).index < 0 then i.apply (s.chan c).events ≠ kNoneEvent
    else i.apply (s.chan c).events = kNoneEvent ∨ (s.chan c).events ≠ kNoneEvent
  | .remove _ => True

instance (s : St Ch) : ∀ a, Decidable (Watchable s a)
  | .set c _ => inferInstanceAs (Decidable (if (s.chan c).index < 0 then _ else _))
  | .remove _ => inferInstanceAs (Decidable True)

variable [DecidableEq Ch]

theorem agrees_init (fd : Ch → Int) : Agrees (machine fd).init.toSt := by
  intro c h
  simp [machine, Registered] at h

section Step
variable (T : Table fd s)
include T

/-- A first registration agrees exactly when it declares some interest. -/
theorem added_agrees {e : Nat} (hf : Function.Injective fd) (hi : (s.chan c).index < 0) (hA : Agrees s.toSt) :
    Agrees (added s c e).toSt ↔ e ≠ kNoneEvent := by
  have hslot : ((added s c e).slot? c).map (fun p => (p.fd, p.events)) = some (fd c, e) := by
    simp [St.slot?, added, T.fds]
  have hev : ((added s c e).chan c).events = e := by simp [added]
  constructor
  · intro h he
    have := h c ((added_registered T hf).2 (.inl rfl))
    rw [hslot, hev, added_fd T, watching, if_pos he] at this
    exact ignored_ne (fd c) (congrArg Prod.fst (Option.some.inj this)).symm
  · intro he d hd
    rcases (added_registered T hf).1 hd with rfl | hd
    · rw [hslot, hev, added_fd T, watching, if_neg he]
    · have hdc := ne_of_registered T hi hd
      rw [added_slot T hi hd, hA d hd, added_fd T, T.fds]
      simp [added, hdc]

/-- An update agrees exactly when it drops all interest or finds some. -/
theorem changed_agrees {e : Nat} {p : PollFd} (h0 : ∀ c, 0 ≤ fd c) (hc : Registered s.toSt c)
    (hp : s.slot? c = some p) (hA : Agrees s.toSt) :
    Agrees (changed s c p.fd e).toSt ↔ e = kNoneEvent ∨ (s.chan c).events ≠ kNoneEvent := by
  have hold := hA c hc
  have hev : ((changed s c p.fd e).chan c).events = e := by simp [changed]
  rw [hp, T.fds] at hold
  constructor
  · intro h
    by_contra hne
    obtain ⟨he, hnone⟩ := not_or.1 hne
    have := h c (changed_registered.2 hc)
    rw [changed_slot_self T hc, if_neg he, hev, changed_fd, T.fds, watching, if_neg he] at this
    rw [watching, if_pos (not_not.1 hnone)] at hold
    have h1 : p.fd = fd c := congrArg Prod.fst (Option.some.inj this)
    have h2 : p.fd = ignored (fd c) := congrArg Prod.fst (Option.some.inj hold)
    exact ignored_ne (fd c) (h2.symm.trans h1)
  · intro h d hd
    have hd' := changed_registered.1 hd
    by_cases hdc : d = c
    · subst hdc
      rw [changed_slot_self T hc, hev, changed_fd, T.fds, watching]
      by_cases he : e = kNoneEvent
      · simp [he, kNoneEvent]
      · rw [watching, if_neg (h.resolve_left he)] at hold
        have : p.fd = fd d := congrArg Prod.fst (Option.some.inj hold)
        simp [he, this]
    · rw [changed_slot T h0 hc hd' hdc, hA d hd', changed_fd]
      simp [changed, hdc]

theorem dropped_agrees (h0 : ∀ c, 0 ≤ fd c) (hc : Registered s.toSt c) (hd : Registered s.toSt d)
    (hdi : (s.chan d).index.toNat = s.pollfds.length - 1) (hA : Agrees s.toSt) :
    Agrees (dropped s c d).toSt := by
  intro x hx
  obtain ⟨hxc, hx⟩ := (dropped_registered T hc).1 hx
  rw [dropped_slot T h0 hc hd hdi hxc hx, hA x hx, dropped_fd, dropped_events]

/-- A step from an agreeing state keeps agreement exactly when it is `Watchable`. -/
theorem step_agrees (hf : Function.Injective fd) (h0 : ∀ c, 0 ≤ fd c) {a : Act Ch}
    (ha : (machine fd).enabled s a) (hx : (machine fd).exec s a = some s') (hA : Agrees s.toSt) :
    Agrees s'.toSt ↔ Watchable s.toSt a := by
  rcases exec_cases T hf h0 ha with
    ⟨c, i, rfl, hi, -, -, he⟩ | ⟨c, i, p, rfl, hc, hp, -, he⟩ | ⟨c, d, rfl, hc, hd, hdi, he⟩
  · rw [hx] at he; cases he
    rw [added_agrees T hf hi hA, Watchable, if_pos hi]
  · rw [hx] at he; cases he
    have hi := (T.slot c hc).1
    rw [changed_agrees T h0 hc hp hA, Watchable, if_neg (by omega)]
  · rw [hx] at he; cases he
    exact iff_of_true (dropped_agrees T h0 hc hd hdi hA) trivial

end Step

/-- Along a run of calls every slot agrees with its channel in every state
passed exactly when each call was `Watchable`. -/
theorem agrees_iff (hf : Function.Injective fd) (h0 : ∀ c, 0 ≤ fd c) {tr : List (Sys Ch × Act Ch)}
    (h : Run (machine fd) tr s) :
    (∀ t, Visited tr s t → Agrees t.toSt) ↔ Meets (fun t a => Watchable t.toSt a) tr := by
  refine h.throughout_iff (fun t => Table fd t ∧ Agrees t.toSt) (fun t => Agrees t.toSt) _
    ⟨table_init fd, agrees_init fd⟩ (fun t ht => ht.2) ?_ ?_
  · rintro t a t' ⟨T, hA⟩ ha hg hx
    obtain ⟨t'', hx', T'⟩ := step_table hf h0 t a T ha
    rw [hx] at hx'; cases hx'
    exact ⟨T', (step_agrees T hf h0 ha hx hA).2 hg⟩
  · rintro t a t' ⟨T, hA⟩ ha hg hx hA'
    exact hg ((step_agrees T hf h0 ha hx hA).1 hA')

/-- Interest that goes off and stays off: every state agrees. -/
theorem agrees_iff_toggle : ∃ tr s, Run numbered tr s ∧ tr.length = 4 ∧ ∀ t, Visited tr s t → Agrees t.toSt := by
  obtain ⟨r, hr, hlen, hG⟩ : ∃ r ∈ numbered.play numbered.init
      [.set 0 .enableReading, .set 0 .enableWriting, .set 0 .disableWriting, .set 0 .disableAll],
      r.1.length = 4 ∧ Meets (fun t a => Watchable t.toSt a) r.1 := by decide
  have hrun := Machine.play_steps hr
  exact ⟨r.1, r.2, hrun, hlen,
    (agrees_iff (fun _ _ h => Int.ofNat_inj.1 h) (fun c => Int.natCast_nonneg c) hrun).2 hG⟩

/-- `disableAll` and then `enableReading`: the channel declares interest and
`poll(2)` still ignores its slot. -/
theorem agrees_fails_reenabled : ∃ tr s, Run numbered tr s ∧
    Registered s.toSt 0 ∧ (s.chan 0).events = kReadEvent ∧ s.slot? 0 = some ⟨-1, kReadEvent, 0⟩ ∧
    ¬ Agrees s.toSt := by
  obtain ⟨r, hr, hreg, hfd, hev, hslot⟩ : ∃ r ∈ numbered.play numbered.init
      [.set 0 .enableReading, .set 0 .disableAll, .set 0 .enableReading],
      Registered r.2.toSt 0 ∧ (r.2.chan 0).fd = 0 ∧ (r.2.chan 0).events = kReadEvent ∧
        r.2.slot? 0 = some ⟨-1, kReadEvent, 0⟩ := by decide
  refine ⟨r.1, r.2, Machine.play_steps hr, hreg, hev, hslot, ?_⟩
  intro h
  have := h 0 hreg
  rw [hslot, hfd, hev] at this
  revert this
  decide

end Cppnetool.Poller
