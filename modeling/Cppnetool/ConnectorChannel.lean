import Cppnetool.ConnectorAttempts
import Cppnetool.ConnectorSockets
/-!
# The channel of a `Connector`

`channel_` is the only owner of a connecting channel, and the poller has a raw
pointer to it. They agree as long as `channel_` is not overwritten or reset
while the poller has the channel; `~Connector` takes the channel out first, if
the state says that there is one.
-/
open Lib

namespace Cppnetool.Connector

variable {s s' t : St} {c d : Sock} {o : Errno} {a : Act}

/-- The poller has the channel of `channel_`, or none. -/
def Whole (s : St) : Prop := s.registered = [] ∨ ∃ d, s.registered = [d] ∧ s.channel = some d

/-- What replaces the channel finds no attempt in flight, or ends it. -/
def Spares (s : St) (a : Act) : Prop :=
  a.replaces s = true → ¬ InFlight s ∨ a = .destroy ∧ s.state = .kConnecting

instance (s : St) (a : Act) : Decidable (Spares s a) := inferInstanceAs (Decidable (_ → _))

theorem whole_init : Whole {} := .inl rfl

theorem Whole.owned (W : Whole s) (h : d ∈ s.registered) : Owned s d := by
  rcases W with e | ⟨d', e, hc⟩
  · rw [e] at h
    cases h
  · rw [e] at h
    rw [List.mem_singleton.1 h]
    exact ⟨hc, e ▸ List.mem_cons_self⟩

theorem Whole.not_inFlight (W : Whole s) (h : ¬ InFlight s) : s.registered = [] := by
  rcases W with e | ⟨d, e, hc⟩
  · exact e
  · exact absurd ⟨d, hc, e ▸ List.mem_cons_self⟩ h

/-- The channel and the poller stay as they are. -/
theorem Whole.same (W : Whole s) (hr : t.registered = s.registered) (hc : t.channel = s.channel) :
    Whole t ∧ ∀ d, Owned s d → Owned t d := by
  unfold Whole Owned
  rw [hr, hc]
  exact ⟨W, fun _ h => h⟩

/-- The poller has no channel of this connector. -/
theorem whole_of_nil (h : s.registered = []) (ht : t.registered = s.registered) :
    Whole t ∧ ∀ d, Owned s d → Owned t d := by
  refine ⟨.inl (ht.trans h), fun d hd => ?_⟩
  have := hd.2
  rw [h] at this
  cases this

theorem retry_whole (W : Whole s) (c : Sock) : Whole (retry s c) ∧ ∀ d, Owned s d → Owned (retry s c) d :=
  W.same (retry_leaves s c).2.2.2 (retry_leaves s c).1

theorem startInLoop_whole (W : Whole s) (h : s.connect = true → o.pending = true → s.registered = []) :
    Whole (startInLoop s o) ∧ ∀ d, Owned s d → Owned (startInLoop s o) d := by
  unfold startInLoop
  split
  · rename_i hc
    -- only a socket that is kept pending needs `channel_`
    rcases connect_cases s o with ⟨hp, e⟩ | ⟨-, e | e⟩ <;> rw [e]
    · have hr := h hc hp
      refine ⟨.inr ⟨s.created, ?_, rfl⟩, fun d hd => ?_⟩
      · simp [connecting, hr]
      · have := hd.2
        rw [hr] at this
        cases this
    · have W' : Whole { s with created := s.created + 1 } := W
      exact retry_whole W' s.created
    · exact W.same rfl rfl
  · exact W.same rfl rfl

/-- An event of the channel leaves it where it is, or takes it out of the poller. -/
theorem handleEvent_whole {err out : Bool} {soError : Int} {selfConnect : Bool} (W : Whole s)
    (hx : handleEvent s c err out soError selfConnect = some s') : Whole s' := by
  obtain ⟨hc, -, hr, -⟩ := handleEvent_leaves hx
  rcases hr with ⟨hr, hc'⟩ | hr
  · exact (W.same hr (hc'.trans hc.symm)).1
  · left
    rcases W with e | ⟨d, e, hd⟩
    · rw [hr, e]
      rfl
    · cases hc.symm.trans hd
      simp [hr, e]

theorem destroy_whole (W : Whole s) (h : s.state = .kConnecting ∨ s.registered = [])
    (hx : destroy s = some s') : Whole s' := by
  left
  obtain ⟨-, -, -, -, hnil⟩ := destroy_spec hx
  rcases W with e | ⟨d, e, hd⟩
  · exact hnil e
  · rcases h with hst | e'
    · obtain ⟨registered, ⟨hne, -⟩ | ⟨-, c, hc, rfl⟩, rfl⟩ := destroy_cases hx
      · exact absurd hst hne
      · cases hc.symm.trans hd
        simp [e]
    · exact hnil e'

/-- A step that spares the channel: the poller has the channel of `channel_` or
none, and a channel that leaves was handled, or goes with its connector. -/
theorem exec_whole (W : Whole s) (hs : Spares s a) (hx : exec s a = some s') :
    Whole s' ∧ ((∀ d, Owned s d → Owned s' d) ∨ (∃ c err out e self, a = .handleEvent c err out e self) ∨
      a = .destroy) := by
  have hnil (hr : a.replaces s = true) (hd : a ≠ .destroy) : s.registered = [] :=
    (hs hr).elim W.not_inFlight fun h => absurd h.1 hd
  -- the steps that come to `startInLoop`
  have main {t : St} {o : Errno} (e : s' = startInLoop t o) (hr : t.registered = s.registered)
      (hc : t.channel = s.channel) (hrep : t.connect = true → o.pending = true → a.replaces s = true)
      (hd : a ≠ .destroy) : Whole s' ∧ ((∀ d, Owned s d → Owned s' d) ∨
        (∃ c err out e self, a = .handleEvent c err out e self) ∨ a = .destroy) := by
    obtain ⟨W', h'⟩ := W.same hr hc
    obtain ⟨W'', h''⟩ := startInLoop_whole (o := o) W' fun h hp => hr.trans (hnil (hrep h hp) hd)
    rw [e]
    exact ⟨W'', .inl fun d hd => h'' d (h' d hd)⟩
  cases a with
  | start o => exact main (Option.some.inj hx).symm rfl rfl (fun _ hp => hp) fun h => by cases h
  | restart o => exact main (Option.some.inj hx).symm rfl rfl (fun _ hp => hp) fun h => by cases h
  | stop | startElsewhere | stopElsewhere | expire =>
    cases hx
    exact (W.same rfl rfl).imp_right .inl
  | runFunctor o =>
    obtain ⟨rest, ⟨timerId, hq, rfl⟩ | ⟨hq, -, e⟩⟩ := runFunctor_cases hx
    · exact (W.same rfl rfl).imp_right .inl
    · refine main e rfl rfl ?_ fun h => by cases h
      intro hc hp
      have hc : s.connect = true := hc
      simp [Act.replaces, hq, hc, hp]
  | runTimer o =>
    obtain ⟨t, rest, -, -, e⟩ := runTimer_cases hx
    refine main e rfl rfl ?_ fun h => by cases h
    intro hc hp
    have hc : s.connect = true := hc
    simp [Act.replaces, hc, hp]
  | handleEvent c err out e self => exact ⟨handleEvent_whole W hx, .inr (.inl ⟨c, err, out, e, self, rfl⟩)⟩
  | callbackReturns =>
    obtain ⟨_, -, hx⟩ := Option.bind_eq_some_iff.1 hx
    have h := whole_of_nil (hnil rfl fun h => by cases h) (t := s') (by cases hx; rfl)
    exact h.imp_right .inl
  | destroy =>
    refine ⟨destroy_whole W ?_ hx, .inr (.inr rfl)⟩
    exact (hs rfl).symm.imp And.right W.not_inFlight

/-! ## One attempt after the other -/

/-- What `channel_`, `state_` and the poller say is the same, as it is when no
attempt begins before the last one is over. -/
structure Ready (s : St) : Prop where
  alive : s.alive = true
  whole : Whole s
  state : s.state = .kConnecting ↔ s.registered ≠ []

theorem ready_of_idle (ha : s.alive = true) (hr : s.registered = []) (hs : s.state ≠ .kConnecting) : Ready s :=
  ⟨ha, .inl hr, iff_of_false hs (not_not.2 hr)⟩

theorem Ready.of_mem (R : Ready s) (h : c ∈ s.registered) :
    s.registered = [c] ∧ s.channel = some c ∧ s.state = .kConnecting := by
  obtain ⟨hch, -⟩ := R.whole.owned h
  refine ⟨?_, hch, R.state.2 (List.ne_nil_of_mem h)⟩
  rcases R.whole with e | ⟨d, e, hd⟩
  · rw [e] at h
    cases h
  · rw [hch] at hd
    rw [e, Option.some.inj hd]

theorem retry_ready (ha : s.alive = true) (hr : s.registered = []) (c : Sock) : Ready (retry s c) := by
  obtain ⟨-, hs, -, hr'⟩ := retry_leaves s c
  refine ready_of_idle ?_ (hr'.trans hr) (by rw [hs]; decide)
  unfold retry
  dsimp only
  split <;> exact ha

theorem startInLoop_ready (R : Ready s) (h : s.registered = []) (o : Errno) : Ready (startInLoop s o) := by
  unfold startInLoop
  split
  · rcases connect_cases s o with ⟨-, e⟩ | ⟨-, e | e⟩ <;> rw [e]
    · refine ⟨R.alive, .inr ⟨s.created, ?_, rfl⟩, iff_of_true rfl ?_⟩
      · simp [connecting, h]
      · simp [connecting]
    · exact retry_ready (s := { s with created := s.created + 1 }) R.alive h s.created
    · exact ⟨R.alive, .inl h, R.state⟩
  · exact R

/-- No event of the channel fails, and when it hands the socket over the channel is out of the poller. -/
theorem handleEvent_ready (R : Ready s) (h : c ∈ s.registered) (err out : Bool) (soError : Int) (selfConnect : Bool) :
    ∃ s', handleEvent s c err out soError selfConnect = some s' ∧ Ready s' ∧
      (s.calling = none → s'.calling ≠ none → s'.registered = []) := by
  obtain ⟨hr, hch, hst⟩ := R.of_mem h
  have hsome : ∃ s', handleEvent s c err out soError selfConnect = some s' := by
    unfold handleEvent
    rw [assert_bind hch]
    cases err with
    | true =>
      obtain ⟨t, ht, -, hd, -⟩ := handleError_leaves hch
      rw [if_pos rfl, ht, some_bind]
      cases out with
      | true => exact ⟨t, handleWrite_disconnected hd soError selfConnect⟩
      | false => exact ⟨t, rfl⟩
    | false =>
      rw [if_neg (by decide), some_bind]
      cases out with
      | true =>
        dsimp only
        rw [if_pos rfl, handleWrite, if_pos hst, removeAndResetChannel_spec hch, some_bind]
        dsimp only
        split
        · exact ⟨_, rfl⟩
        · split
          · exact ⟨_, rfl⟩
          · split <;> exact ⟨_, rfl⟩
      | false => exact ⟨s, rfl⟩
  obtain ⟨s', hx⟩ := hsome
  have hnil : s.registered.erase c = [] := by simp [hr]
  have hretry := retry_ready (s := { s with registered := s.registered.erase c }) R.alive hnil c
  have hcall := (retry_leaves { s with registered := s.registered.erase c } c).2.2.1
  refine ⟨s', hx, ?_⟩
  obtain ⟨-, ⟨-, rfl⟩ | ⟨-, -, rfl⟩ | ⟨-, -, -, ⟨-, rfl⟩ | ⟨-, -, -, rfl⟩ | ⟨-, -, -, rfl⟩⟩⟩ := handleEvent_cases hx
  · exact ⟨hretry, fun hn hc => absurd (hcall.trans hn) hc⟩
  · exact ⟨R, fun hn hc => absurd hn hc⟩
  · have hreg := (retry_leaves { s with registered := s.registered.erase c } c).2.2.2.trans hnil
    exact ⟨⟨hretry.alive, .inl hreg, hretry.state⟩, fun _ _ => hreg⟩
  · exact ⟨ready_of_idle R.alive hnil (fun h => by cases h), fun _ _ => hnil⟩
  · exact ⟨ready_of_idle R.alive hnil (fun h => by cases h), fun _ _ => hnil⟩

theorem callbackReturns_ready (R : Ready s) (h : s.registered = []) :
    ∃ s', callbackReturns s = some s' ∧ Ready s' :=
  ⟨_, assert_bind R.alive, R.alive, .inl h, R.state⟩

theorem destroy_ready (R : Ready s) : ∃ s', destroy s = some s' := by
  simp only [destroy]
  split
  · rename_i hst
    obtain ⟨d, hd⟩ := List.exists_mem_of_ne_nil _ (R.state.1 hst)
    have hch : (cancelInLoop s s.timerId).channel = some d := (R.of_mem hd).2.1
    rw [removeAndResetChannel_spec hch]
    exact ⟨_, rfl⟩
  · exact ⟨_, rfl⟩

end Cppnetool.Connector
