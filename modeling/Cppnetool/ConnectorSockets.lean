import Cppnetool.Connector
/-!
# Where the sockets of a `Connector` are

Every socket is counted in three places. An operation takes it from one to the
next, so the count stays at one, as long as the attempt in flight is not
dropped: `connecting` and `resetChannel` overwrite `channel_` without a look at
what it holds, and `~Connector` closes nothing.
-/
open Lib

namespace Cppnetool.Connector

variable {s s' : St} {k c : Sock} {o : Errno}

/-- The socket belongs to the attempt in flight. -/
def Owned (s : St) (k : Sock) : Prop := s.channel = some k ∧ k ∈ s.registered

instance (s : St) (k : Sock) : Decidable (Owned s k) := inferInstanceAs (Decidable (_ ∧ _))

/-- In how many places a socket is, with multiplicity. -/
def places (s : St) (k : Sock) : Nat := (if Owned s k then 1 else 0) + s.handed.count k + s.closed.count k

/-- Every socket that was made is in one place, and no other was handed over
or closed; a destroyed connector has none. -/
structure Placed (s : St) : Prop where
  one : ∀ k < s.created, places s k = 1
  none : ∀ k, s.created ≤ k → places s k = 0
  released : s.alive = false → ∀ k, ¬ Owned s k

def InFlight (s : St) : Prop := ∃ k ∈ s.channel, k ∈ s.registered

instance (s : St) : Decidable (InFlight s) :=
  match h : s.channel with
  | none => .isFalse (by simp [InFlight, h])
  | some k => decidable_of_iff (k ∈ s.registered) (by simp [InFlight, h])

/-- The results of `connect(2)` for which the socket is kept. -/
def Errno.pending : Errno → Bool
  | .success | .EINPROGRESS | .EINTR | .EISCONN => true
  | _ => false

/-- After the action `channel_` holds another channel, or none: a `connect` is
pending, `newConnectionCallback_` returns, or the connector is destroyed. -/
def Act.replaces (s : St) : Act → Bool
  | .start o | .restart o => o.pending
  | .runFunctor o => s.queued.head? = some .startInLoop && s.connect && o.pending
  | .runTimer o => s.connect && o.pending
  | .callbackReturns | .destroy => true
  | _ => false

/-- What replaces the channel finds no attempt in flight. -/
def Clear (s : St) (a : Act) : Prop := a.replaces s = true → ¬ InFlight s

instance (s : St) (a : Act) : Decidable (Clear s a) := inferInstanceAs (Decidable (_ → _))

/-! ## The count -/

/-- What `places` comes to when the poller has the channel of the attempt only. -/
def tally (s : St) (k : Sock) : Nat := s.registered.count k + s.handed.count k + s.closed.count k

structure Kept (s : St) : Prop where
  tally : ∀ k, tally s k = if k < s.created then 1 else 0
  attempt : ∀ k ∈ s.registered, s.channel = some k
  released : s.alive = false → s.registered = []

theorem Kept.count_le (K : Kept s) (k : Sock) : s.registered.count k ≤ 1 := by
  have := K.tally k
  unfold Connector.tally at this
  split at this <;> omega

theorem Kept.owned (K : Kept s) : Owned s k ↔ k ∈ s.registered :=
  ⟨fun h => h.2, fun h => ⟨K.attempt k h, h⟩⟩

theorem Kept.places (K : Kept s) (k : Sock) : places s k = Connector.tally s k := by
  have hle := K.count_le k
  simp only [Connector.places, Connector.tally, K.owned]
  split
  · rename_i h
    have := List.count_pos_iff.2 h
    omega
  · rename_i h
    rw [List.count_eq_zero_of_not_mem h]

theorem Kept.placed (K : Kept s) : Placed s where
  one k hk := by rw [K.places, K.tally, if_pos hk]
  none k hk := by rw [K.places, K.tally, if_neg (Nat.not_lt.2 hk)]
  released hd k hk := by
    have := hk.2
    rw [K.released hd] at this
    cases this

theorem Kept.not_inFlight (K : Kept s) : ¬ InFlight s ↔ s.registered = [] := by
  constructor
  · intro h
    refine List.eq_nil_iff_forall_not_mem.2 fun k hk => h ⟨k, K.attempt k hk, hk⟩
  · rintro h ⟨k, -, hk⟩
    rw [h] at hk
    cases hk

/-- A socket in flight has been made, and was neither handed over nor closed. -/
theorem Kept.fresh (K : Kept s) (h : k ∈ s.registered) :
    k < s.created ∧ s.handed.count k = 0 ∧ s.closed.count k = 0 := by
  have ht := K.tally k
  have := List.count_pos_iff.2 h
  unfold Connector.tally at ht
  split at ht
  · exact ⟨by assumption, by omega, by omega⟩
  · omega

/-! ## The operations -/

/-- As `Kept`, but for a socket that is in no list: it has just been made, or
its channel has left the poller. -/
structure Loose (s : St) (j : Sock) : Prop where
  tally : ∀ k, tally s k + (if k = j then 1 else 0) = if k < s.created then 1 else 0
  attempt : ∀ k ∈ s.registered, s.channel = some k
  released : s.alive = false → s.registered = []

theorem count_snoc (l : List Sock) (j k : Sock) : (l ++ [j]).count k = l.count k + if k = j then 1 else 0 := by
  by_cases h : k = j
  · simp [h]
  · simp [h, Ne.symm h]

theorem Loose.close (L : Loose s k) : Kept (close s k) where
  tally j := by
    refine Eq.trans ?_ (L.tally j)
    simp only [Connector.tally, Connector.close, count_snoc]
    omega
  attempt := L.attempt
  released := L.released

theorem Loose.hand (L : Loose s k) : Kept { s with handed := s.handed ++ [k], calling := some k } where
  tally j := by
    refine Eq.trans ?_ (L.tally j)
    simp only [Connector.tally, count_snoc]
    omega
  attempt := L.attempt
  released := L.released

theorem Loose.connecting (L : Loose s k) (ha : s.alive = true) (hr : s.registered = []) :
    Kept (connecting s k) where
  tally j := by
    refine Eq.trans ?_ (L.tally j)
    simp only [Connector.tally, Connector.connecting, count_snoc]
    omega
  attempt j hj := by
    simp only [Connector.connecting, hr, List.nil_append, List.mem_singleton] at hj
    exact congrArg some hj.symm
  released hd := by
    simp [Connector.connecting, ha] at hd

/-- `retry` closes the socket; what else it does moves none. -/
theorem Loose.retry (L : Loose s k) : Kept (retry s k) := by
  have K := L.close
  unfold Connector.retry
  dsimp only
  split <;> exact ⟨K.tally, K.attempt, K.released⟩

theorem Kept.resetChannel (K : Kept s) (h : s.registered = []) : Kept (resetChannel s) where
  tally := K.tally
  attempt j hj := by
    rw [Connector.resetChannel, h] at hj
    cases hj
  released _ := h

/-- A socket that is not kept pending is closed at once. -/
theorem connect_cases (s : St) (o : Errno) :
    (o.pending = true ∧ connect s o = connecting { s with created := s.created + 1 } s.created) ∨
    (o.pending = false ∧ (connect s o = retry { s with created := s.created + 1 } s.created ∨
      connect s o = close { s with created := s.created + 1 } s.created)) := by
  cases o <;> simp [connect, Errno.pending]

theorem Kept.made (K : Kept s) : Loose { s with created := s.created + 1 } s.created where
  tally k := by
    apply (congrArg (· + _) (K.tally k)).trans
    rcases Nat.lt_trichotomy k s.created with h | rfl | h
    · simp [h, Nat.ne_of_lt h, Nat.lt_succ_of_lt h]
    · simp
    · simp [Nat.lt_asymm h, Nat.ne_of_gt h, Nat.not_lt.2 h]
  attempt := K.attempt
  released := K.released

theorem startInLoop_kept (K : Kept s) (ha : s.alive = true)
    (hr : s.connect = true → o.pending = true → s.registered = []) : Kept (startInLoop s o) := by
  unfold startInLoop
  split
  · rename_i hc
    -- a socket that is kept needs `channel_` to be free; one that is closed does not
    rcases connect_cases s o with ⟨hp, h⟩ | ⟨-, h | h⟩ <;> rw [h]
    · exact K.made.connecting ha (hr hc hp)
    · exact K.made.retry
    · exact K.made.close
  · exact K

/-- The poller has no other channel than that of the attempt. -/
theorem Kept.registered_eq (K : Kept s) (h : c ∈ s.registered) : s.registered = [c] := by
  have hall : ∀ k ∈ s.registered, k = c := fun k hk =>
    Option.some.inj ((K.attempt k hk).symm.trans (K.attempt c h))
  have hle := K.count_le c
  cases hl : s.registered with
  | nil => rw [hl] at h; cases h
  | cons x rest =>
    rw [hl] at hall hle
    cases rest with
    | nil => rw [hall x (by simp)]
    | cons y rest =>
      rw [hall x (by simp), hall y (by simp)] at hle
      simp at hle

/-- The channel of the attempt leaves the poller. -/
theorem Kept.removed (K : Kept s) (h : c ∈ s.registered) : Loose { s with registered := s.registered.erase c } c := by
  have hr := K.registered_eq h
  have he : s.registered.erase c = [] := by simp [hr]
  rw [he]
  refine ⟨?_, fun k hk => (List.not_mem_nil hk).elim, fun _ => rfl⟩
  intro k
  have := K.tally k
  simp only [Connector.tally, hr, List.count_nil, List.count_singleton, beq_iff_eq, eq_comm (a := c)] at this ⊢
  omega

theorem handleEvent_kept {err out : Bool} {soError : Int} {selfConnect : Bool} (K : Kept s)
    (h : c ∈ s.registered) (hx : handleEvent s c err out soError selfConnect = some s') : Kept s' := by
  have L := K.removed h
  have L' : Loose { s with registered := s.registered.erase c, state := .kConnected } c :=
    ⟨L.tally, L.attempt, L.released⟩
  have hr : s.registered.erase c = [] := by simp [K.registered_eq h]
  obtain ⟨-, ⟨-, rfl⟩ | ⟨-, -, rfl⟩ | ⟨-, -, -, ⟨-, rfl⟩ | ⟨-, -, -, rfl⟩ | ⟨-, -, -, rfl⟩⟩⟩ := handleEvent_cases hx
  · exact L.retry
  · exact K
  · -- `retry` ends the attempt, so `resetChannel` drops no socket
    exact L.retry.resetChannel ((retry_leaves _ c).2.2.2.trans hr)
  · exact L'.hand
  · exact L'.close.resetChannel hr

/-! ## Steps -/

/-- The states differ in nothing that places a socket. -/
structure Same (s t : St) : Prop where
  registered : t.registered = s.registered
  handed : t.handed = s.handed
  closed : t.closed = s.closed
  created : t.created = s.created
  channel : t.channel = s.channel
  alive : t.alive = s.alive

theorem Same.kept (h : Same s s') (K : Kept s) : Kept s' where
  tally k := by
    have := K.tally k
    simpa only [Connector.tally, h.registered, h.handed, h.closed, h.created] using this
  attempt k hk := by
    rw [h.registered] at hk
    rw [h.channel, K.attempt k hk]
  released hd := by
    rw [h.alive] at hd
    rw [h.registered, K.released hd]

/-- `~Connector` may take the channel out of the poller; no socket goes
anywhere. -/
theorem destroy_spec (hx : destroy s = some s') :
    s'.channel = none ∧ s'.created = s.created ∧ s'.handed = s.handed ∧ s'.closed = s.closed ∧
      (s.registered = [] → s'.registered = []) := by
  obtain ⟨registered, hr, rfl⟩ := destroy_cases hx
  refine ⟨rfl, rfl, rfl, rfl, ?_⟩
  intro h
  rcases hr with ⟨-, rfl⟩ | ⟨-, c, -, rfl⟩
  · exact h
  · simp [h]

/-- A step comes to `startInLoop`, moves no socket, handles an event, or ends
the attempt. -/
theorem exec_cases {a : Act} (ha : enabled s a) (hx : exec s a = some s') :
    (∃ t o, Same s t ∧ t.alive = true ∧ s' = startInLoop t o ∧ a.replaces s = (t.connect && o.pending)) ∨
    (Same s s' ∧ a.replaces s = false) ∨
    (∃ c err out soError selfConnect, a = .handleEvent c err out soError selfConnect ∧ c ∈ s.registered) ∨
    (a = .callbackReturns ∧ s' = resetChannel { s with calling := none }) ∨ a = .destroy := by
  cases a with
  | start o =>
    cases hx
    exact .inl ⟨{ s with connect := true }, o, ⟨rfl, rfl, rfl, rfl, rfl, rfl⟩, ha, rfl, rfl⟩
  | restart o =>
    cases hx
    exact .inl ⟨{ s with state := .kDisconnected, retryDelayMs := kInitRetryDelayMs, connect := true }, o,
      ⟨rfl, rfl, rfl, rfl, rfl, rfl⟩, ha, rfl, rfl⟩
  | stop | startElsewhere | stopElsewhere | expire =>
    cases hx
    exact .inr (.inl ⟨⟨rfl, rfl, rfl, rfl, rfl, rfl⟩, rfl⟩)
  | runFunctor o =>
    obtain ⟨rest, ⟨timerId, hq, rfl⟩ | ⟨hq, ha', rfl⟩⟩ := runFunctor_cases hx
    · exact .inr (.inl ⟨⟨rfl, rfl, rfl, rfl, rfl, rfl⟩, by simp [Act.replaces, hq]⟩)
    · exact .inl ⟨{ s with queued := rest }, o, ⟨rfl, rfl, rfl, rfl, rfl, rfl⟩, ha', rfl, by simp [Act.replaces, hq]⟩
  | runTimer o =>
    obtain ⟨t, rest, -, ha', rfl⟩ := runTimer_cases hx
    exact .inl ⟨{ s with expired := rest }, o, ⟨rfl, rfl, rfl, rfl, rfl, rfl⟩, ha', rfl, rfl⟩
  | handleEvent c err out soError selfConnect =>
    exact .inr (.inr (.inl ⟨c, err, out, soError, selfConnect, rfl, ha.2⟩))
  | callbackReturns =>
    obtain ⟨-, -, hx⟩ := Option.bind_eq_some_iff.1 hx
    cases hx
    exact .inr (.inr (.inr (.inl ⟨rfl, rfl⟩)))
  | destroy => exact .inr (.inr (.inr (.inr rfl)))

theorem step_kept {a : Act} (K : Kept s) (ha : enabled s a) (hg : Clear s a) (hx : exec s a = some s') :
    Kept s' := by
  rcases exec_cases ha hx with ⟨t, o, h, hal, rfl, hr⟩ | ⟨h, -⟩ | ⟨c, _, _, _, _, rfl, hc⟩ | ⟨rfl, rfl⟩ | rfl
  · apply startInLoop_kept (h.kept K) hal
    intro ht hp
    rw [h.registered, ← K.not_inFlight]
    exact hg (by rw [hr, ht, hp]; rfl)
  · exact h.kept K
  · exact handleEvent_kept K hc hx
  · exact Kept.resetChannel ⟨K.tally, K.attempt, K.released⟩ (K.not_inFlight.1 (hg rfl))
  · have hr := K.not_inFlight.1 (hg rfl)
    obtain ⟨-, hcr, hh, hcl, hreg⟩ := destroy_spec hx
    refine ⟨?_, ?_, fun _ => hreg hr⟩
    · intro k
      have := K.tally k
      simp only [Connector.tally, hr] at this
      simpa only [Connector.tally, hreg hr, hh, hcl, hcr] using this
    · intro k hk
      rw [hreg hr] at hk
      cases hk

/-- The socket in flight is lost when `channel_` no longer holds its channel and
it was neither handed over nor closed. -/
theorem lost (K : Kept s) (h : k ∈ s.registered) (hch : s'.channel ≠ some k) (hcr : s.created ≤ s'.created)
    (hh : s'.handed = s.handed) (hcl : s'.closed = s.closed) : ¬ Placed s' := by
  intro P
  obtain ⟨hk, h1, h2⟩ := K.fresh h
  have := P.one k (Nat.lt_of_lt_of_le hk hcr)
  rw [places, if_neg (fun ho => hch ho.1), hh, hcl, h1, h2] at this
  cases this

theorem startInLoop_lost (K : Kept s) (h : k ∈ s.registered) (hc : s.connect = true) (hp : o.pending = true) :
    ¬ Placed (startInLoop s o) := by
  have hk := (K.fresh h).1
  rcases connect_cases s o with ⟨-, e⟩ | ⟨hp', -⟩
  · rw [startInLoop, if_pos hc, e]
    exact lost K h (fun he => Nat.ne_of_gt hk (Option.some.inj he)) (Nat.le_succ _) rfl rfl
  · rw [hp] at hp'
    cases hp'

theorem step_lost {a : Act} (K : Kept s) (ha : enabled s a) (hg : ¬ Clear s a) (hx : exec s a = some s') :
    ¬ Placed s' := by
  obtain ⟨hrep, hin⟩ := Classical.not_imp.1 hg
  obtain ⟨k, -, hk⟩ := Classical.not_not.1 hin
  rcases exec_cases ha hx with ⟨t, o, h, -, rfl, hr⟩ | ⟨-, hr⟩ | ⟨_, _, _, _, _, rfl, -⟩ | ⟨rfl, rfl⟩ | rfl
  · rw [hr, Bool.and_eq_true] at hrep
    exact startInLoop_lost (h.kept K) (h.registered ▸ hk) hrep.1 hrep.2
  · rw [hr] at hrep
    cases hrep
  · cases hrep
  · exact lost K hk nofun (Nat.le_refl _) rfl rfl
  · obtain ⟨hch, hcr, hh, hcl, -⟩ := destroy_spec hx
    exact lost K hk (by simp [hch]) (Nat.le_of_eq hcr.symm) hh hcl

theorem kept_init : Kept machine.init where
  tally k := rfl
  attempt k hk := by cases hk
  released _ := rfl

/-- In every state of a run each socket is in one place, exactly when every
step that replaces the channel found no attempt in flight. -/
theorem placed_iff {tr : List (St × Act)} (h : Run machine tr s) :
    (∀ t, Visited tr s t → Placed t) ↔ Meets Clear tr :=
  h.throughout_iff Kept Placed Clear kept_init (fun _ K => K.placed)
    (fun _ _ _ K ha hg hx => step_kept K ha hg hx) fun _ _ _ K ha hg hx => step_lost K ha hg hx

/-- A refused attempt, its retry with an error event and a write event after
it, a third that is handed over, and the end. -/
theorem placed_iff_retries : ∃ tr s, Run machine tr s ∧ s.created = 3 ∧ s.handed = [2] ∧ s.closed = [0, 1] ∧
    s.alive = false ∧ ∀ t, Visited tr s t → Placed t := by
  obtain ⟨r, hr, h1, h2, h3, h4, hG⟩ : ∃ r ∈ machine.play machine.init
      [.start .ECONNREFUSED, .expire [⟨0, 500⟩] [], .runTimer .EINPROGRESS, .handleEvent 1 true true 111 false,
        .expire [⟨1, 1000⟩] [], .runTimer .EINPROGRESS, .handleEvent 2 false true 0 false, .callbackReturns,
        .destroy],
      r.2.created = 3 ∧ r.2.handed = [2] ∧ r.2.closed = [0, 1] ∧ r.2.alive = false ∧ Meets Clear r.1 := by
    decide
  have hrun := Machine.play_steps hr
  exact ⟨r.1, r.2, hrun, h1, h2, h3, h4, (placed_iff hrun).2 hG⟩

/-- Destroyed while its attempt is in flight, the connector takes the channel
out of the poller and closes nothing. -/
theorem socket_lost_destroyed : ∃ tr s, Run machine tr s ∧ tr.map Prod.snd = [.start .EINPROGRESS, .destroy] ∧
    s.created = 1 ∧ s.alive = false ∧ s.registered = [] ∧ s.handed = [] ∧ s.closed = [] ∧ ¬ Placed s := by
  obtain ⟨r, hr, h0, h1, h2, h3, h4, h5, hp⟩ : ∃ r ∈ machine.play machine.init [.start .EINPROGRESS, .destroy],
      r.1.map Prod.snd = [.start .EINPROGRESS, .destroy] ∧ r.2.created = 1 ∧ r.2.alive = false ∧
        r.2.registered = [] ∧ r.2.handed = [] ∧ r.2.closed = [] ∧ places r.2 0 = 0 := by decide
  refine ⟨r.1, r.2, Machine.play_steps hr, h0, h1, h2, h3, h4, h5, ?_⟩
  intro P
  have := P.one 0 (by omega)
  omega

end Cppnetool.Connector
