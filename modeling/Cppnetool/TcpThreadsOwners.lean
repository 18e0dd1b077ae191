import Cppnetool.ConnectorAttempts
import Cppnetool.TcpThreadsOps
/-!
# Functors and the connections they name

A functor bound to a raw pointer keeps nothing alive. Whatever a step does, it
queues such a functor only for a connection that is there; so a functor
outlives its connection only if a step gives up the last pointer to it while
the functor waits.
-/
open Lib

namespace Cppnetool.TcpThreads

open TcpConnection (StateE WriteResult)
open TcpServer (Loop connName connName_injective)
open Connector (Errno)

variable {cfg : Config} {s s' t u : St} {l : Loop} {th : Thread} {c : ConnId} {k : ClientId} {n : Nat}

/-- A functor waits that is bound to a raw pointer to the connection. -/
def Queued (s : St) (c : ConnId) : Prop := ∃ p ∈ s.pending ++ s.todo, p.2.owns = false ∧ p.2.conn = c

def dropConnection (s : St) (k : ClientId) : St := setClient s k { s.client k with connection := none }

/-- The state without the pointers that are given up when a callback returns:
by `erase` or `reset` at the end of a removal, and by the function that called. -/
def releasedBy (cfg : Config) (s : St) (t : Thread) : Frame → St
  | .removed n => { returned s t with connections := s.connections.erase (connName cfg.toConfig n) }
  | .removeConn name _ => { returned s t with connections := s.connections.erase name }
  | .clientRemoved k _ _ | .clientDestroyed k _ => dropConnection (returned s t) k
  | _ => returned s t

/-- The state without the pointers that the step gives up. Others are those of
a batch that has run, one of the user, those of a table that is destroyed, and
`connection_` of a client that is destroyed or connects anew. -/
def released (cfg : Config) (s : St) : Act → St
  | .ret t _ => (Lanes.front s.stack t).elim s (releasedBy cfg s t)
  | .endFunctors l => endFunctors s l
  | .drop c => { s with held := s.held.erase c }
  | .deleteServer _ => { s with connections := ∅ }
  | .connectorEvent l err out soError selfConnect =>
    (nextConnector s l).elim s fun p =>
      if Connector.Completes (s.client p.1).connector err out soError selfConnect then dropConnection s p.1 else s
  | .deleteClient _ k => if (s.client k).state = true then s else dropConnection s k
  | _ => s

/-- Every connection with a functor waiting has a pointer besides those that
the step gives up. -/
def Kept (cfg : Config) (s : St) (a : Act) : Prop :=
  ∀ p ∈ s.pending ++ s.todo, p.2.owns = false → Owned cfg (released cfg s a) p.2.conn

instance (s : St) (a : Act) : Decidable (Kept cfg s a) := inferInstanceAs (Decidable (∀ _ ∈ _, _ → _))

/-! ## What every operation keeps -/

/-- No pointer is given up, and functors are queued, and channels polled, for
what is there. -/
structure Grows (cfg : Config) (s t : St) : Prop where
  owned : ∀ c, Owned cfg s c → Owned cfg t c
  queued : ∀ c, Queued t c → Queued s c ∨ Owned cfg t c
  polled : ∀ c, (t.conn c).registered = true → (s.conn c).registered = true ∨ Owned cfg t c

namespace Grows

theorem refl (s : St) : Grows cfg s s := ⟨fun _ h => h, fun _ h => .inl h, fun _ h => .inl h⟩

theorem trans (h : Grows cfg s t) (h' : Grows cfg t u) : Grows cfg s u where
  owned c hc := h'.owned c (h.owned c hc)
  queued c hc := by
    rcases h'.queued c hc with hq | ho
    · exact (h.queued c hq).imp_right (h'.owned c)
    · exact .inr ho
  polled c hc := by
    rcases h'.polled c hc with hr | ho
    · exact (h.polled c hr).imp_right (h'.owned c)
    · exact .inr ho

/-- Nothing changes but the table and the clients, where pointers are added only. -/
theorem of_listed (hl : ∀ c, Listed cfg s c → Listed cfg t c) (hh : t.held = s.held) (hp : t.pending = s.pending)
    (ht : t.todo = s.todo) (hd : t.done = s.done) (hst : t.stack = s.stack)
    (hr : ∀ c, (t.conn c).registered = true → (s.conn c).registered = true) : Grows cfg s t where
  owned c hc := by
    unfold Owned at hc ⊢
    rw [hh, hp, ht, hd, hst]
    exact hc.imp_left (hl c)
  queued c hc := by
    unfold Queued at hc ⊢
    rw [hp, ht] at hc
    exact .inl hc
  polled c hc := .inl (hr c hc)

end Grows

/-- A channel that the step does not put into its poller. -/
theorem registered_update {conn : ConnId → Conn} {new : Conn} {d : ConnId}
    (hn : new.registered = true → (conn d).registered = true)
    (h : (Function.update conn d new c).registered = true) : (conn c).registered = true := by
  by_cases hc : c = d
  · rw [hc, Function.update_self] at h
    rw [hc]
    exact hn h
  · rwa [Function.update_of_ne hc] at h

/-- Nothing changes that `Owned` and `Queued` look at, and no channel comes. -/
theorem grows_same (hcs : t.connections = s.connections) (hcl : t.client = s.client) (hh : t.held = s.held)
    (hp : t.pending = s.pending) (ht : t.todo = s.todo) (hd : t.done = s.done) (hst : t.stack = s.stack)
    (hr : ∀ c, (t.conn c).registered = true → (s.conn c).registered = true) : Grows cfg s t := by
  refine .of_listed ?_ hh hp ht hd hst hr
  intro c h
  cases c with
  | server n => rwa [Listed, hcs]
  | client k n => rwa [Listed, hcl]

theorem grows_setConn {conn : Conn} (hr : conn.registered = (s.conn c).registered) : Grows cfg s (setConn s c conn) :=
  grows_same rfl rfl rfl rfl rfl rfl rfl fun _ hd => registered_update (fun h => hr ▸ h) hd

theorem grows_handled (s : St) (l : Loop) : Grows cfg s (handled s l) :=
  grows_same rfl rfl rfl rfl rfl rfl rfl fun _ h => h

/-- Functors that own what they name, or name what is there. -/
theorem grows_pending {q : List (Loop × Functor)} (h : ∀ p ∈ q, p.2.owns = true ∨ Owned cfg s p.2.conn) :
    Grows cfg s { s with pending := s.pending ++ q } := by
  have hown : ∀ c, Owned cfg s c → Owned cfg { s with pending := s.pending ++ q } c := by
    rintro c (h | h | ⟨p, hp, hc⟩ | h)
    · exact .inl (by cases c <;> exact h)
    · exact .inr (.inl h)
    · refine .inr (.inr (.inl ⟨p, ?_, hc⟩))
      simp only [List.mem_append] at hp ⊢
      tauto
    · exact .inr (.inr (.inr h))
  refine ⟨hown, ?_, fun _ h => .inl h⟩
  rintro c ⟨p, hp, hr, hc⟩
  simp only [List.mem_append] at hp
  rcases hp with (hp | hp) | hp
  · exact .inl ⟨p, List.mem_append_left _ hp, hr, hc⟩
  · rcases h p hp with h | h
    · rw [h] at hr
      cases hr
    · exact .inr (hown c (hc ▸ h))
  · exact .inl ⟨p, List.mem_append_right _ hp, hr, hc⟩

theorem Acts.grows (h : Acts th c s t) (ho : Owned cfg s c) : Grows cfg s t := by
  obtain ⟨conn, fs, n, e⟩ := h
  rw [e.eq]
  have g : Grows cfg s { s with pending := s.pending ++ fs.map fun f => ((s.conn c).loop, f) } := by
    refine grows_pending ?_
    intro p hp
    obtain ⟨f, hf, rfl⟩ := List.mem_map.1 hp
    exact .inr (by rw [(e.functors f hf).1]; exact ho)
  refine g.trans ⟨fun d hd => by cases d <;> exact hd, fun _ h => .inl h, ?_⟩
  intro d hd
  by_cases hc : d = c
  · rw [hc]
    have ho' := g.owned c ho
    exact .inr (by cases c <;> exact ho')
  · exact .inl (by simpa [hc] using hd)

/-- A client whose `connection_` stays, or was empty. -/
theorem grows_setClient {client : Client} (h : ∀ n ∈ (s.client k).connection, client.connection = some n) :
    Grows cfg s (setClient s k client) := by
  refine .of_listed ?_ rfl rfl rfl rfl rfl fun _ h => h
  intro d hd
  cases d with
  | server n => exact hd
  | client k' n =>
    by_cases hk : k' = k
    · subst hk
      simpa [Listed, setClient] using h n hd
    · simpa [Listed, setClient, hk] using hd

theorem grows_callBack (s : St) (th : Thread) (fr : Frame) : Grows cfg s (callBack s th fr) where
  owned c hc := by
    rcases hc with h | h | h | ⟨p, hp, hc⟩
    · exact .inl (by cases c <;> exact h)
    · exact .inr (.inl h)
    · exact .inr (.inr (.inl h))
    · exact .inr (.inr (.inr ⟨p, List.mem_cons_of_mem _ hp, hc⟩))
  queued _ hc := .inl hc
  polled _ hc := .inl hc

/-! ## The server -/

theorem grows_insert (s : St) (name : String) (v : Option Nat)
    (h : ∀ n, connName cfg.toConfig n = name → s.connections.find name = some (some n) → v = some n) :
    Grows cfg s { s with connections := s.connections.insert name v } := by
  refine .of_listed ?_ rfl rfl rfl rfl rfl fun _ h => h
  intro d hd
  cases d with
  | client k n => exact hd
  | server n =>
    by_cases hn : connName cfg.toConfig n = name
    · rw [Listed, hn] at hd ⊢
      rw [Map.find_insert_self, h n hn hd]
    · rw [Listed, Map.find_insert_ne hn]
      exact hd

theorem grows_newConnection (hx : newConnection cfg s = some s') : Grows cfg s s' := by
  obtain ⟨ioLoop, next, s₁, h₁, hs⟩ := newConnection_cases hx
  -- the entry that is written over, if there is one, is of the same number
  have hins : Grows cfg s { s with
      connections := s.connections.insert (connName cfg.toConfig s.nextConnId) (some s.nextConnId) } :=
    grows_insert s _ _ fun m hm _ => by rw [connName_injective cfg.toConfig hm]
  have g : Grows cfg s s₁ := by
    rw [h₁]
    exact hins.trans (grows_same rfl rfl rfl rfl rfl rfl rfl fun c hc => registered_update (fun h => by cases h) hc)
  have ho : Owned cfg s₁ (.server s.nextConnId) := by
    rw [h₁]
    exact .inl Map.find_insert_self
  rcases hs with ⟨-, s₂, h₂, rfl⟩ | ⟨-, rfl⟩
  · exact (g.trans (h₂.grows ho)).trans (grows_callBack _ _ _)
  · exact g.trans (grows_pending fun p hp => .inl (by rw [List.mem_singleton.1 hp]; rfl))

theorem Destroys.grows (h : Destroys cfg th c s t) : Grows cfg s t := h.acts.grows h.owned

theorem grows_assert (s : St) (l : Loop) (th : Thread) : Grows cfg s (assertInLoopThread s l th) :=
  grows_same rfl rfl rfl rfl rfl rfl rfl fun _ h => h

theorem grows_removeClosed (hx : removeClosed cfg s th n = some s') : Grows cfg s s' := by
  obtain ⟨s₁, h₁, rfl⟩ := removeClosed_cases hx
  exact ((grows_assert s 0 th).trans h₁.grows).trans (grows_callBack _ _ _)

theorem grows_removeConnectionInLoop (hx : removeConnectionInLoop cfg s th n = some s') : Grows cfg s s' := by
  rcases removeConnectionInLoop_cases hx with ⟨-, rfl⟩ | ⟨-, hx⟩
  · exact grows_callBack _ _ _
  · exact grows_removeClosed hx

theorem grows_removeConn {name : String} (hx : removeConn cfg s th name = some s') : Grows cfg s s' := by
  rcases removeConn_cases hx with ⟨hf, rfl⟩ | ⟨-, rfl⟩ | ⟨n, s₁, -, h₁, rfl⟩
  · exact grows_insert s name none fun m hm h => by rw [hf] at h; cases h
  · exact .refl s'
  · exact ((grows_assert s 0 th).trans h₁.grows).trans (grows_callBack _ _ _)

theorem grows_held (s : St) (c : ConnId) : Grows cfg s { s with held := c :: s.held } where
  owned d hd := by
    rcases hd with h | h | h
    · exact .inl (by cases d <;> exact h)
    · exact .inr (.inl (List.mem_cons_of_mem _ h))
    · exact .inr (.inr h)
  queued _ hd := .inl hd
  polled _ hd := .inl hd

theorem grows_getConn (s : St) (name : String) : Grows cfg s (getConn s name) := by
  rcases getConn_cases s name with ⟨hf, e⟩ | ⟨-, e⟩ | ⟨n, -, e⟩
  · rw [e]
    exact grows_insert s name none fun m hm h => by rw [hf] at h; cases h
  · rw [e]
    exact .refl s
  · rw [e]
    exact grows_held s _

/-! ## The clients -/

theorem setClient_dropConnection (s : St) (k : ClientId) (client : Client) :
    setClient (dropConnection s k) k client = setClient s k client := by
  simp [dropConnection, setClient]

/-- A client that has given up its connection gets another one, or none. -/
theorem grows_dropConnection (s : St) (k : ClientId) (client : Client) :
    Grows cfg (dropConnection s k) (setClient s k client) := by
  rw [← setClient_dropConnection]
  exact grows_setClient fun n hn => by simp [dropConnection, setClient] at hn

theorem grows_clientNewConnection (hx : clientNewConnection cfg s th k = some s') :
    Grows cfg (dropConnection s k) s' := by
  obtain ⟨s₁, s₂, h₁, h₂, rfl⟩ := clientNewConnection_cases hx
  have g : Grows cfg (dropConnection s k) s₁ := by
    rw [h₁]
    exact (grows_dropConnection s k _).trans
      (grows_same rfl rfl rfl rfl rfl rfl rfl fun c hc => registered_update (fun h => by cases h) hc)
  have ho : Owned cfg s₁ (.client k (s.client k).nextConnId) := by
    rw [h₁]
    exact .inl (by simp [Listed])
  exact (g.trans (h₂.grows ho)).trans (grows_callBack _ _ _)

theorem grows_connector (s : St) (k : ClientId) (connector : Connector.St) :
    Grows cfg s (setClient s k { s.client k with connector }) := grows_setClient fun _ h => h

theorem grows_runConnector {a : Connector.Act} (ha : ∀ c err out e self, a ≠ .handleEvent c err out e self)
    (hx : runConnector cfg s th k a = some s') : Grows cfg s s' := by
  obtain ⟨connector, -, rfl⟩ := runConnector_cases ha hx
  exact grows_connector s k connector

theorem grows_clientRemoveClosed (hx : clientRemoveClosed cfg s th k n = some s') : Grows cfg s s' := by
  obtain ⟨-, -, d, s₁, -, h₁, rfl⟩ := clientRemoveClosed_cases hx
  exact ((grows_assert s _ th).trans h₁.grows).trans (grows_callBack _ _ _)

theorem grows_clientRemoveConnection (hx : clientRemoveConnection cfg s th k n = some s') : Grows cfg s s' := by
  rcases clientRemoveConnection_cases hx with ⟨-, rfl⟩ | ⟨-, hx⟩
  · exact grows_callBack _ _ _
  · exact grows_clientRemoveClosed hx

theorem grows_clientReset {e : Errno} (hx : clientReset cfg s th k n e = some s') :
    Grows cfg (dropConnection s k) s' := by
  obtain ⟨-, connector, rfl, -⟩ := clientReset_cases hx
  exact grows_dropConnection s k _

theorem grows_destroyMembers (hx : destroyMembers s k = some s') : Grows cfg (dropConnection s k) s' := by
  obtain ⟨connector, -, rfl⟩ := destroyMembers_cases hx
  exact grows_dropConnection s k _

/-! ## Functors and events -/

theorem grows_doPendingFunctors (s : St) (l : Loop) : Grows cfg s (doPendingFunctors s l) := by
  have hmem (p : Loop × Functor) (hp : p ∈ s.pending ++ s.todo) :
      p ∈ Lanes.others s.pending l ++ (s.todo ++ Lanes.lane s.pending l) := by
    rcases List.mem_append.1 hp with hp | hp
    · by_cases hl : p.1 = l
      · simp [Lanes.mem_lane.2 ⟨hp, hl⟩]
      · simp [Lanes.mem_others.2 ⟨hp, hl⟩]
    · simp [hp]
  constructor
  · rintro c (h | h | ⟨p, hp, hc⟩ | h)
    · exact .inl (by cases c <;> exact h)
    · exact .inr (.inl h)
    · refine .inr (.inr (.inl ⟨p, ?_, hc⟩))
      rcases List.mem_append.1 hp with hp | hp
      · exact List.mem_append_left _ (hmem p hp)
      · exact List.mem_append_right _ hp
    · exact .inr (.inr (.inr h))
  · rintro c ⟨p, hp, hc⟩
    refine .inl ⟨p, ?_, hc⟩
    simp only [doPendingFunctors, List.mem_append] at hp ⊢
    rcases hp with hp | hp | hp
    · exact .inl (Lanes.mem_others.1 hp).1
    · exact .inr hp
    · exact .inl (Lanes.mem_lane.1 hp).1
  · exact fun _ h => .inl h

/-- The functor that is run stays in the batch. -/
theorem grows_next {f : Functor} (l : Loop) (hf : nextFunctor s l = some f) :
    Grows cfg s { s with todo := Lanes.pop s.todo l, done := s.done ++ [(l, f)] } := by
  constructor
  · rintro c (h | h | ⟨p, hp, hc⟩ | h)
    · exact .inl (by cases c <;> exact h)
    · exact .inr (.inl h)
    · refine .inr (.inr (.inl ⟨p, ?_, hc⟩))
      simp only [List.mem_append, List.mem_singleton] at hp ⊢
      rcases hp with (hp | hp) | hp
      · exact .inl (.inl hp)
      · rcases Lanes.mem_pop (l := l) hp with hp | ⟨hl, hp⟩
        · exact .inl (.inr hp)
        · rw [nextFunctor, hp] at hf
          exact .inr (.inr (Prod.ext hl (Option.some.inj hf)))
      · exact .inr (.inl hp)
    · exact .inr (.inr (.inr h))
  · rintro c ⟨p, hp, hc⟩
    refine .inl ⟨p, ?_, hc⟩
    simp only [List.mem_append] at hp ⊢
    exact hp.imp_right Lanes.mem_of_mem_pop
  · exact fun _ h => .inl h

theorem grows_runFunctor {w : WriteResult} {l : Loop} (hx : runFunctor cfg s l w = some s') : Grows cfg s s' := by
  obtain ⟨f, s₁, hf, rfl, ho, h⟩ := runFunctor_cases hx
  refine (grows_next l hf).trans ?_
  cases f with
  | connectEstablished n =>
    obtain ⟨s₂, h₂, rfl⟩ := h
    exact (h₂.grows ho).trans (grows_callBack _ _ _)
  | removeConnectionInLoop n => exact grows_removeConnectionInLoop h
  | sendInLoop | shutdownInLoop | shutdownAllInLoop | writeCompleteCallback => exact h.grows ho

theorem grows_handleClose (ho : Owned cfg s c) (hx : handleClose cfg s th c = some s') : Grows cfg s s' := by
  obtain ⟨s₁, h₁, hx⟩ := handleClose_cases hx
  have g := h₁.grows ho
  refine g.trans ?_
  cases c with
  | server n =>
    rcases hx with ⟨-, hx⟩ | ⟨-, rfl⟩
    · exact grows_removeConnectionInLoop hx
    · exact grows_pending fun p hp => .inr (by rw [List.mem_singleton.1 hp]; exact g.owned _ ho)
  | client k n => exact grows_clientRemoveConnection hx

theorem grows_handleEvent {l : Loop} {write : Option WriteResult} {read : Input}
    (hx : handleEvent cfg s l c write read = some s') : Grows cfg s s' := by
  obtain ⟨ho, s₁, h₁, ⟨-, hx⟩ | ⟨-, rfl⟩⟩ := handleEvent_cases hx
  · exact (h₁.grows ho).trans (grows_handleClose ((h₁.grows ho).owned c ho) hx)
  · exact h₁.grows ho

/-! ## Steps and runs -/

theorem grows_call (ho : Owned cfg s c) (th : Thread) (f : Call) (w : WriteResult) :
    Grows cfg s (call s th c f w) := by
  rcases acts_call s th c f w with ⟨-, h⟩ | e | ⟨-, e⟩
  · exact h.grows ho
  · rw [e]
    exact .refl s
  · rw [e]
    have g : Grows cfg s (setConn s c { s.conn c with state := f.leaves }) := grows_setConn rfl
    exact g.trans (grows_same rfl rfl rfl rfl rfl rfl rfl fun _ h => h)

/-- A callback returns: besides what is released nothing is lost. -/
theorem grows_ret {e : Errno} (hx : ret cfg s th e = some s') : Grows cfg (released cfg s (.ret th e)) s' := by
  obtain ⟨fr, hf, hx⟩ := Option.bind_eq_some_iff.1 hx
  simp only [released, hf, Option.elim_some]
  cases fr with
  | established n => cases hx; exact .refl _
  | newConnection n => cases hx; exact .refl _
  | closing n => exact grows_removeClosed hx
  | removed n =>
    obtain ⟨s₁, h₁, hx⟩ := Option.bind_eq_some_iff.1 hx
    rw [eraseConn_eq hx, (destroyed_eq h₁).2]
    exact grows_same rfl rfl rfl rfl rfl rfl rfl fun d hd => registered_update (fun h => by cases h) hd
  | removeConn name n =>
    obtain ⟨s₁, h₁, hx⟩ := Option.bind_eq_some_iff.1 hx
    rw [eraseConn_eq hx, (destroyed_eq h₁).2]
    exact grows_same rfl rfl rfl rfl rfl rfl rfl fun d hd => registered_update (fun h => by cases h) hd
  | clientNewConnection k n => exact grows_runConnector (fun _ _ _ _ _ h => by cases h) hx
  | clientClosing k n => exact grows_clientRemoveClosed hx
  | clientRemoved k n d =>
    obtain ⟨s₁, h₁, hx⟩ := Option.bind_eq_some_iff.1 hx
    refine Grows.trans ?_ (grows_clientReset hx)
    rw [(destroyed_eq h₁).2]
    exact grows_same rfl rfl rfl rfl rfl rfl rfl fun d hd => registered_update (fun h => by cases h) hd
  | clientDestroyed k d =>
    obtain ⟨s₁, h₁, hx⟩ := Option.bind_eq_some_iff.1 hx
    refine Grows.trans ?_ (grows_destroyMembers hx)
    rw [(destroyed_eq h₁).2]
    exact grows_same rfl rfl rfl rfl rfl rfl rfl fun d hd => registered_update (fun h => by cases h) hd

theorem step_grows {a : Act} (ha : enabled cfg s a) (hx : exec cfg s a = some s') :
    Grows cfg (released cfg s a) s' := by
  cases a with
  | poll l active => cases hx; exact grows_same rfl rfl rfl rfl rfl rfl rfl fun _ h => h
  | acceptor accepted =>
    obtain ⟨-, -, hx⟩ := Option.bind_eq_some_iff.1 hx
    split at hx
    · exact (grows_handled s 0).trans (grows_newConnection hx)
    · cases hx
      exact grows_handled s 0
  | wakeup l =>
    cases hx
    exact (grows_handled s l).trans (grows_doPendingFunctors _ l)
  | timer l => cases hx; exact grows_handled s l
  | handleEvent l write read =>
    obtain ⟨c, -, hx⟩ := Option.bind_eq_some_iff.1 hx
    exact (grows_handled s l).trans (grows_handleEvent hx)
  | connectorEvent l err out soError selfConnect =>
    obtain ⟨⟨k, d⟩, hn, hx⟩ := Option.bind_eq_some_iff.1 hx
    obtain ⟨-, p, hp, hpoll⟩ := ha
    cases hn.symm.trans hp
    simp only [released, hn, Option.elim_some]
    obtain ⟨connector, -, ⟨hc, rfl⟩ | ⟨hc, hx⟩⟩ := connectorEvent_cases (s := handled s l) hpoll.1 hx
    · rw [if_neg (show ¬ Connector.Completes (s.client k).connector err out soError selfConnect from hc)]
      exact (grows_handled s l).trans (grows_connector _ k connector)
    · rw [if_pos (show Connector.Completes (s.client k).connector err out soError selfConnect from hc)]
      refine Grows.trans ?_ (grows_clientNewConnection hx)
      have e : dropConnection (setClient (handled s l) k { s.client k with connector }) k =
          handled (setClient s k { s.client k with connector, connection := none }) l := by
        simp [dropConnection, setClient, handled]
      exact ((grows_dropConnection s k _).trans (grows_handled _ l)).trans (by rw [← e]; exact .refl _)
  | runFunctor l w => exact grows_runFunctor hx
  | endFunctors l => cases hx; exact .refl _
  | ret th e => exact grows_ret hx
  | connector k a =>
    exact grows_runConnector (not_event_of_ofLoop ha.2.1) hx
  | call th c f w => cases hx; exact grows_call ha.2 th f w
  | pushBack th =>
    obtain ⟨⟨c, f⟩, hc, hx⟩ := Option.bind_eq_some_iff.1 hx
    obtain ⟨p, hp, ho⟩ := ha
    cases hc.symm.trans hp
    cases hx
    refine (grows_pending (q := [((s.conn c).loop, f.functor c)]) ?_).trans
      (grows_same rfl rfl rfl rfl rfl rfl rfl fun _ h => h)
    intro p hp
    rw [List.mem_singleton.1 hp]
    cases f <;> exact .inr ho
  | setInterest th c i => cases hx; exact (acts_setInterest s th c i).grows ha.2
  | setWriteCompleteCallback c on => cases hx; exact grows_setConn rfl
  | removeConn th name => exact grows_removeConn hx
  | getConn name => cases hx; exact grows_getConn s name
  | getClientConn k =>
    cases hx
    unfold getClientConn
    split
    · exact grows_held s _
    · exact .refl s
  | drop c => cases hx; exact .refl _
  | deleteServer t => cases hx; exact grows_same rfl rfl rfl rfl rfl rfl rfl fun _ h => h
  | newClient =>
    cases hx
    have g : Grows cfg s (setClient s s.clients { s.client s.clients with alive := true }) :=
      grows_setClient fun _ h => h
    exact g.trans (grows_same rfl rfl rfl rfl rfl rfl rfl fun _ h => h)
  | connect k a =>
    obtain ⟨connect, hc, hx⟩ := Option.bind_eq_some_iff.1 hx
    have g : Grows cfg s (setClient s k { s.client k with connect }) := grows_setClient fun _ h => h
    exact g.trans (grows_runConnector (not_event_of_connects hc) hx)
  | disconnect th k w =>
    cases hx
    have g : Grows cfg s (setClient s k { s.client k with connect := false }) := grows_setClient fun _ h => h
    unfold disconnect
    dsimp only
    split
    · rename_i n hn
      exact g.trans (grows_call (c := .client k n) (.inl hn) th .shutdown w)
    · exact g
  | enableRetry k => cases hx; exact grows_setClient fun _ h => h
  | setCloseCallback k on => cases hx; exact grows_setClient fun _ h => h
  | deleteClient th k =>
    simp only [released]
    rcases deleteClient_cases hx with ⟨hs, d, s₁, -, h₁, rfl⟩ | ⟨hs, hx⟩
    · rw [if_pos hs]
      exact h₁.grows.trans (grows_callBack _ _ _)
    · rw [if_neg (by rw [hs]; exact Bool.noConfusion)]
      exact grows_destroyMembers hx

/-- Pointers are given up, and nothing becomes of the functors and of the connections. -/
theorem released_leaves (s : St) (a : Act) : (released cfg s a).pending = s.pending ∧
    (released cfg s a).todo = s.todo ∧ (released cfg s a).conn = s.conn := by
  cases a with
  | ret t e =>
    cases hf : Lanes.front s.stack t with
    | none => simp [released, hf]
    | some fr => cases fr <;> simp [released, hf, releasedBy, returned, dropConnection, setClient]
  | connectorEvent l err out soError selfConnect =>
    cases hn : nextConnector s l with
    | none => simp [released, hn]
    | some p =>
      simp only [released, hn, Option.elim_some]
      split <;> exact ⟨rfl, rfl, rfl⟩
  | deleteClient t k =>
    simp only [released]
    split <;> exact ⟨rfl, rfl, rfl⟩
  | _ => exact ⟨rfl, rfl, rfl⟩

theorem step_owned {a : Act} (ha : enabled cfg s a) (hk : Kept cfg s a) (hx : exec cfg s a = some s') :
    ∀ c, Queued s' c → Owned cfg s' c := by
  intro c hc
  have g := step_grows ha hx
  rcases g.queued c hc with ⟨p, hp, hr, rfl⟩ | ho
  · rw [(released_leaves s a).1, (released_leaves s a).2.1] at hp
    exact g.owned _ (hk p hp hr)
  · exact ho

end Cppnetool.TcpThreads
