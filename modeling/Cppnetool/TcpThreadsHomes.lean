import Cppnetool.TcpThreadsOps
/-!
# Numbers, loops and threads

A connection gets a number and a loop, and keeps both. Whoever knows of it got
the number from the code; its functors are queued to its loop, its events are
polled there, and a callback that goes on in a certain thread was called in it.
Removal alone is queued to the server's loop, or happens where it is asked for:
`Own` says that it is the connection's loop.
-/
open Lib

namespace Cppnetool.TcpThreads

open TcpServer (Loop connName connName_injective)
open TcpConnection (WriteResult)
open Connector (Errno)

variable {cfg : Config} {own : Prop} {s s' t u : St} {l : Loop} {th : Thread} {c : ConnId} {k : ClientId} {n : Nat}

/-- The connection on which `connectDestroyed` goes on when the callback returns. -/
def Frame.destroys : Frame → Option ConnId
  | closing n | removed n | removeConn _ n => some (.server n)
  | clientRemoved k _ c | clientDestroyed k c => some (.client k c)
  | _ => none

/-- The connection that the functor removes. -/
def Functor.removes : Functor → Option Nat
  | removeConnectionInLoop n => some n
  | _ => none

/-- A step that destroys a connection is in the connection's thread, and so are
direct calls of the user that change its interest. -/
def Own (cfg : Config) (s : St) : Act → Prop
  | .ret t _ => ∀ c ∈ (Lanes.front s.stack t).bind Frame.destroys, (s.conn c).loop = t
  | .runFunctor l _ =>
    ∀ n ∈ (nextFunctor s l).bind Functor.removes, cfg.hasClose = false → (s.conn (.server n)).loop = l
  | .removeConn t name => ∀ n ∈ (s.connections.find name).join, t = 0 ∧ (s.conn (.server n)).loop = t
  | .deleteClient t k =>
    ∀ n ∈ (s.client k).connection, (s.client k).state = true → (s.conn (.client k n)).loop = t
  | .setInterest t c _ => (s.conn c).loop = t
  | _ => True

instance (s : St) : ∀ a, Decidable (Own cfg s a)
  | .ret t _ => inferInstanceAs (Decidable (∀ c ∈ (Lanes.front s.stack t).bind Frame.destroys, (s.conn c).loop = t))
  | .runFunctor l _ => inferInstanceAs (Decidable (∀ n ∈ (nextFunctor s l).bind Functor.removes,
      cfg.hasClose = false → (s.conn (.server n)).loop = l))
  | .removeConn t name => inferInstanceAs (Decidable (∀ n ∈ (s.connections.find name).join,
      t = 0 ∧ (s.conn (.server n)).loop = t))
  | .deleteClient t k => inferInstanceAs (Decidable (∀ n ∈ (s.client k).connection,
      (s.client k).state = true → (s.conn (.client k n)).loop = t))
  | .setInterest t c _ => inferInstanceAs (Decidable ((s.conn c).loop = t))
  | .poll .. | .acceptor _ | .wakeup _ | .timer _ | .handleEvent .. | .connectorEvent .. | .endFunctors _
  | .connector .. | .call .. | .pushBack _ | .setWriteCompleteCallback .. | .getConn _ | .deleteServer _
  | .getClientConn _ | .drop _ | .newClient | .connect .. | .disconnect .. | .enableRetry _ | .setCloseCallback .. => .isTrue trivial

/-- The thread that takes the step, where it matters which. -/
def Act.thread (cfg : Config) : Act → Option Thread
  | .poll l _ | .wakeup l | .timer l | .handleEvent l _ _ | .connectorEvent l .. | .runFunctor l _
  | .endFunctors l => some l
  | .acceptor _ => some 0
  | .ret t _ | .call t .. | .pushBack t | .setInterest t .. | .removeConn t _ | .deleteServer t | .disconnect t ..
  | .deleteClient t _ => some t
  | .connector k _ | .connect k _ => some (cfg.clientLoop k)
  | .setWriteCompleteCallback .. | .getConn _ | .getClientConn _ | .drop _ | .newClient | .enableRetry _
  | .setCloseCallback .. => none

/-- The step changes the channel's interest, or its place in the poller. -/
def Changed (s t : St) (c : ConnId) : Prop :=
  (t.conn c).events ≠ (s.conn c).events ∨ (t.conn c).registered ≠ (s.conn c).registered

/-! ## Where everything is -/

/-- The number has been given to a connection. -/
def Made (s : St) : ConnId → Prop
  | .server n => 0 < n ∧ n < s.nextConnId
  | .client k n => 0 < n ∧ n < (s.client k).nextConnId

/-- The server's table has it under some name. -/
def Filed (s : St) (c : ConnId) : Prop := ∃ name n, c = .server n ∧ s.connections.find name = some (some n)

/-- Somebody knows of the connection. -/
def Known (cfg : Config) (s : St) (c : ConnId) : Prop :=
  Owned cfg s c ∨ (∃ p ∈ s.pending ++ s.todo, p.2.conn = c) ∨ (∃ l, Chan.conn c ∈ s.active l) ∨ s.conn c ≠ {} ∨
    Filed s c

/-- The loop that a functor is queued to. -/
def Functor.home (s : St) : Functor → Loop
  | removeConnectionInLoop _ => 0
  | f => (s.conn f.conn).loop

/-- The loop that polls a channel. -/
def Chan.home (cfg : Config) (s : St) : Chan → Option Loop
  | conn c => some (s.conn c).loop
  | connector k _ => some (cfg.clientLoop k)
  | _ => none

/-- The thread of a callback that is only called in one. -/
def Frame.home (cfg : Config) : Frame → Option Thread
  | closing _ => some 0
  | clientClosing k _ => some (cfg.clientLoop k)
  | _ => none

structure Homed (cfg : Config) (s : St) : Prop where
  counted : 0 < s.nextConnId ∧ ∀ k, 0 < (s.client k).nextConnId
  known : ∀ c, Known cfg s c → Made s c
  functors : ∀ p ∈ s.pending ++ s.todo, p.1 = p.2.home s
  active : ∀ l, ∀ ch ∈ s.active l, ∀ l' ∈ ch.home cfg s, l' = l
  frames : ∀ p ∈ s.stack, ∀ t ∈ p.2.home cfg, p.1 = t
  clients : ∀ k n, Made s (.client k n) → (s.conn (.client k n)).loop = cfg.clientLoop k

/-- What thread `th` may do: connections keep their loops, and new ones are where
they belong. If `own` holds, every check and every change is in its thread. -/
structure Confines (cfg : Config) (own : Prop) (th : Thread) (s t : St) : Prop where
  counted : s.nextConnId ≤ t.nextConnId ∧ ∀ k, (s.client k).nextConnId ≤ (t.client k).nextConnId
  loop : ∀ c, Made s c → (t.conn c).loop = (s.conn c).loop
  known : ∀ c, Known cfg t c → Known cfg s c ∨ Made t c
  functors : ∀ p ∈ t.pending ++ t.todo, p ∈ s.pending ++ s.todo ∨ Made t p.2.conn ∧ p.1 = p.2.home t
  active : ∀ l, ∀ ch ∈ t.active l, ch ∈ s.active l ∨
    (∀ c, ch = .conn c → Made t c) ∧ ∀ l' ∈ ch.home cfg t, l' = l
  frames : ∀ p ∈ t.stack, p ∈ s.stack ∨ ∀ t ∈ p.2.home cfg, p.1 = t
  clients : ∀ k n, Made t (.client k n) →
    Made s (.client k n) ∨ (t.conn (.client k n)).loop = cfg.clientLoop k
  asserted : own → ∀ p ∈ t.asserted, p ∈ s.asserted ∨ p.1 = p.2
  changed : own → ∀ c, Changed s t c → Made t c ∧ (t.conn c).loop = th

/-- A functor for a connection that keeps its loop. -/
theorem Functor.home_eq {f : Functor} (h : (t.conn f.conn).loop = (s.conn f.conn).loop) : f.home t = f.home s := by
  cases f <;> first | rfl | exact h

/-- A channel whose connection, if it is one of a connection, keeps its loop. -/
theorem Chan.home_eq {ch : Chan} (h : ∀ c, ch = .conn c → (t.conn c).loop = (s.conn c).loop) :
    ch.home cfg t = ch.home cfg s := by
  cases ch with
  | conn c => exact congrArg some (h c rfl)
  | _ => rfl

theorem Confines.made (h : Confines cfg own th s t) (c : ConnId) (hc : Made s c) : Made t c := by
  cases c with
  | server n => exact ⟨hc.1, Nat.lt_of_lt_of_le hc.2 h.counted.1⟩
  | client k n => exact ⟨hc.1, Nat.lt_of_lt_of_le hc.2 (h.counted.2 k)⟩

theorem Homed.confines (H : Homed cfg s) (h : Confines cfg own th s t) : Homed cfg t where
  counted := ⟨Nat.lt_of_lt_of_le H.counted.1 h.counted.1,
    fun k => Nat.lt_of_lt_of_le (H.counted.2 k) (h.counted.2 k)⟩
  known c hc := (h.known c hc).elim (fun hc => h.made c (H.known c hc)) id
  functors p hp := by
    rcases h.functors p hp with hp | ⟨-, e⟩
    · rw [Functor.home_eq (h.loop _ (H.known _ (.inr (.inl ⟨p, hp, rfl⟩))))]
      exact H.functors p hp
    · exact e
  active l ch hc := by
    rcases h.active l ch hc with hc | ⟨-, e⟩
    · rw [Chan.home_eq fun c e => h.loop c (H.known c (.inr (.inr (.inl ⟨l, e ▸ hc⟩))))]
      exact H.active l ch hc
    · exact e
  frames p hp := (h.frames p hp).elim (H.frames p) id
  clients k n hn := by
    rcases h.clients k n hn with hs | e
    · rw [h.loop _ hs]
      exact H.clients k n hs
    · exact e

theorem Confines.refl (th : Thread) (s : St) : Confines cfg own th s s where
  counted := ⟨Nat.le_refl _, fun _ => Nat.le_refl _⟩
  loop _ _ := rfl
  known _ h := .inl h
  functors _ h := .inl h
  active _ _ h := .inl h
  frames _ h := .inl h
  clients _ _ h := .inl h
  asserted _ _ h := .inl h
  changed _ _ h := by simp [Changed] at h

theorem Confines.trans (h : Confines cfg own th s t) (h' : Confines cfg own th t u) : Confines cfg own th s u where
  counted := ⟨Nat.le_trans h.counted.1 h'.counted.1, fun k => Nat.le_trans (h.counted.2 k) (h'.counted.2 k)⟩
  loop c hc := (h'.loop c (h.made c hc)).trans (h.loop c hc)
  known c hc := by
    rcases h'.known c hc with hc | hm
    · exact (h.known c hc).imp_right (h'.made c)
    · exact .inr hm
  functors p hp := by
    rcases h'.functors p hp with hp | hn
    · rcases h.functors p hp with hp | ⟨hm, e⟩
      · exact .inl hp
      · exact .inr ⟨h'.made _ hm, e.trans (Functor.home_eq (h'.loop _ hm)).symm⟩
    · exact .inr hn
  active l ch hc := by
    rcases h'.active l ch hc with hc | hn
    · rcases h.active l ch hc with hc | ⟨hm, e⟩
      · exact .inl hc
      · refine .inr ⟨fun c hch => h'.made c (hm c hch), ?_⟩
        rw [Chan.home_eq fun c hch => h'.loop c (hm c hch)]
        exact e
    · exact .inr hn
  frames p hp := by
    rcases h'.frames p hp with hp | hn
    · exact h.frames p hp
    · exact .inr hn
  clients k n hn := by
    rcases h'.clients k n hn with ht | e
    · exact (h.clients k n ht).imp_right fun e => (h'.loop _ ht).trans e
    · exact .inr e
  asserted hown p hp := by
    rcases h'.asserted hown p hp with hp | e
    · exact h.asserted hown p hp
    · exact .inr e
  changed hown c hc := by
    by_cases ht : Changed t u c
    · exact h'.changed hown c ht
    · simp only [Changed, not_or, not_not] at ht
      rw [Changed, ht.1, ht.2] at hc
      obtain ⟨hm, e⟩ := h.changed hown c hc
      exact ⟨h'.made c hm, (h'.loop c hm).trans e⟩

/-! ## The operations -/

/-- Nothing is checked or created, and no connection changes. -/
theorem confines_same (hc : t.conn = s.conn) (hn : t.nextConnId = s.nextConnId)
    (hk : ∀ k, (t.client k).nextConnId = (s.client k).nextConnId) (ha : t.asserted = s.asserted)
    (ho : ∀ c, Owned cfg t c → Owned cfg s c ∨ Made s c)
    (hf : ∀ p ∈ t.pending ++ t.todo, p ∈ s.pending ++ s.todo ∨ Made s p.2.conn ∧ p.1 = p.2.home s)
    (hfl : ∀ c, Filed t c → Filed s c)
    (hac : ∀ l, ∀ ch ∈ t.active l, ch ∈ s.active l ∨
      (∀ c, ch = .conn c → Made s c) ∧ ∀ l' ∈ ch.home cfg s, l' = l)
    (hfr : ∀ p ∈ t.stack, p ∈ s.stack ∨ ∀ t ∈ p.2.home cfg, p.1 = t) : Confines cfg own th s t := by
  have hm : ∀ c, Made t c ↔ Made s c := by
    intro c
    cases c with
    | server n => simp only [Made, hn]
    | client k n => simp only [Made, hk]
  refine ⟨⟨Nat.le_of_eq hn.symm, fun k => Nat.le_of_eq (hk k).symm⟩, fun c _ => by rw [hc], ?_, ?_, ?_, hfr,
    fun k n h => .inl ((hm _).1 h), ?_, ?_⟩
  · rintro c (h | ⟨p, hp, rfl⟩ | ⟨l, hl⟩ | h | h)
    · rw [hm]
      exact (ho c h).imp_left .inl
    · rw [hm]
      exact (hf p hp).imp (fun h => .inr (.inl ⟨p, h, rfl⟩)) And.left
    · rw [hm]
      exact (hac l _ hl).imp (fun h => .inr (.inr (.inl ⟨l, h⟩))) fun h => h.1 c rfl
    · rw [hc] at h
      exact .inl (.inr (.inr (.inr (.inl h))))
    · exact .inl (.inr (.inr (.inr (.inr (hfl c h)))))
  · intro p hp
    rw [hm, Functor.home_eq (show (t.conn p.2.conn).loop = (s.conn p.2.conn).loop by rw [hc])]
    exact hf p hp
  · intro l ch hl
    rw [Chan.home_eq (s := s) fun c _ => by rw [hc]]
    exact (hac l ch hl).imp_right fun h => ⟨fun c hch => (hm c).2 (h.1 c hch), h.2⟩
  · intro _ p hp
    rw [ha] at hp
    exact .inl hp
  · intro _ c h
    simp [Changed, hc] at h

/-- Pointers, functors, channels and callbacks go, and none comes. -/
theorem confines_less (hc : t.conn = s.conn) (hn : t.nextConnId = s.nextConnId)
    (hk : ∀ k, (t.client k).nextConnId = (s.client k).nextConnId) (ha : t.asserted = s.asserted)
    (hfl : ∀ c, Filed t c → Filed s c) (hl : ∀ c, Listed cfg t c → Listed cfg s c) (hh : t.held ⊆ s.held)
    (hq : t.pending ++ t.todo ⊆ s.pending ++ s.todo)
    (hd : t.pending ++ t.todo ++ t.done ⊆ s.pending ++ s.todo ++ s.done)
    (hac : ∀ l, t.active l ⊆ s.active l) (hst : t.stack ⊆ s.stack) : Confines cfg own th s t := by
  refine confines_same hc hn hk ha ?_ (fun p hp => .inl (hq hp)) hfl (fun l ch h => .inl (hac l h))
    (fun p hp => .inl (hst hp))
  rintro c (h | h | ⟨p, hp, h⟩ | ⟨p, hp, h⟩)
  · exact .inl (.inl (hl c h))
  · exact .inl (.inr (.inl (hh h)))
  · exact .inl (.inr (.inr (.inl ⟨p, hd hp, h⟩)))
  · exact .inl (.inr (.inr (.inr ⟨p, hst hp, h⟩)))

/-- The table and the clients stay, too. -/
theorem confines_queues (hc : t.conn = s.conn) (hn : t.nextConnId = s.nextConnId) (hk : t.client = s.client)
    (ht : t.connections = s.connections) (ha : t.asserted = s.asserted) (hh : t.held ⊆ s.held)
    (hq : t.pending ++ t.todo ⊆ s.pending ++ s.todo)
    (hd : t.pending ++ t.todo ++ t.done ⊆ s.pending ++ s.todo ++ s.done)
    (hac : ∀ l, t.active l ⊆ s.active l) (hst : t.stack ⊆ s.stack) : Confines cfg own th s t := by
  refine confines_less hc hn (fun k => by rw [hk]) ha ?_ ?_ hh hq hd hac hst
  · intro c hf
    rw [Filed, ht] at hf
    exact hf
  · intro c hl
    cases c with
    | server n =>
      rw [Listed, ht] at hl
      exact hl
    | client k n =>
      rw [Listed, hk] at hl
      exact hl

/-- A connection whose channel changes with a check only, in the thread of its loop. -/
theorem confines_conn (conn : Conn) (n : Nat) (hm : Made s c) (hl : own → 0 < n → (s.conn c).loop = th)
    (he : conn.loop = (s.conn c).loop)
    (hch : conn.events ≠ (s.conn c).events ∨ conn.registered ≠ (s.conn c).registered → 0 < n) (ht : t = { s with
      conn := Function.update s.conn c conn
      asserted := s.asserted ++ List.replicate n ((s.conn c).loop, th) }) : Confines cfg own th s t := by
  have hloop (d : ConnId) : (t.conn d).loop = (s.conn d).loop := by
    rw [ht]
    by_cases hd : d = c
    · rw [hd]
      simpa using he
    · simp [hd]
  have hmade (d : ConnId) : Made t d ↔ Made s d := by
    rw [ht]
    cases d <;> exact Iff.rfl
  refine ⟨by rw [ht]; exact ⟨Nat.le_refl _, fun _ => Nat.le_refl _⟩, fun d _ => hloop d, ?_, ?_, ?_, ?_,
    fun k n h => .inl ((hmade _).1 h), ?_, ?_⟩
  · rintro d (h | h | h | h | h)
    · refine .inl (.inl ?_)
      rw [ht] at h
      unfold Owned at h ⊢
      cases d <;> exact h
    · exact .inl (.inr (.inl (by rw [ht] at h; exact h)))
    · exact .inl (.inr (.inr (.inl (by rw [ht] at h; exact h))))
    · by_cases hd : d = c
      · exact .inr ((hmade d).2 (hd ▸ hm))
      · refine .inl (.inr (.inr (.inr (.inl ?_))))
        rw [ht] at h
        simpa [hd] using h
    · exact .inl (.inr (.inr (.inr (.inr (by rw [ht] at h; exact h)))))
  · intro p hp
    rw [ht] at hp
    exact .inl hp
  · intro l d h
    rw [ht] at h
    exact .inl h
  · intro p hp
    rw [ht] at hp
    exact .inl hp
  · intro hown p hp
    rw [ht] at hp
    refine (List.mem_append.1 hp).imp_right fun hp => ?_
    rw [List.eq_of_mem_replicate hp]
    exact hl hown (Nat.pos_of_ne_zero fun h0 => by rw [h0] at hp; cases hp)
  · intro hown d hd
    by_cases hc : d = c
    · rw [hc] at hd ⊢
      have hn : 0 < n := hch (by rw [ht] at hd; simpa [Changed] using hd)
      exact ⟨(hmade c).2 hm, (hloop c).trans (hl hown hn)⟩
    · rw [ht] at hd
      simp [Changed, hc] at hd

/-- Functors for connections that have been made, in their loops. -/
theorem confines_pending {q : List (Loop × Functor)} (h : ∀ p ∈ q, Made s p.2.conn ∧ p.1 = p.2.home s) :
    Confines cfg own th s { s with pending := s.pending ++ q } := by
  refine confines_same rfl rfl (fun _ => rfl) rfl ?_ ?_ (fun _ h => h) (fun _ _ h => .inl h) (fun _ h => .inl h)
  · rintro c (ho | ho | ⟨p, hp, ho, rfl⟩ | ho)
    · exact .inl (.inl (by cases c <;> exact ho))
    · exact .inl (.inr (.inl ho))
    · simp only [List.append_assoc, List.mem_append] at hp
      rcases hp with hp | hp | hp
      · exact .inl (.inr (.inr (.inl ⟨p, by simp [hp], ho, rfl⟩)))
      · exact .inr (h p hp).1
      · exact .inl (.inr (.inr (.inl ⟨p, by simpa using .inr hp, ho, rfl⟩)))
    · exact .inl (.inr (.inr (.inr ho)))
  · intro p hp
    simp only [List.append_assoc, List.mem_append] at hp
    rcases hp with hp | hp | hp
    · exact .inl (by simp [hp])
    · exact .inr (h p hp)
    · exact .inl (by simp [hp])

theorem Acts.confines (h : Acts th c s t) (hm : Made s c) (hl : own → (s.conn c).loop = th) :
    Confines cfg own th s t := by
  obtain ⟨conn, fs, n, e⟩ := h
  have g : Confines cfg own th s { s with pending := s.pending ++ fs.map fun f => ((s.conn c).loop, f) } := by
    refine confines_pending ?_
    intro p hp
    obtain ⟨f, hf, rfl⟩ := List.mem_map.1 hp
    obtain ⟨hc, ho⟩ := e.functors f hf
    refine ⟨by rw [hc]; exact hm, ?_⟩
    rw [← hc]
    cases f <;> first | rfl | cases ho
  refine g.trans (confines_conn conn n hm (fun hown _ => hl hown) e.loop e.checked ?_)
  rw [e.eq]

theorem confines_assert (h : own → l = th) : Confines cfg own th s (assertInLoopThread s l th) := by
  refine ⟨⟨Nat.le_refl _, fun _ => Nat.le_refl _⟩, fun _ _ => rfl, ?_, fun _ h => .inl h, fun _ _ h => .inl h,
    fun _ h => .inl h, fun _ _ h => .inl h, ?_, fun _ c hc => by simp [Changed, assertInLoopThread] at hc⟩
  · rintro c (ho | ho)
    · exact .inl (.inl (by cases c <;> exact ho))
    · exact .inl (.inr ho)
  · intro hown p hp
    refine (List.mem_append.1 hp).imp_right fun hp => ?_
    rw [List.mem_singleton.1 hp]
    exact h hown

theorem confines_callBack {fr : Frame} (hh : ∀ t ∈ fr.home cfg, th = t) (hp : ∀ c ∈ fr.pointer, Made s c) :
    Confines cfg own th s (callBack s th fr) := by
  refine confines_same rfl rfl (fun _ => rfl) rfl ?_ (fun _ h => .inl h) (fun _ h => h) (fun _ _ h => .inl h) ?_
  · rintro c (ho | ho | ho | ⟨p, hm, ho⟩)
    · exact .inl (.inl (by cases c <;> exact ho))
    · exact .inl (.inr (.inl ho))
    · exact .inl (.inr (.inr (.inl ho)))
    · rcases List.mem_cons.1 hm with rfl | hm
      · exact .inr (hp c ho)
      · exact .inl (.inr (.inr (.inr ⟨p, hm, ho⟩)))
  · intro p hm
    rcases List.mem_cons.1 hm with rfl | hm
    · exact .inr hh
    · exact .inl hm

theorem Acts.made (h : Acts th c s t) (d : ConnId) : Made t d ↔ Made s d := by
  obtain ⟨conn, fs, n, e⟩ := h
  rw [e.eq]
  cases d <;> exact Iff.rfl

theorem Acts.loop (h : Acts th c s t) (d : ConnId) : (t.conn d).loop = (s.conn d).loop := by
  obtain ⟨conn, fs, n, e⟩ := h
  rw [e.eq]
  by_cases hd : d = c
  · rw [hd]
    simpa using e.loop
  · simp [hd]

theorem confines_destroyed (hm : Made s c) (hl : own → (s.conn c).loop = th) (hx : destroyed cfg s th c = some s') :
    Confines cfg own th s s' :=
  confines_conn { s.conn c with registered := false } 1 hm (fun hown _ => hl hown) rfl
    (fun _ => Nat.one_pos) (destroyed_eq hx).2

/-- The channel stays as it is. -/
theorem confines_setConn (conn : Conn) (hm : Made s c) (hl : conn.loop = (s.conn c).loop)
    (he : conn.events = (s.conn c).events) (hr : conn.registered = (s.conn c).registered) :
    Confines cfg own th s (setConn s c conn) :=
  confines_conn conn 0 hm (fun _ h => absurd h (Nat.lt_irrefl 0)) hl (by simp [he, hr]) (by simp [setConn])

/-- A client that keeps what it has, or gives up its connection. -/
theorem confines_setClient {client : Client} (hn : client.nextConnId = (s.client k).nextConnId)
    (hc : ∀ n ∈ client.connection, (s.client k).connection = some n) :
    Confines cfg own th s (setClient s k client) := by
  refine confines_less rfl rfl ?_ rfl (fun _ h => h) ?_ (fun _ h => h) (fun _ h => h) (fun _ h => h) (fun _ _ h => h)
    (fun _ h => h)
  · intro k'
    by_cases hk : k' = k
    · rw [hk]
      simpa [setClient] using hn
    · simp [setClient, hk]
  · intro d hd
    cases d with
    | server n => exact hd
    | client k' n =>
      by_cases hk : k' = k
      · subst hk
        simp only [Listed, setClient, Function.update_self] at hd
        exact hc n hd
      · simpa [Listed, setClient, hk] using hd

theorem confines_handled (s : St) (l : Loop) : Confines cfg own th s (handled s l) := by
  refine confines_queues rfl rfl rfl rfl rfl (fun _ h => h) (fun _ h => h) (fun _ h => h) ?_ (fun _ h => h)
  intro l' c hc
  by_cases hl : l' = l
  · rw [hl] at hc ⊢
    simp only [handled, Function.update_self] at hc
    exact List.mem_of_mem_tail hc
  · simpa [handled, hl] using hc

theorem confines_returned (s : St) (th' : Thread) : Confines cfg own th s (returned s th') :=
  confines_queues rfl rfl rfl rfl rfl (fun _ h => h) (fun _ h => h) (fun _ h => h)
    (fun _ _ h => h) fun _ h => Lanes.mem_of_mem_pop h

/-! ## The server -/

theorem not_made_server (s : St) : ¬ Made s (.server s.nextConnId) := fun h => Nat.lt_irrefl _ h.2

theorem Homed.fresh (H : Homed cfg s) (hc : ¬ Made s c) : s.conn c = {} := by
  by_contra h
  exact hc (H.known c (.inr (.inr (.inr (.inl h)))))

/-- A connection gets the next number of the server. -/
theorem confines_numbered (H : Homed cfg s) (ioLoop next : Nat) : Confines cfg own 0 s
    { s with
      next
      nextConnId := s.nextConnId + 1
      conn := Function.update s.conn (.server s.nextConnId) { loop := ioLoop }
      connections := s.connections.insert (connName cfg.toConfig s.nextConnId) (some s.nextConnId)
      asserted := s.asserted ++ [(0, 0), (0, 0)] } := by
  have hne : ∀ c, Made s c → c ≠ .server s.nextConnId := fun c hc e => not_made_server s (e ▸ hc)
  refine ⟨⟨Nat.le_succ _, fun _ => Nat.le_refl _⟩, fun c hc => by simp [hne c hc], ?_, fun _ h => .inl h,
    fun _ _ h => .inl h, fun _ h => .inl h, fun _ _ h => .inl h, ?_, ?_⟩
  · intro c hc
    by_cases hd : c = .server s.nextConnId
    · exact .inr (by rw [hd]; exact ⟨H.counted.1, Nat.lt_succ_self _⟩)
    · left
      rcases hc with ho | ho | ho | ho | ⟨name, n, rfl, ho⟩
      · refine .inl (ho.imp_left fun ho => ?_)
        cases c with
        | client k n => exact ho
        | server n =>
          have hn : connName cfg.toConfig n ≠ connName cfg.toConfig s.nextConnId :=
            fun e => hd (congrArg _ (connName_injective _ e))
          rwa [Listed, Map.find_insert_ne hn] at ho
      · exact .inr (.inl ho)
      · exact .inr (.inr (.inl ho))
      · exact .inr (.inr (.inr (.inl (by simpa [hd] using ho))))
      · refine .inr (.inr (.inr (.inr ⟨name, n, rfl, ?_⟩)))
        by_cases hn : name = connName cfg.toConfig s.nextConnId
        · rw [hn, Map.find_insert_self] at ho
          exact absurd (by cases ho; rfl) hd
        · rwa [Map.find_insert_ne hn] at ho
  · intro _ p hp
    refine (List.mem_append.1 hp).imp_right fun hp => ?_
    simp only [List.mem_cons, List.not_mem_nil, or_false, or_self] at hp
    rw [hp]
  · intro _ c hc
    by_cases hd : c = .server s.nextConnId
    · rw [hd] at hc
      simp [Changed, H.fresh (not_made_server s)] at hc
    · simp [Changed, hd] at hc

theorem confines_newConnection (H : Homed cfg s) (hx : newConnection cfg s = some s') :
    Confines cfg own 0 s s' := by
  obtain ⟨ioLoop, next, s₁, h₁, hs⟩ := newConnection_cases hx
  have g : Confines cfg own 0 s s₁ := by
    rw [h₁]
    exact confines_numbered H ioLoop next
  have hm : Made s₁ (.server s.nextConnId) := by
    rw [h₁]
    exact ⟨H.counted.1, Nat.lt_succ_self _⟩
  have hl : (s₁.conn (.server s.nextConnId)).loop = ioLoop := by
    rw [h₁]
    simp
  rcases hs with ⟨rfl, s₂, h₂, rfl⟩ | ⟨-, rfl⟩
  · refine (g.trans (h₂.confines hm fun _ => hl)).trans (confines_callBack (fun _ h => by cases h) ?_)
    intro c hc
    cases hc
    exact (h₂.made _).2 hm
  · refine g.trans (confines_pending ?_)
    intro p hp
    rw [List.mem_singleton.1 hp]
    exact ⟨hm, hl.symm⟩

theorem Destroys.confines (h : Destroys cfg th c s t) (hm : Made s c) (hl : own → (s.conn c).loop = th) :
    Confines cfg own th s t := h.acts.confines hm hl

theorem owned_assert {l : Loop} (c : ConnId) : Owned cfg (assertInLoopThread s l th) c ↔ Owned cfg s c := by
  cases c <;> exact Iff.rfl

theorem confines_removeClosed (H : Homed cfg s) (h0 : th = 0) (hl : own → (s.conn (.server n)).loop = th)
    (hx : removeClosed cfg s th n = some s') : Confines cfg own th s s' := by
  obtain ⟨s₁, h₁, rfl⟩ := removeClosed_cases hx
  have hm : Made s (.server n) := H.known _ (.inl ((owned_assert _).1 h₁.owned))
  exact ((confines_assert fun _ => h0.symm).trans (h₁.confines hm hl)).trans
    (confines_callBack (fun _ h => by cases h) fun _ h => by cases h)

theorem confines_removeConnectionInLoop (H : Homed cfg s) (h0 : th = 0)
    (hl : own → cfg.hasClose = false → (s.conn (.server n)).loop = th)
    (hx : removeConnectionInLoop cfg s th n = some s') : Confines cfg own th s s' := by
  rcases removeConnectionInLoop_cases hx with ⟨-, rfl⟩ | ⟨hc, hx⟩
  · exact confines_callBack (fun t ht => by cases ht; exact h0) fun _ h => by cases h
  · exact confines_removeClosed H h0 (fun hown => hl hown hc) hx

/-- Entries of the table go, and none comes. -/
theorem confines_table {connections : Map String (Option Nat)}
    (h : ∀ name n, connections.find name = some (some n) → s.connections.find name = some (some n)) :
    Confines cfg own th s { s with connections } := by
  refine confines_less rfl rfl (fun _ => rfl) rfl ?_ ?_ (fun _ h => h) (fun _ h => h) (fun _ h => h) (fun _ _ h => h)
    (fun _ h => h)
  · rintro c ⟨name, n, rfl, hf⟩
    exact ⟨name, n, rfl, h name n hf⟩
  · intro c hc
    cases c with
    | client k n => exact hc
    | server n => exact h _ n hc

/-- `connections_[name]` of a name that is not there. -/
theorem confines_lookup (s : St) (name : String) :
    Confines cfg own th s { s with connections := s.connections.insert name none } := by
  refine confines_table ?_
  intro name' n hf
  by_cases hn : name' = name
  · rw [hn, Map.find_insert_self] at hf
    cases hf
  · rwa [Map.find_insert_ne hn] at hf

theorem confines_erase (s : St) (name : String) :
    Confines cfg own th s { s with connections := s.connections.erase name } := by
  refine confines_table ?_
  intro name' n hf
  by_cases hn : name' = name
  · rw [hn, Map.find_erase_self] at hf
    cases hf
  · rwa [Map.find_erase_ne hn] at hf

theorem confines_deleteServer (s : St) : Confines cfg own th s (deleteServer s) := by
  refine confines_less rfl rfl (fun _ => rfl) rfl ?_ ?_ (fun _ h => h) (fun _ h => h) (fun _ h => h) (fun _ _ h => h)
    (fun _ h => h)
  · rintro c ⟨name, n, -, hf⟩
    cases hf
  · intro c hc
    cases c with
    | client k n => exact hc
    | server n => cases hc

theorem confines_removeConn {name : String} (H : Homed cfg s)
    (hown : own → ∀ n ∈ (s.connections.find name).join, th = 0 ∧ (s.conn (.server n)).loop = th)
    (hx : removeConn cfg s th name = some s') : Confines cfg own th s s' := by
  rcases removeConn_cases hx with ⟨-, rfl⟩ | ⟨-, rfl⟩ | ⟨n, s₁, hf, h₁, rfl⟩
  · exact confines_lookup s name
  · exact .refl th s'
  · have hl (h : own) : th = 0 ∧ (s.conn (.server n)).loop = th := hown h n (by rw [hf]; rfl)
    have hm : Made s (.server n) := H.known _ (.inl ((owned_assert _).1 h₁.owned))
    refine ((confines_assert fun h => (hl h).1.symm).trans (h₁.confines hm fun h => (hl h).2)).trans
      (confines_callBack (fun _ h => by cases h) ?_)
    intro c hc
    cases hc
    exact (h₁.acts.made _).2 hm

theorem confines_held (hm : Made s c) : Confines cfg own th s { s with held := c :: s.held } := by
  refine confines_same rfl rfl (fun _ => rfl) rfl ?_ (fun _ h => .inl h) (fun _ h => h) (fun _ _ h => .inl h)
    (fun _ h => .inl h)
  rintro d (ho | ho | ho)
  · exact .inl (.inl (by cases d <;> exact ho))
  · rcases List.mem_cons.1 ho with rfl | ho
    · exact .inr hm
    · exact .inl (.inr (.inl ho))
  · exact .inl (.inr (.inr ho))

/-! ## The clients -/

theorem not_made_client (s : St) (k : ClientId) : ¬ Made s (.client k (s.client k).nextConnId) :=
  fun h => Nat.lt_irrefl _ h.2

theorem confines_clientNumbered (H : Homed cfg s) (k : ClientId) : Confines cfg own (cfg.clientLoop k) s
    { s with
      client := Function.update s.client k
        { s.client k with
          state := true
          nextConnId := (s.client k).nextConnId + 1
          connection := some (s.client k).nextConnId }
      conn := Function.update s.conn (.client k (s.client k).nextConnId) { loop := cfg.clientLoop k }
      asserted := s.asserted ++ [(cfg.clientLoop k, cfg.clientLoop k)] } := by
  have hne : ∀ c, Made s c → c ≠ .client k (s.client k).nextConnId := fun c hc e => not_made_client s k (e ▸ hc)
  have hnew {n : Nat} (hn : n = (s.client k).nextConnId) : 0 < n ∧ n < (s.client k).nextConnId + 1 := by
    have := H.counted.2 k
    omega
  refine ⟨⟨Nat.le_refl _, ?_⟩, fun c hc => by simp [hne c hc], ?_, fun _ h => .inl h,
    fun _ _ h => .inl h, fun _ h => .inl h, ?_, ?_, ?_⟩
  · intro k'
    by_cases hk : k' = k
    · rw [hk]
      simp
    · simp [hk]
  · intro c hc
    by_cases hd : c = .client k (s.client k).nextConnId
    · exact .inr (by rw [hd]; simpa [Made] using hnew rfl)
    · left
      rcases hc with ho | ho | ho | ho | ho
      · refine .inl (ho.imp_left fun ho => ?_)
        cases c with
        | server n => exact ho
        | client k' n =>
          by_cases hk : k' = k
          · subst hk
            simp only [Listed, Function.update_self, Option.some.injEq] at ho
            exact absurd (by rw [ho]) hd
          · simpa [Listed, hk] using ho
      · exact .inr (.inl ho)
      · exact .inr (.inr (.inl ho))
      · exact .inr (.inr (.inr (.inl (by simpa [hd] using ho))))
      · exact .inr (.inr (.inr (.inr ho)))
  · intro k' n hm
    by_cases hd : ConnId.client k' n = .client k (s.client k).nextConnId
    · cases hd
      exact .inr (by simp)
    · left
      by_cases hk : k' = k
      · subst hk
        simp only [Made, Function.update_self] at hm
        exact ⟨hm.1, Nat.lt_of_le_of_ne (Nat.le_of_lt_succ hm.2) fun e => hd (by rw [e])⟩
      · simpa [Made, hk] using hm
  · intro _ p hp
    refine (List.mem_append.1 hp).imp_right fun hp => ?_
    rw [List.mem_singleton.1 hp]
  · intro _ c hc
    by_cases hd : c = .client k (s.client k).nextConnId
    · rw [hd] at hc
      simp [Changed, H.fresh (not_made_client s k)] at hc
    · simp [Changed, hd] at hc

theorem confines_clientNewConnection (H : Homed cfg s) (hth : th = cfg.clientLoop k)
    (hx : clientNewConnection cfg s th k = some s') : Confines cfg own th s s' := by
  subst hth
  obtain ⟨s₁, s₂, h₁, h₂, rfl⟩ := clientNewConnection_cases hx
  have g : Confines cfg own (cfg.clientLoop k) s s₁ := by
    rw [h₁]
    exact confines_clientNumbered H k
  have hm : Made s₁ (.client k (s.client k).nextConnId) := by
    rw [h₁]
    simpa [Made] using H.counted.2 k
  have hl : (s₁.conn (.client k (s.client k).nextConnId)).loop = cfg.clientLoop k := by
    rw [h₁]
    simp
  refine (g.trans (h₂.confines hm fun _ => hl)).trans (confines_callBack (fun _ h => by cases h) ?_)
  intro c hc
  cases hc
  exact (h₂.made _).2 hm

theorem confines_runConnector {a : Connector.Act} {th' : Thread}
    (ha : ∀ c err out e self, a ≠ .handleEvent c err out e self) (hx : runConnector cfg s th' k a = some s') :
    Confines cfg own th s s' := by
  obtain ⟨connector, -, rfl⟩ := runConnector_cases ha hx
  exact confines_setClient rfl fun _ h => h

/-- `connection_` of a client is in the client's loop. -/
theorem Homed.connection (H : Homed cfg s) (h : (s.client k).connection = some n) :
    Made s (.client k n) ∧ (s.conn (.client k n)).loop = cfg.clientLoop k :=
  have hm := H.known (.client k n) (.inl (.inl h))
  ⟨hm, H.clients k n hm⟩

theorem confines_clientRemoveClosed (H : Homed cfg s) (hth : th = cfg.clientLoop k)
    (hx : clientRemoveClosed cfg s th k n = some s') : Confines cfg own th s s' := by
  obtain ⟨-, -, d, s₁, hd, h₁, rfl⟩ := clientRemoveClosed_cases hx
  obtain ⟨hm, hl⟩ := H.connection hd
  exact ((confines_assert fun _ => hth.symm).trans (h₁.confines hm fun _ => hl.trans hth.symm)).trans
    (confines_callBack (fun _ h => by cases h) fun _ h => by cases h)

theorem confines_clientRemoveConnection (H : Homed cfg s) (hth : th = cfg.clientLoop k)
    (hx : clientRemoveConnection cfg s th k n = some s') : Confines cfg own th s s' := by
  rcases clientRemoveConnection_cases hx with ⟨-, rfl⟩ | ⟨-, hx⟩
  · exact confines_callBack (fun t ht => by cases ht; exact hth) fun _ h => by cases h
  · exact confines_clientRemoveClosed H hth hx

theorem confines_clientReset {e : Errno} (hx : clientReset cfg s th k n e = some s') : Confines cfg own th s s' := by
  obtain ⟨-, connector, rfl, -⟩ := clientReset_cases hx
  exact confines_setClient rfl fun _ h => by cases h

theorem confines_destroyMembers (hx : destroyMembers s k = some s') : Confines cfg own th s s' := by
  obtain ⟨connector, -, rfl⟩ := destroyMembers_cases hx
  exact confines_setClient rfl fun _ h => by cases h

theorem confines_deleteClient (H : Homed cfg s)
    (hown : own → ∀ n ∈ (s.client k).connection, (s.client k).state = true → (s.conn (.client k n)).loop = th)
    (hx : deleteClient cfg s th k = some s') : Confines cfg own th s s' := by
  rcases deleteClient_cases hx with ⟨hs, d, s₁, hd, h₁, rfl⟩ | ⟨-, hx⟩
  · exact (h₁.confines (H.connection hd).1 fun h => hown h d hd hs).trans
      (confines_callBack (fun _ h => by cases h) fun _ h => by cases h)
  · exact confines_destroyMembers hx

/-! ## Functors and events -/

theorem confines_doPendingFunctors (s : St) (l : Loop) : Confines cfg own th s (doPendingFunctors s l) := by
  have hq : (doPendingFunctors s l).pending ++ (doPendingFunctors s l).todo ⊆ s.pending ++ s.todo := by
    intro p hp
    simp only [doPendingFunctors, List.mem_append] at hp ⊢
    rcases hp with hp | hp | hp
    · exact .inl (Lanes.mem_others.1 hp).1
    · exact .inr hp
    · exact .inl (Lanes.mem_lane.1 hp).1
  refine confines_queues rfl rfl rfl rfl rfl (fun _ h => h) hq ?_ (fun _ _ h => h) (fun _ h => h)
  intro p hp
  rcases List.mem_append.1 hp with hp | hp
  · exact List.mem_append_left _ (hq hp)
  · exact List.mem_append_right _ hp

theorem confines_endFunctors (s : St) (l : Loop) : Confines cfg own th s (endFunctors s l) := by
  refine confines_queues rfl rfl rfl rfl rfl (fun _ h => h) (fun _ h => h) ?_ (fun _ _ h => h)
    (fun _ h => h)
  intro p hp
  rcases List.mem_append.1 hp with hp | hp
  · exact List.mem_append_left _ hp
  · exact List.mem_append_right _ (Lanes.mem_others.1 hp).1

theorem confines_next {f : Functor} (hf : nextFunctor s l = some f) :
    Confines cfg own th s { s with todo := Lanes.pop s.todo l, done := s.done ++ [(l, f)] } := by
  have hq : s.pending ++ Lanes.pop s.todo l ⊆ s.pending ++ s.todo := by
    intro p hp
    rcases List.mem_append.1 hp with hp | hp
    · exact List.mem_append_left _ hp
    · exact List.mem_append_right _ (Lanes.mem_of_mem_pop hp)
  refine confines_queues rfl rfl rfl rfl rfl (fun _ h => h) hq ?_ (fun _ _ h => h) (fun _ h => h)
  intro p hp
  rcases List.mem_append.1 hp with hp | hp
  · exact List.mem_append_left _ (hq hp)
  · rcases List.mem_append.1 hp with hp | hp
    · exact List.mem_append_right _ hp
    · rw [List.mem_singleton.1 hp]
      exact List.mem_append_left _ (List.mem_append_right _ (Lanes.mem_of_front hf))

theorem confines_runFunctor {w : WriteResult} (H : Homed cfg s)
    (hown : own → ∀ n ∈ (nextFunctor s l).bind Functor.removes, cfg.hasClose = false →
      (s.conn (.server n)).loop = l) (hx : runFunctor cfg s l w = some s') : Confines cfg own l s s' := by
  obtain ⟨f, s₁, hf, h₁, -, h⟩ := runFunctor_cases hx
  have g : Confines cfg own l s s₁ := by
    rw [h₁]
    exact confines_next hf
  have hmem : (l, f) ∈ s.pending ++ s.todo := List.mem_append_right _ (Lanes.mem_of_front hf)
  have hm : Made s₁ f.conn := g.made _ (H.known _ (.inr (.inl ⟨(l, f), hmem, rfl⟩)))
  have hl : l = f.home s₁ := by
    have := H.functors _ hmem
    rwa [h₁]
  refine g.trans ?_
  cases f with
  | connectEstablished n =>
    obtain ⟨s₂, h₂, rfl⟩ := h
    exact (h₂.confines hm fun _ => hl.symm).trans (confines_callBack (fun _ h => by cases h) fun _ h => by cases h)
  | removeConnectionInLoop n =>
    refine confines_removeConnectionInLoop (H.confines g) hl ?_ h
    rw [h₁]
    exact fun h => hown h n (by rw [hf]; rfl)
  | sendInLoop | shutdownInLoop | shutdownAllInLoop | writeCompleteCallback => exact h.confines hm fun _ => hl.symm

theorem confines_handleClose (H : Homed cfg s) (hm : Made s c) (hl : (s.conn c).loop = th)
    (hx : handleClose cfg s th c = some s') : Confines cfg own th s s' := by
  obtain ⟨s₁, h₁, hx⟩ := handleClose_cases hx
  have g : Confines cfg own th s s₁ := h₁.confines hm fun _ => hl
  refine g.trans ?_
  have hm₁ := g.made c hm
  have hl₁ : (s₁.conn c).loop = th := (h₁.loop c).trans hl
  cases c with
  | server n =>
    rcases hx with ⟨h0, hx⟩ | ⟨-, rfl⟩
    · exact confines_removeConnectionInLoop (H.confines g) h0 (fun _ _ => hl₁) hx
    · refine confines_pending ?_
      intro p hp
      rw [List.mem_singleton.1 hp]
      exact ⟨hm₁, rfl⟩
  | client k n => exact confines_clientRemoveConnection (H.confines g) (hl.symm.trans (H.clients k n hm)) hx

theorem confines_handleEvent {write : Option WriteResult} {read : Input} (H : Homed cfg s) (hm : Made s c)
    (hl : (s.conn c).loop = l) (hx : handleEvent cfg s l c write read = some s') : Confines cfg own l s s' := by
  obtain ⟨-, s₁, h₁, ⟨-, hx⟩ | ⟨-, rfl⟩⟩ := handleEvent_cases hx
  · have g : Confines cfg own l s s₁ := h₁.confines hm fun _ => hl
    exact g.trans (confines_handleClose (H.confines g) (g.made c hm) ((h₁.loop c).trans hl) hx)
  · exact h₁.confines hm fun _ => hl

/-! ## Steps -/

theorem mem_active_of_nextConn (h : nextConn s l = some c) : Chan.conn c ∈ s.active l := by
  unfold nextConn nextChannel at h
  split at h
  · rename_i hd
    cases h
    exact List.mem_of_mem_head? hd
  · cases h

theorem mem_active_of_nextConnector {d : Connector.Sock} (h : nextConnector s l = some (k, d)) :
    Chan.connector k d ∈ s.active l := by
  unfold nextConnector nextChannel at h
  split at h
  · rename_i hd
    cases h
    exact List.mem_of_mem_head? hd
  · cases h

theorem confines_ret {e : Errno} (H : Homed cfg s)
    (hown : own → ∀ c ∈ (Lanes.front s.stack th).bind Frame.destroys, (s.conn c).loop = th)
    (hx : ret cfg s th e = some s') : Confines cfg own th s s' := by
  obtain ⟨fr, hf, hx⟩ := Option.bind_eq_some_iff.1 hx
  rw [hf] at hown
  have hmem : (th, fr) ∈ s.stack := Lanes.mem_of_front hf
  have g : Confines cfg own th s (returned s th) := confines_returned s th
  -- the rest of `connectDestroyed`, and what its caller does then
  have hd {c : ConnId} {s₁ : St} (hc : fr.destroys = some c) (h₁ : destroyed cfg s th c = some s₁) :
      Confines cfg own th s (returned s₁ th) :=
    (confines_destroyed (H.known c (.inl (destroyed_eq h₁).1)) (fun h => hown h c hc) h₁).trans
      (confines_returned s₁ th)
  cases fr with
  | established n =>
    cases hx
    exact g
  | newConnection n =>
    cases hx
    exact g
  | closing n =>
    exact g.trans (confines_removeClosed (H.confines g) (H.frames _ hmem 0 rfl) (fun h => hown h _ rfl) hx)
  | removed n =>
    obtain ⟨s₁, h₁, hx⟩ := Option.bind_eq_some_iff.1 hx
    rw [eraseConn_eq hx]
    exact (hd rfl h₁).trans (confines_erase _ _)
  | removeConn name n =>
    obtain ⟨s₁, h₁, hx⟩ := Option.bind_eq_some_iff.1 hx
    rw [eraseConn_eq hx]
    exact (hd rfl h₁).trans (confines_erase _ _)
  | clientNewConnection k n => exact g.trans (confines_runConnector (fun _ _ _ _ _ h => by cases h) hx)
  | clientClosing k n => exact g.trans (confines_clientRemoveClosed (H.confines g) (H.frames _ hmem _ rfl) hx)
  | clientRemoved k n c =>
    obtain ⟨s₁, h₁, hx⟩ := Option.bind_eq_some_iff.1 hx
    exact (hd rfl h₁).trans (confines_clientReset hx)
  | clientDestroyed k c =>
    obtain ⟨s₁, h₁, hx⟩ := Option.bind_eq_some_iff.1 hx
    exact (hd rfl h₁).trans (confines_destroyMembers hx)

theorem confines_calls (s : St) (calls : Thread → Option (ConnId × Call)) : Confines cfg own th s { s with calls } :=
  confines_queues rfl rfl rfl rfl rfl (fun _ h => h) (fun _ h => h) (fun _ h => h)
    (fun _ _ h => h) fun _ h => h

theorem confines_call (hm : Made s c) (th : Thread) (f : Call) (w : WriteResult) :
    Confines cfg own th s (call s th c f w) := by
  rcases acts_call s th c f w with ⟨hth, h⟩ | e | ⟨-, e⟩
  · exact h.confines hm fun _ => hth.symm
  · rw [e]
    exact .refl th s
  · rw [e]
    exact (confines_setConn { s.conn c with state := f.leaves } hm rfl rfl rfl).trans (confines_calls _ _)

/-- A channel that is polled is in its loop. -/
theorem Homed.watched {ch : Chan} (H : Homed cfg s) (h : Watched cfg s l ch) :
    (∀ c, ch = .conn c → Made s c) ∧ ∀ l' ∈ ch.home cfg s, l' = l := by
  cases ch with
  | conn c =>
    obtain ⟨hr, -, hl⟩ := h
    refine ⟨?_, fun l' e => by cases e; exact hl⟩
    rintro c' ⟨⟩
    refine H.known c (.inr (.inr (.inr (.inl fun e => ?_))))
    rw [e] at hr
    cases hr
  | connector k d =>
    refine ⟨?_, fun l' e => ?_⟩
    · rintro c' ⟨⟩
    · cases e
      exact h.2
  | acceptor | wakeup | timer =>
    refine ⟨?_, ?_⟩
    · rintro c' ⟨⟩
    · rintro l' ⟨⟩

theorem step_confines {a : Act} (H : Homed cfg s) (ha : enabled cfg s a) (hown : own → Own cfg s a)
    (hx : exec cfg s a = some s') (hth : ∀ t ∈ a.thread cfg, t = th) : Confines cfg own th s s' := by
  cases a with
  | poll l active =>
    cases hx
    refine confines_same rfl rfl (fun _ => rfl) rfl ?_ (fun _ h => .inl h) (fun _ h => h) ?_ (fun _ h => .inl h)
    · intro c ho
      refine .inl ?_
      unfold Owned at ho ⊢
      cases c <;> exact ho
    · intro l' ch hch
      by_cases hl : l' = l
      · rw [hl] at hch ⊢
        simp only [Function.update_self] at hch
        exact .inr (H.watched (ha.2.2.2 ch hch))
      · exact .inl (by simpa [hl] using hch)
  | acceptor accepted =>
    obtain rfl := hth 0 rfl
    have g : Confines cfg own 0 s (handled s 0) := confines_handled s 0
    obtain ⟨-, -, hx⟩ := Option.bind_eq_some_iff.1 hx
    split at hx
    · exact g.trans (confines_newConnection (H.confines g) hx)
    · cases hx
      exact g
  | wakeup l =>
    cases hx
    exact (confines_handled s l).trans (confines_doPendingFunctors _ l)
  | timer l => cases hx; exact confines_handled s l
  | handleEvent l write read =>
    obtain rfl := hth l rfl
    obtain ⟨c, hc, hx⟩ := Option.bind_eq_some_iff.1 hx
    have hmem := mem_active_of_nextConn hc
    have g : Confines cfg own l s (handled s l) := confines_handled s l
    exact g.trans (confines_handleEvent (H.confines g) (H.known c (.inr (.inr (.inl ⟨l, hmem⟩))))
      (H.active l _ hmem _ rfl) hx)
  | connectorEvent l err out soError selfConnect =>
    obtain ⟨⟨k, d⟩, hn, hx⟩ := Option.bind_eq_some_iff.1 hx
    obtain ⟨-, p, hp, hpoll⟩ := ha
    cases hn.symm.trans hp
    obtain rfl := hth l rfl
    have g : Confines cfg own l s (handled s l) := confines_handled s l
    refine g.trans ?_
    obtain ⟨connector, -, ⟨-, rfl⟩ | ⟨-, hx⟩⟩ := connectorEvent_cases (s := handled s l) hpoll.1 hx
    · exact confines_setClient rfl fun _ h => h
    · have g₁ : Confines cfg own l (handled s l) (setClient (handled s l) k { (handled s l).client k with connector }) :=
        confines_setClient rfl fun _ h => h
      have hl : cfg.clientLoop k = l := H.active l _ (mem_active_of_nextConnector hn) _ rfl
      exact g₁.trans (confines_clientNewConnection ((H.confines g).confines g₁) hl.symm hx)
  | runFunctor l w =>
    obtain rfl := hth l rfl
    exact confines_runFunctor H hown hx
  | endFunctors l => cases hx; exact confines_endFunctors s l
  | ret t e =>
    obtain rfl := hth t rfl
    exact confines_ret H hown hx
  | connector k a =>
    exact confines_runConnector (not_event_of_ofLoop ha.2.1) hx
  | call t c f w =>
    cases hx
    obtain rfl := hth t rfl
    exact confines_call (H.known c (.inl ha.2)) t f w
  | pushBack t =>
    obtain ⟨⟨c, f⟩, hc, hx⟩ := Option.bind_eq_some_iff.1 hx
    obtain ⟨p, hp, ho⟩ := ha
    cases hc.symm.trans hp
    cases hx
    refine (confines_pending (q := [((s.conn c).loop, f.functor c)]) ?_).trans (confines_calls _ _)
    intro p hp
    rw [List.mem_singleton.1 hp]
    have hm := H.known c (.inl ho)
    cases f <;> exact ⟨hm, rfl⟩
  | setInterest t c i =>
    cases hx
    obtain rfl := hth t rfl
    exact (acts_setInterest s t c i).confines (H.known c (.inl ha.2)) hown
  | setWriteCompleteCallback c on => cases hx; exact confines_setConn _ (H.known c (.inl ha)) rfl rfl rfl
  | removeConn t name =>
    obtain rfl := hth t rfl
    exact confines_removeConn H hown hx
  | getConn name =>
    cases hx
    rcases getConn_cases s name with ⟨-, e⟩ | ⟨-, e⟩ | ⟨n, hf, e⟩
    · rw [e]
      exact confines_lookup s name
    · rw [e]
      exact .refl th s
    · rw [e]
      exact confines_held (H.known _ (.inr (.inr (.inr (.inr ⟨name, n, rfl, hf⟩)))))
  | deleteServer t =>
    cases hx
    exact confines_deleteServer s
  | getClientConn k =>
    cases hx
    unfold getClientConn
    split
    · rename_i n hn
      exact confines_held (H.connection hn).1
    · exact .refl th s
  | drop c =>
    cases hx
    exact confines_queues rfl rfl rfl rfl rfl List.erase_subset (fun _ h => h)
      (fun _ h => h) (fun _ _ h => h) fun _ h => h
  | newClient =>
    cases hx
    have g : Confines cfg own th s (setClient s s.clients { s.client s.clients with alive := true }) :=
      confines_setClient rfl fun _ h => h
    exact g.trans (confines_queues rfl rfl rfl rfl rfl (fun _ h => h)
      (fun _ h => h) (fun _ h => h) (fun _ _ h => h) fun _ h => h)
  | connect k a =>
    obtain ⟨connect, hc, hx⟩ := Option.bind_eq_some_iff.1 hx
    have g : Confines cfg own th s (setClient s k { s.client k with connect }) := confines_setClient rfl fun _ h => h
    exact g.trans (confines_runConnector (not_event_of_connects hc) hx)
  | disconnect t k w =>
    cases hx
    obtain rfl := hth t rfl
    have g : Confines cfg own t s (setClient s k { s.client k with connect := false }) :=
      confines_setClient rfl fun _ h => h
    unfold disconnect
    dsimp only
    split
    · rename_i n hn
      exact g.trans (confines_call ((H.confines g).connection hn).1 t .shutdown w)
    · exact g
  | enableRetry k => cases hx; exact confines_setClient rfl fun _ h => h
  | setCloseCallback k on => cases hx; exact confines_setClient rfl fun _ h => h
  | deleteClient t k =>
    obtain rfl := hth t rfl
    exact confines_deleteClient H hown hx

/-! ## Runs -/

theorem homed_init : Homed cfg {} where
  counted := ⟨Nat.zero_lt_one, fun _ => Nat.zero_lt_one⟩
  known := by
    rintro c (h | ⟨p, hp, -⟩ | ⟨l, hl⟩ | h | ⟨name, n, -, h⟩)
    · rcases h with h | h | ⟨p, hp, -⟩ | ⟨p, hp, -⟩
      · cases c <;> cases h
      · cases h
      · cases hp
      · cases hp
    · cases hp
    · cases hl
    · exact absurd rfl h
    · cases h
  functors _ h := by cases h
  active _ _ h := by cases h
  frames _ h := by cases h
  clients _ _ h := absurd h.2 (Nat.not_lt.2 h.1)

theorem Act.thread_getD (cfg : Config) (a : Act) : ∀ t ∈ a.thread cfg, t = (a.thread cfg).getD 0 := by
  intro t ht
  rw [ht]
  rfl

theorem step_homed {a : Act} (H : Homed cfg s) (ha : enabled cfg s a) (hx : exec cfg s a = some s') :
    Homed cfg s' := by
  exact H.confines (step_confines H ha False.elim hx (a.thread_getD cfg))

theorem homed_run {tr : List (St × Act)} (hr : Run (machine cfg) tr s) : Homed cfg s :=
  hr.inv (Homed cfg) homed_init fun _ _ _ H ha hx => step_homed H ha hx

end Cppnetool.TcpThreads
