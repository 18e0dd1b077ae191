import Cppnetool.Lib.Tickets
import Cppnetool.TcpServer
/-!
# The life of a connection

`Stage` is where a connection stands between its creation and its removal, and
says which functor or callback is still owed to it. `Lifecycle` ties the
stages to the server's state; each function of the server moves one connection
from one stage to another.
-/
open Lib

namespace Cppnetool.TcpServer

open TcpConnection (StateE)

inductive Stage
  | fresh
  /-- `connectEstablished` is about to be called, or queued. -/
  | starting
  | queued
  | live
  /-- `removeConnectionInLoop` is about to be called, or queued. -/
  | ending
  | closeQueued
  /-- In the user's close callback. -/
  | closing
  /-- In the connection callback of `connectDestroyed`, in this loop. -/
  | destroying (l : Loop)
  | gone
deriving DecidableEq

namespace Stage

def Open (c : Conn) : Prop :=
  (c.state = .kConnected ∨ c.state = .kDisconnecting) ∧ c.established = 1 ∧ c.destroyed = 0

/-- What a connection's object looks like in a stage. -/
def fits : Stage → Conn → Prop
  | fresh, c | starting, c | queued, c =>
    c.state = .kConnecting ∧ c.watched = false ∧ c.established = 0 ∧ c.destroyed = 0
  | live, c => Open c
  | ending, c | closeQueued, c | closing, c => Open c ∧ c.watched = false
  | destroying _, c | gone, c =>
    c.state = .kDisconnected ∧ c.watched = false ∧ c.established = 1 ∧ c.destroyed = 1

/-- The functor owed to connection `c` of loop `l`. -/
def pendingAt (l : Loop) (c : ConnId) : Stage → Option (Loop × Functor)
  | queued => some (l, .connectEstablished c)
  | closeQueued => some (0, .removeConnectionInLoop c)
  | _ => none

/-- The callback from which something is owed to connection `c`. -/
def stackAt (c : ConnId) : Stage → Option (Loop × Frame)
  | closing => some (0, .closing c)
  | destroying l => some (l, .destroyed c)
  | _ => none

/-- The stages in which the channel may still be on a list of active channels. -/
def dispatched : Stage → Prop
  | live | destroying _ | gone => True
  | _ => False

/-- The stages in which `connections_` has the connection. -/
def listed : Stage → Prop
  | fresh | gone => False
  | _ => True

theorem fits_unwatched {x : Stage} {c : Conn} (h : x.fits c) : x.fits { c with watched := false } := by
  cases x with
  | live => exact h
  | ending | closeQueued | closing => exact ⟨h.1, rfl⟩
  | _ => exact ⟨h.1, rfl, h.2.2⟩

/-- What `shutdown` does to the state. -/
theorem fits_shutdown {x : Stage} {c : Conn} (h : x.fits c) :
    x.fits { c with state := if c.state = .kConnected then .kDisconnecting else c.state } := by
  have hopen (h : Open c) : Open { c with state := if c.state = .kConnected then .kDisconnecting else c.state } := by
    refine ⟨?_, h.2⟩
    dsimp only
    split
    · exact .inr rfl
    · exact h.1
  cases x with
  | live => exact hopen h
  | ending | closeQueued | closing => exact ⟨hopen h.1, h.2⟩
  | _ => exact ⟨by simp [h.1], h.2⟩

end Stage

/-- Something is still to be done when this callback returns. -/
def Frame.owed : Frame → Bool
  | established _ => false
  | closing _ => true
  | destroyed _ => true

structure Lifecycle (cfg : Config) (s : St) (stage : ConnId → Stage) : Prop where
  fresh : ∀ c, s.nextConnId ≤ c → stage c = .fresh
  fits : ∀ c, (stage c).fits (s.conn c)
  pending : Tickets Functor.conn s.pending fun c => (stage c).pendingAt (s.conn c).loop c
  stack : Tickets Frame.conn (List.filter Frame.owed ∘ s.stack) fun c => (stage c).stackAt c
  active : ∀ l, (s.active l).Nodup ∧ ∀ c ∈ s.active l, (stage c).dispatched ∧ (s.conn c).loop = l
  keys : ∀ name c, s.connections.find name = some (some c) → name = connName cfg c
  entry : ∀ c, (stage c).listed → s.connections.find (connName cfg c) = some (some c)

variable {cfg : Config} {s s' : St} {stage : ConnId → Stage} {l : Loop} {c d : ConnId} {x : Stage} {k : Conn}

theorem lifecycle_init (cfg : Config) : Lifecycle cfg {} fun _ => .fresh where
  fresh _ _ := rfl
  fits _ := ⟨rfl, rfl, rfl, rfl⟩
  pending := ⟨fun _ _ => iff_of_false List.not_mem_nil fun h => (nomatch h), fun _ => .nil⟩
  stack := ⟨fun _ _ => iff_of_false List.not_mem_nil fun h => (nomatch h), fun _ => .nil⟩
  active _ := ⟨.nil, fun _ h => absurd h List.not_mem_nil⟩
  keys _ _ h := nomatch h
  entry _ h := h.elim

section Change
variable (L : Lifecycle cfg s stage)
include L

/-- One connection moves to another stage, with what is owed to it. -/
theorem Lifecycle.change (pending : Loop → List Functor) (stack : Loop → List Frame)
    (hx : stage c = .fresh → x = .fresh) (hloop : k.loop = (s.conn c).loop) (hfits : x.fits k)
    (hp : Tickets Functor.conn pending
      (Function.update (fun c => (stage c).pendingAt (s.conn c).loop c) c (x.pendingAt (s.conn c).loop c)))
    (hs : Tickets Frame.conn (List.filter Frame.owed ∘ stack)
      (Function.update (fun c => (stage c).stackAt c) c (x.stackAt c)))
    (hact : x.dispatched ∨ ∀ l, c ∉ s.active l) (hl : x.listed → (stage c).listed) :
    Lifecycle cfg { s with conn := Function.update s.conn c k, pending := pending, stack := stack }
      (Function.update stage c x) where
  fresh d hd := by
    by_cases hdc : d = c
    · subst hdc; rw [Function.update_self]; exact hx (L.fresh d hd)
    · rw [Function.update_of_ne hdc]; exact L.fresh d hd
  fits d := by
    by_cases hdc : d = c
    · subst hdc; simpa using hfits
    · simpa [hdc] using L.fits d
  pending := hp.congr fun d => by
    by_cases hdc : d = c
    · subst hdc; simp [hloop]
    · simp [hdc]
  stack := hs.congr fun d => by
    by_cases hdc : d = c
    · subst hdc; simp
    · simp [hdc]
  active l := by
    refine ⟨(L.active l).1, ?_⟩
    intro d hd
    by_cases hdc : d = c
    · subst hdc
      simp only [Function.update_self, hloop]
      exact ⟨hact.resolve_right fun h => h l hd, ((L.active l).2 d hd).2⟩
    · simp only [Function.update_of_ne hdc]
      exact (L.active l).2 d hd
  keys := L.keys
  entry d hd := by
    by_cases hdc : d = c
    · subst hdc
      rw [Function.update_self] at hd
      exact L.entry d (hl hd)
    · rw [Function.update_of_ne hdc] at hd
      exact L.entry d hd

/-- Nothing is owed to the connection, before or after. -/
theorem Lifecycle.record (hx : stage c = .fresh → x = .fresh) (hloop : k.loop = (s.conn c).loop) (hfits : x.fits k)
    (hp : x.pendingAt (s.conn c).loop c = (stage c).pendingAt (s.conn c).loop c)
    (hs : x.stackAt c = (stage c).stackAt c) (hact : x.dispatched ∨ ∀ l, c ∉ s.active l)
    (hl : x.listed → (stage c).listed) :
    Lifecycle cfg { s with conn := Function.update s.conn c k } (Function.update stage c x) :=
  L.change _ _ hx hloop hfits (L.pending.stay hp) (L.stack.stay hs) hact hl

theorem Lifecycle.touch (hloop : k.loop = (s.conn c).loop) (hfits : (stage c).fits k) :
    Lifecycle cfg { s with conn := Function.update s.conn c k } stage := by
  have hact : (stage c).dispatched ∨ ∀ l, c ∉ s.active l := by
    by_cases h : (stage c).dispatched
    · exact .inl h
    · exact .inr fun l hm => h ((L.active l).2 c hm).1
  have h := L.record (x := stage c) id hloop hfits rfl rfl hact id
  rwa [Function.update_eq_self] at h

/-- A callback that nothing is owed after. -/
theorem Lifecycle.callBack_established : Lifecycle cfg (callBack s l (.established c)) stage :=
  { L with
    stack := by
      change Tickets Frame.conn (List.filter Frame.owed ∘ Function.update s.stack l (.established c :: s.stack l)) _
      rw [Function.comp_update, show List.filter Frame.owed (.established c :: s.stack l) =
        (List.filter Frame.owed ∘ s.stack) l from rfl, Function.update_eq_self]
      exact L.stack }

/-! ## The functions -/

theorem connectEstablished_spec (hst : stage c = .starting) (l : Loop) : ∃ s', connectEstablished s l c = some s' ∧
    Lifecycle cfg s' (Function.update stage c .live) := by
  have hf : Stage.starting.fits (s.conn c) := hst ▸ L.fits c
  obtain ⟨hstate, -, he, hd⟩ := hf
  unfold connectEstablished
  rw [assert_bind hstate]
  refine ⟨_, rfl, Lifecycle.callBack_established ?_⟩
  refine L.record (x := .live) ?_ rfl ⟨.inl rfl, ?_, hd⟩ ?_ ?_ (.inl trivial) ?_
  · rw [hst]; decide
  · dsimp only; rw [he]
  · rw [hst]; rfl
  · rw [hst]; rfl
  · intro _
    rw [hst]; trivial

theorem connectDestroyed_spec (hst : stage c = .live ∨ stage c = .ending) (l : Loop) :
    ∃ s', connectDestroyed s l c = some s' ∧ Lifecycle cfg s' (Function.update stage c (.destroying l)) := by
  have hopen : Stage.Open (s.conn c) := by
    have hf := L.fits c
    rcases hst with hst | hst <;> rw [hst] at hf
    · exact hf
    · exact hf.1
  obtain ⟨hstate, he, hd⟩ := hopen
  unfold connectDestroyed
  rw [assert_bind hstate]
  -- the callback owes the erase of the entry, so its frame is the connection's place
  refine ⟨_, rfl, L.change (x := .destroying l) _ (Function.update s.stack l (.destroyed c :: s.stack l)) ?_ rfl
    ⟨rfl, rfl, he, ?_⟩ (L.pending.stay ?_) ?_ (.inl trivial) ?_⟩
  · rcases hst with hst | hst <;> rw [hst] <;> simp
  · dsimp only; rw [hd]
  · rcases hst with hst | hst <;> rw [hst] <;> rfl
  · rw [Function.comp_update]
    refine L.stack.push (i := .destroyed c) ?_ (.refl _)
    change (stage c).stackAt c = none
    rcases hst with hst | hst <;> rw [hst] <;> rfl
  · intro _
    rcases hst with hst | hst <;> rw [hst] <;> trivial

theorem closing_spec (hst : stage c = .ending) (hact : ∀ l, c ∉ s.active l) :
    Lifecycle cfg (callBack s 0 (.closing c)) (Function.update stage c .closing) := by
  have hf : Stage.ending.fits (s.conn c) := hst ▸ L.fits c
  have h := L.change (k := s.conn c) (x := .closing) s.pending
    (Function.update s.stack 0 (.closing c :: s.stack 0)) (by rw [hst]; decide) rfl hf
    (L.pending.stay (by rw [hst]; rfl))
    (by
      rw [Function.comp_update]
      exact L.stack.push (i := .closing c) (by change (stage c).stackAt c = none; rw [hst]; rfl) (.refl _))
    (.inr hact) (fun _ => by rw [hst]; trivial)
  rwa [Function.update_eq_self] at h

theorem removeConnectionInLoop_spec (hst : stage c = .ending) (hact : ∀ l, c ∉ s.active l) :
    ∃ s' stage', removeConnectionInLoop cfg s 0 c = some s' ∧ Lifecycle cfg s' stage' := by
  unfold removeConnectionInLoop
  split
  · exact ⟨_, _, rfl, closing_spec L hst hact⟩
  · obtain ⟨s', hx, L'⟩ := connectDestroyed_spec L (.inr hst) 0
    exact ⟨s', _, hx, L'⟩

theorem queueInLoop_spec {f : Functor} (hx : stage c = .fresh → x = .fresh) (hfits : x.fits (s.conn c))
    (hf : f.conn = c)
    (hn : (stage c).pendingAt (s.conn c).loop c = none) (hp : x.pendingAt (s.conn c).loop c = some (l, f))
    (hs : x.stackAt c = (stage c).stackAt c) (hact : x.dispatched ∨ ∀ l, c ∉ s.active l)
    (hl : x.listed → (stage c).listed) :
    Lifecycle cfg (queueInLoop s l f) (Function.update stage c x) := by
  subst hf
  have h := L.change (k := s.conn f.conn) (Function.update s.pending l (s.pending l ++ [f])) s.stack hx rfl hfits
    (by rw [hp]; exact L.pending.push hn (List.perm_append_singleton f _)) (L.stack.stay hs) hact hl
  rwa [Function.update_eq_self] at h

/-- A functor leaves the queue, to be called. -/
theorem pop_spec {f : Functor} {rest : List Functor} (hq : s.pending l = f :: rest)
    (hx : stage f.conn = .fresh → x = .fresh)
    (hfits : x.fits (s.conn f.conn)) (hp : x.pendingAt (s.conn f.conn).loop f.conn = none)
    (hs : x.stackAt f.conn = (stage f.conn).stackAt f.conn) (hact : x.dispatched ∨ ∀ l, f.conn ∉ s.active l)
    (hl : x.listed → (stage f.conn).listed) :
    Lifecycle cfg { s with pending := Function.update s.pending l rest } (Function.update stage f.conn x) := by
  have h := L.change (k := s.conn f.conn) (Function.update s.pending l rest) s.stack hx rfl hfits
    (by rw [hp]; exact L.pending.pop hq) (L.stack.stay hs) hact hl
  rwa [Function.update_eq_self] at h

theorem not_active (hst : ¬ (stage c).dispatched) : ∀ l, c ∉ s.active l := fun l h => hst ((L.active l).2 c h).1

theorem runFunctor_spec (hn : s.pending l ≠ []) :
    ∃ s' stage', runFunctor cfg s l = some s' ∧ Lifecycle cfg s' stage' := by
  obtain ⟨f, rest, hq⟩ := List.exists_cons_of_ne_nil hn
  have hplace := L.pending.place_head hq
  simp only [runFunctor, hq]
  cases f with
  | connectEstablished c =>
    have hst : stage c = .queued := by
      unfold Functor.conn at hplace
      cases h : stage c <;> rw [h] at hplace <;> simp [Stage.pendingAt] at hplace ⊢
    have hf : Stage.queued.fits (s.conn c) := hst ▸ L.fits c
    have L' := pop_spec L (x := .starting) hq (by rw [Functor.conn, hst]; decide) hf rfl
      (by rw [Functor.conn, hst]; rfl) (.inr (not_active L (by rw [Functor.conn, hst]; exact id)))
      (fun _ => by rw [Functor.conn, hst]; trivial)
    obtain ⟨s', hx, L''⟩ := connectEstablished_spec L' (Function.update_self ..) l
    exact ⟨s', _, hx, L''⟩
  | removeConnectionInLoop c =>
    -- the functor is the place of its connection, and tells the stage
    have hst : stage c = .closeQueued ∧ l = 0 := by
      unfold Functor.conn at hplace
      cases h : stage c <;> rw [h] at hplace <;> simp [Stage.pendingAt] at hplace ⊢
      exact hplace.symm
    obtain ⟨hst, rfl⟩ := hst
    have hf : Stage.closeQueued.fits (s.conn c) := hst ▸ L.fits c
    have hact := not_active L (c := c) (by rw [hst]; exact id)
    have L' := pop_spec L (x := .ending) hq (by rw [Functor.conn, hst]; decide) hf rfl
      (by rw [Functor.conn, hst]; rfl) (.inr hact) (fun _ => by rw [Functor.conn, hst]; trivial)
    exact removeConnectionInLoop_spec L' (Function.update_self ..) hact

/-- A callback returns, and what it owed is to be done. -/
theorem popFrame_spec {fr : Frame} {rest : List Frame} (hq : s.stack l = fr :: rest) (ho : fr.owed)
    (hx : stage fr.conn = .fresh → x = .fresh) (hfits : x.fits (s.conn fr.conn))
    (hp : x.pendingAt (s.conn fr.conn).loop fr.conn = (stage fr.conn).pendingAt (s.conn fr.conn).loop fr.conn)
    (hs : x.stackAt fr.conn = none) (hact : x.dispatched ∨ ∀ l, fr.conn ∉ s.active l)
    (hl : x.listed → (stage fr.conn).listed) :
    Lifecycle cfg { s with stack := Function.update s.stack l rest } (Function.update stage fr.conn x) := by
  have hq' : (List.filter Frame.owed ∘ s.stack) l = fr :: rest.filter Frame.owed := by simp [hq, ho]
  have h := L.change (k := s.conn fr.conn) s.pending (Function.update s.stack l rest) hx rfl
    hfits (L.pending.stay hp) (by rw [hs, Function.comp_update]; exact L.stack.pop hq') hact hl
  rwa [Function.update_eq_self] at h

theorem eraseConn_spec (hst : stage c = .gone) (hf : s.connections.find (connName cfg c) ≠ none) :
    ∃ s', eraseConn s (connName cfg c) = some s' ∧ Lifecycle cfg s' stage := by
  unfold eraseConn
  rw [assert_bind hf]
  refine ⟨_, rfl, { L with keys := ?_, entry := ?_ }⟩
  · intro name d hd
    by_cases hn : name = connName cfg c
    · subst hn
      dsimp only at hd
      rw [Map.find_erase_self] at hd
      cases hd
    · dsimp only at hd
      rw [Map.find_erase_ne hn] at hd
      exact L.keys name d hd
  · intro d hd
    have hdc : d ≠ c := by rintro rfl; rw [hst] at hd; exact hd
    dsimp only
    rw [Map.find_erase_ne fun h => hdc (connName_injective cfg h)]
    exact L.entry d hd

theorem ret_spec (hn : s.stack l ≠ []) : ∃ s' stage', ret cfg s l = some s' ∧ Lifecycle cfg s' stage' := by
  obtain ⟨fr, rest, hq⟩ := List.exists_cons_of_ne_nil hn
  have hhead : fr.owed → (stage fr.conn).stackAt fr.conn = some (l, fr) := by
    intro ho
    have hq' : (List.filter Frame.owed ∘ s.stack) l = fr :: rest.filter Frame.owed := by simp [hq, ho]
    exact L.stack.place_head hq'
  simp only [ret, hq]
  cases fr with
  | established c =>
    refine ⟨_, stage, rfl, { L with stack := ?_ }⟩
    change Tickets Frame.conn (List.filter Frame.owed ∘ Function.update s.stack l rest) _
    rw [Function.comp_update, show List.filter Frame.owed rest = (List.filter Frame.owed ∘ s.stack) l by
      simp [hq, Frame.owed], Function.update_eq_self]
    exact L.stack
  | closing c =>
    have hplace := hhead rfl
    have hst : stage c = .closing := by
      unfold Frame.conn at hplace
      cases h : stage c <;> rw [h] at hplace <;> simp [Stage.stackAt] at hplace ⊢
    have hf : Stage.closing.fits (s.conn c) := hst ▸ L.fits c
    have L' := popFrame_spec L (x := .ending) hq rfl (by rw [Frame.conn, hst]; decide) hf
      (by rw [Frame.conn, hst]; rfl) rfl (.inr (not_active L (by rw [Frame.conn, hst]; exact id)))
      (fun _ => by rw [Frame.conn, hst]; trivial)
    obtain ⟨s', hx, L''⟩ := connectDestroyed_spec L' (.inr (Function.update_self ..)) l
    exact ⟨s', _, hx, L''⟩
  | destroyed c =>
    have hplace := hhead rfl
    have hst : stage c = .destroying l := by
      unfold Frame.conn at hplace
      cases h : stage c <;> rw [h] at hplace <;> simp [Stage.stackAt] at hplace ⊢
      exact hplace
    have hf : (Stage.destroying l).fits (s.conn c) := hst ▸ L.fits c
    have L' := popFrame_spec L (x := .gone) hq rfl (by rw [Frame.conn, hst]; simp) hf
      (by rw [Frame.conn, hst]; rfl) rfl (.inl trivial) (fun h => h.elim)
    have hentry := L.entry c (by rw [hst]; trivial)
    obtain ⟨s', hx, L''⟩ := eraseConn_spec L' (Function.update_self ..) (by
      change s.connections.find (connName cfg c) ≠ none
      rw [hentry]; exact Option.some_ne_none _)
    exact ⟨s', _, hx, L''⟩

/-- `connections_[name]` adds at most a null entry. -/
theorem getConn_spec (name : String) : Lifecycle cfg (getConn s name).2 stage := by
  unfold getConn
  cases h : s.connections.find name with
  | some c => exact L
  | none =>
    refine { L with keys := ?_, entry := ?_ }
    · intro name' d hd
      have hne : name' ≠ name := by
        rintro rfl
        dsimp only at hd
        rw [Map.find_insert_self] at hd
        cases hd
      dsimp only at hd
      rw [Map.find_insert_ne hne] at hd
      exact L.keys name' d hd
    · intro d hd
      have hd' := L.entry d hd
      dsimp only
      rw [Map.find_insert_ne, hd']
      rintro rfl
      rw [h] at hd'
      cases hd'

/-- A connection that has just been made is in its first stage. -/
theorem Lifecycle.accepted (ioLoop next : Loop) :
    Lifecycle cfg
      { s with
        next := next
        nextConnId := s.nextConnId + 1
        conn := Function.update s.conn s.nextConnId { loop := ioLoop }
        connections := s.connections.insert (connName cfg s.nextConnId) (some s.nextConnId) }
      (Function.update stage s.nextConnId .starting) := by
  have hfresh := L.fresh s.nextConnId (Nat.le_refl _)
  generalize hc : s.nextConnId = c at hfresh
  have hne : ∀ d, stage d ≠ .fresh → d ≠ c := by
    rintro d hd rfl
    exact hd hfresh
  refine ⟨?_, ?_, L.pending.congr ?_, L.stack.congr ?_,
    fun l => ⟨(L.active l).1, ?_⟩, ?_, ?_⟩
  · intro d hd
    have hdc : d ≠ c := Nat.ne_of_gt hd
    rw [Function.update_of_ne hdc]
    exact L.fresh d (by rw [hc]; exact Nat.le_of_succ_le hd)
  · intro d
    by_cases hdc : d = c
    · subst hdc
      rw [Function.update_self]
      simp [Stage.fits]
    · simpa [hdc] using L.fits d
  · intro d
    by_cases hdc : d = c
    · subst hdc
      rw [Function.update_self, hfresh]; rfl
    · simp [hdc]
  · intro d
    by_cases hdc : d = c
    · subst hdc
      rw [Function.update_self, hfresh]; rfl
    · simp [hdc]
  · intro d hd
    obtain ⟨h1, h2⟩ := (L.active l).2 d hd
    have hdc : d ≠ c := hne d fun h => by rw [h] at h1; exact h1
    simpa [hdc] using ⟨h1, h2⟩
  · intro name d hd
    by_cases hn : name = connName cfg c
    · subst hn
      simp only [Map.find_insert_self, Option.some.injEq] at hd
      rw [hd]
    · simp only [Map.find_insert_ne hn] at hd
      exact L.keys name d hd
  · intro d hd
    by_cases hdc : d = c
    · subst hdc
      simp
    · rw [Function.update_of_ne hdc] at hd
      dsimp only
      -- another connection has another name
      rw [Map.find_insert_ne fun h => hdc (connName_injective cfg h)]
      exact L.entry d hd

theorem newConnection_spec : ∃ s' stage', newConnection cfg s = some s' ∧ Lifecycle cfg s' stage' := by
  obtain ⟨ioLoop, next, hnext⟩ := getNextLoop_eq cfg s
  have L₁ := L.accepted ioLoop next
  have hst : Function.update stage s.nextConnId .starting s.nextConnId = .starting := Function.update_self ..
  simp only [newConnection, hnext]
  split
  · obtain ⟨s', hx, L'⟩ := connectEstablished_spec L₁ hst 0
    exact ⟨s', _, hx, L'⟩
  · refine ⟨_, _, rfl, queueInLoop_spec L₁ (c := s.nextConnId) (x := .queued) ?_ ?_ rfl ?_ ?_ ?_
      (.inr (not_active L₁ ?_)) ?_⟩
    · rw [hst]; decide
    · have hf := L₁.fits s.nextConnId
      rw [hst] at hf
      exact hf
    · rw [hst]; rfl
    · simp [Stage.pendingAt]
    · rw [hst]; rfl
    · rw [hst]; exact id
    · rw [hst]; exact fun _ => trivial

end Change

end Cppnetool.TcpServer
