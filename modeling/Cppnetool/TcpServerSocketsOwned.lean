import Cppnetool.Lib.Simulation
import Cppnetool.TcpServerSockets
/-!
# The descriptors of a server

A descriptor belongs to one `TcpConnection` at a time: its channel is the
poller's while `connections_` has the connection, and it is closed with the
object. `Sound` ties the objects to the server's state, to the poller and to
the leases; what the other owners of the loop do keeps it (`Sound.frame`), and
so does a call on a connection's channel (`Sound.set`).
-/
open Lib

namespace Cppnetool.TcpServerSockets

open TcpServer (ConnId Frame Lifecycle connName)
open Poller (Registered Removable PollResult)
open Descriptors (Inv asked)

variable {cfg : Setup} {s s' : St} {c d : ConnId} {fd : Nat} {i : Interest}

structure Sound (cfg : Setup) (s : St) : Prop where
  life : ∃ stage, Lifecycle cfg.config s.server stage
  home : ∀ c, (s.server.conn c).loop = 0
  inv : Inv s.loop
  active : s.server.active 0 = s.activeChannels.filterMap Chan.conn?
  made : ∀ c, Registered s.loop.toSt (.conn c) ↔ Listed cfg s c
  fresh : ∀ c, s.server.nextConnId ≤ c →
    (s.loop.chan (.conn c)).index < 0 ∧ .conn c ∉ s.loop.removed ∧ ¬ Alive s c
  ids : (s.sockets.map Prod.fst).Nodup
  fds : (s.sockets.map Prod.snd).Nodup
  alive : ∀ c, Alive s c ↔ Listed cfg s c ∨ c ∈ s.held
  lease : ∀ c fd, (c, fd) ∈ s.sockets → s.loop.leases fd = some (if Listed cfg s c then some (.conn c) else none)
  unset : s.listenFd = none → s.listenning = false
  listener : ∀ fd, s.listenFd = some fd → fd ∉ s.sockets.map Prod.snd ∧
    s.loop.leases fd = some (if s.listenning then some .acceptor else none)
  silent : s.listenning = false → (s.loop.chan .acceptor).index < 0 ∧ .acceptor ∉ s.loop.removed
  quiet : ∀ c, Listed cfg s c → (s.server.conn c).state = .kDisconnected →
    (s.loop.chan (.conn c)).events = kNoneEvent ∧
    asked s.loop.toSt (.conn c) = some (ignored (s.loop.chan (.conn c)).fd, kNoneEvent)
  watched : ∀ c, (s.server.conn c).watched = true ↔
    Listed cfg s c ∧ ∃ e, asked s.loop.toSt (.conn c) = some ((s.loop.chan (.conn c)).fd, e)

/-- A call that keeps the rules. -/
def Calls (loop : Descriptors.St Chan) (a : Descriptors.Act Chan) (loop' : Descriptors.St Chan) : Prop :=
  Descriptors.enabled loop a ∧ Descriptors.exec loop a = some loop'

theorem Calls.call {a : Descriptors.Act Chan} {loop : Descriptors.St Chan} (h : Calls s.loop a loop) :
    call s a = some { s with loop := loop } := by
  rw [TcpServerSockets.call, assert_bind h.1, h.2]
  rfl

theorem sound_init (cfg : Setup) : Sound cfg {} where
  life := ⟨_, TcpServer.lifecycle_init cfg.config⟩
  home _ := rfl
  inv := Descriptors.inv_init
  active := rfl
  made c := iff_of_false (by simp [Registered, Descriptors.machine]) (by simp [Listed])
  fresh c _ := by simp [Descriptors.machine, Alive]
  ids := List.nodup_nil
  fds := List.nodup_nil
  alive c := by simp [Alive, Listed]
  lease c fd h := by simp at h
  unset _ := rfl
  listener fd h := by simp at h
  silent _ := by simp [Descriptors.machine]
  quiet c h := by simp [Listed] at h
  watched c := iff_of_false (by simp) (by simp [Listed])

/-! ## Whose callback is under way -/

section Top
variable {t : TcpServer.St} {stage : ConnId → TcpServer.Stage} (L : Lifecycle cfg.config t stage)
  {rest : List Frame}
include L

theorem place_of_top {fr : Frame} (hq : t.stack 0 = fr :: rest) (ho : fr.owed) :
    (stage fr.conn).stackAt fr.conn = some (0, fr) := by
  have hq' : (List.filter Frame.owed ∘ t.stack) 0 = fr :: rest.filter Frame.owed := by simp [hq, ho]
  exact L.stack.place_head hq'

theorem destroying_of_top (hq : t.stack 0 = .destroyed c :: rest) : stage c = .destroying 0 := by
  have h := place_of_top L hq rfl
  unfold Frame.conn at h
  cases hst : stage c <;> rw [hst] at h <;> simp [TcpServer.Stage.stackAt] at h ⊢
  exact h

theorem closing_of_top (hq : t.stack 0 = .closing c :: rest) : stage c = .closing := by
  have h := place_of_top L hq rfl
  unfold Frame.conn at h
  cases hst : stage c <;> rw [hst] at h <;> simp [TcpServer.Stage.stackAt] at h ⊢

end Top

section Sound
variable (S : Sound cfg s)
include S

/-- The descriptor of a connection's socket is that of its channel. -/
theorem Sound.chan_fd (hl : Listed cfg s c) (hm : (c, fd) ∈ s.sockets) : (s.loop.chan (.conn c)).fd = fd := by
  have h := S.lease c fd hm
  rw [if_pos hl] at h
  exact S.inv.table.key _ _ ((S.inv.lease fd _).1 h)

omit S in
theorem Alive.lookup (ha : Alive s c) : ∃ fd, s.sockets.lookup c = some fd ∧ (c, fd) ∈ s.sockets := by
  obtain ⟨⟨c', fd⟩, hm, rfl⟩ := List.mem_map.1 ha
  cases h : s.sockets.lookup c' with
  | none =>
    have := List.lookup_eq_none_iff.1 h _ hm
    simp at this
  | some f =>
    obtain ⟨l₁, l₂, hl, -⟩ := List.lookup_eq_some_iff.1 h
    exact ⟨f, rfl, by rw [hl]; simp⟩

/-- The channels of the connections are left alone. -/
theorem Sound.conns {loop : Descriptors.St Chan} {listenFd : Option Nat} {listenning : Bool} (I : Inv loop)
    (F : Descriptors.Frame (fun d => d.conn? ≠ none) s.loop loop)
    (hl : ∀ fd ∈ s.sockets.map Prod.snd, loop.leases fd = s.loop.leases fd)
    (hunset : listenFd = none → listenning = false)
    (hlistener : ∀ fd, listenFd = some fd → fd ∉ s.sockets.map Prod.snd ∧
      loop.leases fd = some (if listenning then some .acceptor else none))
    (hsilent : listenning = false → (loop.chan .acceptor).index < 0 ∧ .acceptor ∉ loop.removed) :
    Sound cfg { s with loop := loop, listenFd := listenFd, listenning := listenning } :=
  have hconn : ∀ c : ConnId, (Chan.conn c).conn? ≠ none := fun _ => Option.some_ne_none _
  { S with
    inv := I
    made := fun c => (F.registered _ (hconn c)).trans (S.made c)
    fresh := fun c hc => by
      obtain ⟨h1, h2, h3⟩ := S.fresh c hc
      exact ⟨(F.fresh _ (hconn c)).2 h1, fun h => h2 ((F.removed _ (hconn c)).1 h), h3⟩
    lease := fun c fd hm => (hl fd (List.mem_map_of_mem (f := Prod.snd) hm)).trans (S.lease c fd hm)
    unset := hunset
    listener := hlistener
    silent := hsilent
    quiet := fun c hc hst => by
      obtain ⟨h1, h2⟩ := S.quiet c hc hst
      dsimp only
      rw [F.events _ (hconn c), F.asked _ (hconn c) ((S.made c).2 hc), F.fd _ (hconn c)]
      exact ⟨h1, h2⟩
    watched := fun c => (S.watched c).trans (and_congr_right fun hc => by
      dsimp only
      rw [F.asked _ (hconn c) ((S.made c).2 hc), F.fd _ (hconn c)]) }

/-- What the other owners, and `poll`, change. -/
theorem Sound.frame {loop : Descriptors.St Chan} (I : Inv loop)
    (F : Descriptors.Frame (fun d => d.isOther = false) s.loop loop)
    (hl : ∀ fd, Ours s fd → loop.leases fd = s.loop.leases fd) : Sound cfg { s with loop := loop } :=
  S.conns I (F.mono fun d hd => by cases d <;> first | rfl | exact absurd rfl hd) (fun fd hm => hl fd (.inl hm)) S.unset
    (fun fd hf => ⟨(S.listener fd hf).1, (hl fd (.inr hf)).trans (S.listener fd hf).2⟩)
    fun h => ⟨(F.fresh _ rfl).2 (S.silent h).1, fun hm => (S.silent h).2 ((F.removed _ rfl).1 hm)⟩

/-- A call on the channel of a connection in the table, with what the server
does to that connection. -/
theorem Sound.set {server : TcpServer.St} (hc : Listed cfg s c) (i : Interest)
    (hlife : ∃ stage, Lifecycle cfg.config server stage) (ht : Touches c s.server server)
    (hq : (server.conn c).state = .kDisconnected → i = .disableAll)
    (hw : (server.conn c).watched = true ↔
      (s.server.conn c).watched = true ∧ i.apply (s.loop.chan (.conn c)).events ≠ kNoneEvent) :
    ∃ loop, Calls s.loop (.set (.conn c) i) loop ∧
      (loop.chan (.conn c)).events = i.apply (s.loop.chan (.conn c)).events ∧
      Sound cfg { s with server := server, loop := loop } := by
  have hr := (S.made c).2 hc
  have I := S.inv
  obtain ⟨p, hp, hf, hx⟩ := Descriptors.set_eq (i := i) I hr
  set e := i.apply (s.loop.chan (.conn c)).events with he
  have hslot := Descriptors.changed_slot_self (e := e) (f := p.fd) I hr
  have hev : ((Descriptors.changed s.loop (.conn c) p.fd e).chan (.conn c)).events = e :=
    Descriptors.changed_events_self
  have F := Descriptors.frame_changed (e := e) (f := p.fd) I hr
  have hlisted : ∀ d, Listed cfg { s with server := server } d ↔ Listed cfg s d := by
    intro d
    simp only [Listed, ht.connections]
  refine ⟨_, ⟨I.made_iff.2 hr, hx⟩, hev, ?_⟩
  · have hne : ∀ d, d ≠ c → Chan.conn d ≠ Chan.conn c := fun d hd h => hd (Chan.conn.inj h)
    refine
      { life := hlife
        home := ?_
        inv := Descriptors.inv_changed I hr hf
        active := by rw [← S.active, ht.active]
        made := fun d => Descriptors.changed_registered.trans ((S.made d).trans (hlisted d).symm)
        fresh := ?_
        ids := S.ids
        fds := S.fds
        alive := fun d => (S.alive d).trans (or_congr_left (hlisted d).symm)
        lease := fun d fd hm => (S.lease d fd hm).trans (congrArg some (if_congr (hlisted d).symm rfl rfl))
        unset := S.unset
        listener := S.listener
        silent := fun h => by
          have := S.silent h
          exact ⟨(F.fresh _ Chan.noConfusion).2 this.1, this.2⟩
        quiet := ?_
        watched := ?_ }
    · intro d
      by_cases hd : d = c
      · subst hd; exact ht.home.trans (S.home d)
      · rw [ht.conn d hd]; exact S.home d
    · intro d hd
      rw [ht.nextConnId] at hd
      obtain ⟨h1, h2, h3⟩ := S.fresh d hd
      have hdc : d ≠ c := by
        rintro rfl
        exact h3 ((S.alive d).2 (.inl hc))
      exact ⟨(F.fresh _ (hne d hdc)).2 h1, h2, h3⟩
    · intro d hd hst
      by_cases hdc : d = c
      · subst hdc
        have hi : e = kNoneEvent := by rw [he, hq hst]; rfl
        dsimp only
        rw [hev, asked, hslot, hi, Descriptors.changed_fd]
        exact ⟨rfl, rfl⟩
      · dsimp only
        rw [F.events _ (hne d hdc), F.asked _ (hne d hdc) ((S.made d).2 ((hlisted d).1 hd)), F.fd _ (hne d hdc)]
        exact S.quiet d ((hlisted d).1 hd) (by rw [← ht.conn d hdc]; exact hst)
    · intro d
      refine Iff.trans ?_ (and_congr_left fun _ => (hlisted d).symm)
      by_cases hdc : d = c
      · subst hdc
        -- the slot is of its descriptor still, unless there is no interest left
        have hold := S.watched d
        dsimp only
        rw [hw, hold, asked, hp, asked, hslot, Descriptors.changed_fd]
        by_cases hen : e = kNoneEvent
        · simp [hen, ignored_ne]
        · simp [hen]
      · dsimp only
        rw [ht.conn d hdc, S.watched d, F.fd _ (hne d hdc)]
        refine and_congr_right fun hd => ?_
        rw [F.asked _ (hne d hdc) ((S.made d).2 hd)]

/-- `disableAll`, where it leaves the server with an unwatched connection. -/
theorem Sound.disable {server : TcpServer.St} (hc : Listed cfg s c)
    (hlife : ∃ stage, Lifecycle cfg.config server stage) (ht : Touches c s.server server)
    (hw : (server.conn c).watched = false) :
    ∃ loop, Calls s.loop (.set (.conn c) .disableAll) loop ∧ Sound cfg { s with server := server, loop := loop } := by
  obtain ⟨loop, hx, -, S'⟩ := S.set hc .disableAll hlife ht (fun _ => rfl) (by simp [hw, Interest.apply])
  exact ⟨loop, hx, S'⟩

/-- What `shutdown` does to a connection. -/
theorem Sound.touch {server : TcpServer.St} (hlife : ∃ stage, Lifecycle cfg.config server stage)
    (ht : Touches c s.server server) (hw : (server.conn c).watched = (s.server.conn c).watched)
    (hst : (server.conn c).state = .kDisconnected → (s.server.conn c).state = .kDisconnected) :
    Sound cfg { s with server := server } := by
  have hlisted : ∀ d, Listed cfg { s with server := server } d ↔ Listed cfg s d := by
    intro d
    simp only [Listed, ht.connections]
  exact
    { S with
      life := hlife
      home := fun d => by
        by_cases hd : d = c
        · subst hd; exact ht.home.trans (S.home d)
        · rw [ht.conn d hd]; exact S.home d
      active := by rw [← S.active, ht.active]
      made := fun d => (S.made d).trans (hlisted d).symm
      fresh := fun d hd => by
        rw [ht.nextConnId] at hd
        exact S.fresh d hd
      alive := fun d => (S.alive d).trans (or_congr_left (hlisted d).symm)
      lease := fun d fd hm => (S.lease d fd hm).trans (congrArg some (if_congr (hlisted d).symm rfl rfl))
      quiet := fun d hd h => by
        refine S.quiet d ((hlisted d).1 hd) ?_
        by_cases hdc : d = c
        · subst hdc; exact hst h
        · rw [← ht.conn d hdc]; exact h
      watched := fun d => by
        refine Iff.trans ?_ (and_congr_left fun _ => (hlisted d).symm)
        dsimp only
        rw [← S.watched d]
        by_cases hdc : d = c
        · subst hdc; rw [hw]
        · rw [ht.conn d hdc] }

/-! ## A connection comes and goes -/

theorem Sound.newConnection (hl : s.loop.leases fd = some none) (ho : ¬ Ours s fd) :
    ∃ loop, Calls s.loop (.watch (.conn s.server.nextConnId) fd .enableReading) loop ∧
      Sound cfg { s with
        server := accepted cfg s.server
        sockets := (s.server.nextConnId, fd) :: s.sockets
        loop := loop } := by
  obtain ⟨stage, L⟩ := S.life
  obtain ⟨server', stage', hx, L'⟩ := TcpServer.newConnection_spec L
  rw [newConnection_eq] at hx
  cases hx
  generalize hc : s.server.nextConnId = c
  obtain ⟨hi, hn, hdead⟩ := S.fresh c (by omega)
  have I := S.inv
  have F := Descriptors.frame_watched (c := .conn c) (e := Interest.enableReading.apply kNoneEvent) I hl
  have hne : ∀ d, d ≠ c → Chan.conn d ≠ Chan.conn c := fun d hd h => hd (Chan.conn.inj h)
  have hnot : ¬ Listed cfg s c := fun h => hdead ((S.alive c).2 (.inl h))
  have hlisted : ∀ d, (accepted cfg s.server).connections.find (connName cfg.config d) = some (some d) ↔
      d = c ∨ Listed cfg s d := by
    intro d
    simp only [accepted, hc, Listed]
    by_cases hd : d = c
    · subst hd; simp
    · rw [Map.find_insert_ne fun h => hd (TcpServer.connName_injective cfg.config h)]
      simp [hd]
  have hconn : (accepted cfg s.server).conn = Function.update s.server.conn c
      { state := .kConnected, watched := true, established := 1 } := by rw [← hc]; rfl
  refine ⟨_, ⟨⟨hl, hi, hn⟩, Descriptors.watch_eq I hl⟩, ?_⟩
  refine
    { life := ⟨stage', L'⟩
      home := ?_
      inv := Descriptors.inv_watched I hl hi hn
      active := S.active
      made := ?_
      fresh := ?_
      ids := List.nodup_cons.2 ⟨hdead, S.ids⟩
      fds := List.nodup_cons.2 ⟨fun h => ho (.inl h), S.fds⟩
      alive := ?_
      lease := ?_
      unset := S.unset
      listener := ?_
      silent := fun h => ⟨(F.fresh _ Chan.noConfusion).2 (S.silent h).1, (S.silent h).2⟩
      quiet := ?_
      watched := ?_ }
  · intro d
    dsimp only
    rw [hconn]
    by_cases hd : d = c
    · subst hd; simp
    · rw [Function.update_of_ne hd]; exact S.home d
  · intro d
    refine Iff.trans ?_ (hlisted d).symm
    by_cases hd : d = c
    · subst hd
      exact iff_of_true Descriptors.watched_registered_self (.inl rfl)
    · simp only [hd, false_or]
      exact (F.registered _ (hne d hd)).trans (S.made d)
  · intro d hd
    have hd' : c + 1 ≤ d := by rw [← hc]; exact hd
    have hdc : d ≠ c := by omega
    obtain ⟨h1, h2, h3⟩ := S.fresh d (by omega)
    exact ⟨(F.fresh _ (hne d hdc)).2 h1, h2, by simpa [Alive, hdc] using h3⟩
  · intro d
    have h := S.alive d
    refine Iff.trans ?_ (or_congr_left (hlisted d).symm)
    rw [or_assoc, ← h]
    simp [Alive]
  · intro d f hm
    refine Eq.trans ?_ (congrArg some (if_congr (hlisted d).symm rfl rfl))
    simp only [Descriptors.watched]
    rcases List.mem_cons.1 hm with he | hm'
    · cases he
      simp
    · have hf : f ≠ fd := by
        rintro rfl
        exact ho (.inl (List.mem_map_of_mem (f := Prod.snd) hm'))
      have hdc : d ≠ c := by
        rintro rfl
        exact hdead (List.mem_map_of_mem (f := Prod.fst) hm')
      rw [Function.update_of_ne hf, S.lease d f hm']
      simp [hdc]
  · intro f hf
    have hne' : f ≠ fd := by
      rintro rfl
      exact ho (.inr hf)
    obtain ⟨h1, h2⟩ := S.listener f hf
    refine ⟨by simpa [hne'] using h1, ?_⟩
    simp only [Descriptors.watched]
    rw [Function.update_of_ne hne', h2]
  · intro d hd hst
    dsimp only at hst
    rw [hconn] at hst
    have hdc : d ≠ c := by
      rintro rfl
      simp at hst
    rw [Function.update_of_ne hdc] at hst
    have hd' : Listed cfg s d := ((hlisted d).1 hd).resolve_left hdc
    dsimp only
    rw [F.events _ (hne d hdc), F.asked _ (hne d hdc) ((S.made d).2 hd'), F.fd _ (hne d hdc)]
    exact S.quiet d hd' hst
  · intro d
    refine Iff.trans ?_ (and_congr_left fun _ => (hlisted d).symm)
    dsimp only
    rw [hconn]
    by_cases hdc : d = c
    · subst hdc
      simp [asked, Descriptors.watched_slot_self, Descriptors.watched_chan_self]
    · rw [Function.update_of_ne hdc, S.watched d, F.fd _ (hne d hdc)]
      simp only [hdc, false_or]
      refine and_congr_right fun hd => ?_
      rw [F.asked _ (hne d hdc) ((S.made d).2 hd)]

/-- The callback of `connectDestroyed` has returned: the channel and the entry
go, while the object is still there. -/
theorem Sound.erase {rest : List Frame} {server : TcpServer.St} (hq : s.server.stack 0 = .destroyed c :: rest)
    (hx : TcpServer.ret cfg.config s.server 0 = some server) : Alive s c ∧
    ∃ loop, Calls s.loop (.remove (.conn c)) loop ∧
      Sound cfg { s with server := server, loop := loop, held := c :: s.held } := by
  obtain ⟨stage, L⟩ := S.life
  obtain ⟨server', stage', hx', L'⟩ := TcpServer.ret_spec L (l := 0) (by rw [hq]; simp)
  rw [hx] at hx'
  cases hx'
  have hst : stage c = .destroying 0 := destroying_of_top L hq
  have hf := L.fits c
  rw [hst] at hf
  have hc : Listed cfg s c := L.entry c (by rw [hst]; trivial)
  have halive : Alive s c := (S.alive c).2 (.inl hc)
  have I := S.inv
  have hreg := (S.made c).2 hc
  obtain ⟨hev, hasked⟩ := S.quiet c hc hf.1
  have hrem : Removable s.loop.toSt (.conn c) := by
    have h0 := (I.table.slot _ hreg).1
    have h1 := I.table.index_lt hreg
    exact ⟨hreg, hev, ⟨h0, by omega⟩, hasked⟩
  obtain ⟨d, hd, hdi, hrx⟩ := Descriptors.remove_eq I hrem
  have F := Descriptors.frame_dropped I hreg hd hdi
  simp only [TcpServer.ret, hq, TcpServer.eraseConn] at hx
  obtain ⟨-, -, hx⟩ := Option.bind_eq_some_iff.1 hx
  cases hx
  refine ⟨halive, _, ⟨I.made_iff.2 hreg, hrx⟩, ?_⟩
  have hne : ∀ d, d ≠ c → Chan.conn d ≠ Chan.conn c := fun d hd h => hd (Chan.conn.inj h)
  have hlisted : ∀ d, Map.find (s.server.connections.erase (connName cfg.config c)) (connName cfg.config d) =
      some (some d) ↔ d ≠ c ∧ Listed cfg s d := by
    intro d
    by_cases hd : d = c
    · subst hd
      rw [Map.find_erase_self]
      simp
    · rw [Map.find_erase_ne fun h => hd (TcpServer.connName_injective cfg.config h)]
      simp [hd, Listed]
  -- no other socket has the descriptor of this one
  have hlease := I.registered_iff.1 hreg
  have hother : ∀ f o, s.loop.leases f = some o → o ≠ some (.conn c) →
      (Descriptors.dropped s.loop (.conn c) d).leases f = some o := by
    intro f o hf ho
    simp only [Descriptors.dropped]
    rw [Function.update_of_ne, hf]
    rintro rfl
    rw [hlease] at hf
    exact ho (Option.some.inj hf).symm
  refine
    { life := ⟨stage', L'⟩
      home := S.home
      inv := Descriptors.inv_dropped I hreg hd hdi
      active := S.active
      made := ?_
      fresh := ?_
      ids := S.ids
      fds := S.fds
      alive := ?_
      lease := ?_
      unset := S.unset
      listener := fun f hf => ⟨(S.listener f hf).1, hother f _ (S.listener f hf).2 (by split <;> simp)⟩
      silent := fun h => ⟨(F.fresh _ Chan.noConfusion).2 (S.silent h).1,
        fun hm => (S.silent h).2 ((F.removed _ Chan.noConfusion).1 hm)⟩
      quiet := ?_
      watched := ?_ }
  · intro d
    refine Iff.trans ?_ (hlisted d).symm
    rw [Descriptors.dropped_registered I hreg, S.made d]
    exact and_congr_left fun _ => not_congr ⟨Chan.conn.inj, congrArg Chan.conn⟩
  · intro d hd
    obtain ⟨h1, h2, h3⟩ := S.fresh d hd
    have hdc : d ≠ c := by
      rintro rfl
      exact h3 halive
    exact ⟨(F.fresh _ (hne d hdc)).2 h1, fun hm => h2 ((F.removed _ (hne d hdc)).1 hm), h3⟩
  · intro d
    refine Iff.trans (S.alive d) ?_
    refine Iff.trans ?_ (or_congr_left (hlisted d).symm)
    rw [List.mem_cons]
    by_cases hdc : d = c
    · subst hdc; simp [hc]
    · simp [hdc]
  · intro d f hm
    refine Eq.trans ?_ (congrArg some (if_congr (hlisted d).symm rfl rfl))
    by_cases hdc : d = c
    · subst hdc
      simp [Descriptors.dropped, S.chan_fd hc hm]
    · rw [hother f _ (S.lease d f hm)]
      · simp [hdc]
      · split
        · simpa using hdc
        · simp
  · intro d hd hst
    obtain ⟨hdc, hd'⟩ := (hlisted d).1 hd
    dsimp only
    rw [F.events _ (hne d hdc), F.asked _ (hne d hdc) ((S.made d).2 hd'), F.fd _ (hne d hdc)]
    exact S.quiet d hd' hst
  · intro d
    refine Iff.trans ?_ (and_congr_left fun _ => (hlisted d).symm)
    dsimp only
    rw [S.watched d]
    by_cases hdc : d = c
    · subst hdc
      simp [hasked, ignored_ne]
    · rw [F.fd _ (hne d hdc)]
      simp only [ne_eq, hdc, not_false_eq_true, true_and]
      refine and_congr_right fun hd => ?_
      rw [F.asked _ (hne d hdc) ((S.made d).2 hd)]

/-- A `TcpConnectionPtr` goes. -/
theorem Sound.release (hh : c ∈ s.held) :
    ∃ s', release cfg { s with held := s.held.erase c } c = some s' ∧ Sound cfg s' := by
  have halive : Alive s c := (S.alive c).2 (.inr hh)
  unfold TcpServerSockets.release
  split
  -- another pointer keeps the object
  · rename_i hkept
    refine ⟨_, rfl, { S with alive := ?_ }⟩
    intro d
    by_cases hdc : d = c
    · subst hdc
      exact iff_of_true halive hkept
    · exact (S.alive d).trans (or_congr_right (List.mem_erase_of_ne hdc).symm)
  · rename_i hlast
    obtain ⟨hnot, hnone⟩ := not_or.1 hlast
    obtain ⟨fd, hlook, hm⟩ := halive.lookup
    have hlease : s.loop.leases fd = some none := by
      rw [S.lease c fd hm]
      exact congrArg some (if_neg hnot)
    have hsub : (s.sockets.filter (·.1 ≠ c)).Sublist s.sockets := List.filter_sublist
    have hother : ∀ d f, (d, f) ∈ s.sockets.filter (·.1 ≠ c) → d ≠ c ∧ f ≠ fd ∧ (d, f) ∈ s.sockets := by
      intro d f hd
      obtain ⟨hd, hdc⟩ := List.mem_filter.1 hd
      have hdc : d ≠ c := by simpa using hdc
      refine ⟨hdc, ?_, hd⟩
      rintro rfl
      exact hdc (congrArg Prod.fst (List.inj_on_of_nodup_map S.fds hd hm rfl))
    have hcall : Calls s.loop (.closed fd) (Descriptors.closed s.loop fd) := ⟨hlease, rfl⟩
    refine ⟨{ s with
      held := s.held.erase c
      sockets := s.sockets.filter (·.1 ≠ c)
      loop := Descriptors.closed s.loop fd }, ?_, ?_⟩
    · dsimp only
      rw [hlook, some_bind]
      exact hcall.call (s := { s with held := s.held.erase c, sockets := s.sockets.filter (·.1 ≠ c) })
    · exact
        { S with
          inv := S.inv.release (by simp [hlease]) (by simp)
          fresh := fun d hd => by
            obtain ⟨h1, h2, h3⟩ := S.fresh d hd
            exact ⟨h1, h2, fun h => h3 ((hsub.map Prod.fst).subset h)⟩
          ids := (hsub.map Prod.fst).nodup S.ids
          fds := (hsub.map Prod.snd).nodup S.fds
          alive := fun d => by
            have h := S.alive d
            by_cases hdc : d = c
            · subst hdc
              refine iff_of_false ?_ hlast
              simp [Alive]
            · rw [show d ∈ s.held.erase c ↔ d ∈ s.held from List.mem_erase_of_ne hdc]
              refine Iff.trans ?_ h
              simp [Alive, hdc]
          lease := fun d f hd => by
            obtain ⟨-, hf, hd⟩ := hother d f hd
            exact (Function.update_of_ne hf ..).trans (S.lease d f hd)
          listener := fun f hf => by
            obtain ⟨h1, h2⟩ := S.listener f hf
            refine ⟨fun h => h1 ((hsub.map Prod.snd).subset h), (Function.update_of_ne ?_ ..).trans h2⟩
            rintro rfl
            exact h1 (List.mem_map_of_mem (f := Prod.snd) hm) }

end Sound

end Cppnetool.TcpServerSockets
