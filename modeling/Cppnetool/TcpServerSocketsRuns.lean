import Cppnetool.TcpServerSocketsOwned
/-!
# Runs of a server on its poller

Every step of such a server is a step of `TcpServer.machine`, or none, and the
bit that says there that a connection is watched says what `poll` is asked
here.
-/
open Lib

namespace Cppnetool.TcpServerSockets

open TcpServer (ConnId Frame Lifecycle connName)
open Poller (Registered PollResult)
open Descriptors (Inv asked)

variable {cfg : Setup} {s s' : St} {c d : ConnId} {fd : Nat} {i : Interest}

/-- A condition on the state before the step. `removeConn` is called as
`TcpServer.Orderly` says. No channel is handled whose connection is gone, and
none is read to its end that has been destroyed; the user calls no connection
that is gone, and leaves the channel of one that is down alone. -/
def Orderly (s : St) : Act → Prop
  | .removeConn name => TcpServer.Orderly s.server (.removeConn 0 name)
  | .handleRead close => ∀ c ∈ s.activeChannels.head?.bind Chan.conn?,
      Alive s c ∧ (close = true → (s.server.conn c).state ≠ .kDisconnected)
  | .setInterest c _ =>
    Alive s c ∧ ((s.server.conn c).state = .kConnected ∨ (s.server.conn c).state = .kDisconnecting)
  | .shutdown c => Alive s c
  | _ => True

instance (s : St) : ∀ a, Decidable (Orderly s a)
  | .removeConn name => inferInstanceAs (Decidable (TcpServer.Orderly s.server (.removeConn 0 name)))
  | .handleRead _ => inferInstanceAs (Decidable (∀ c ∈ s.activeChannels.head?.bind Chan.conn?, _ ∧ _))
  | .setInterest _ _ => inferInstanceAs (Decidable (_ ∧ _))
  | .shutdown c => inferInstanceAs (Decidable (Alive s c))
  | .socket _ => .isTrue trivial
  | .listen => .isTrue trivial
  | .poll _ _ => .isTrue trivial
  | .accept _ => .isTrue trivial
  | .pass => .isTrue trivial
  | .ret => .isTrue trivial
  | .getConn _ => .isTrue trivial
  | .drop _ => .isTrue trivial
  | .other _ => .isTrue trivial

/-- The step as `TcpServer.machine` has it. -/
def act (s : St) : Act → Option TcpServer.Act
  | .poll revents numEvents =>
    (Descriptors.poll s.loop revents numEvents).map fun r => .poll 0 (r.2.filterMap Chan.conn?)
  | .accept fd => fd.map fun _ => .newConnection
  | .handleRead close => some (.handleEvent 0 close)
  | .ret => some (.ret 0)
  | .removeConn name => some (.removeConn 0 name)
  | .getConn name => some (.getConn 0 name)
  | .setInterest c i =>
    if i.apply (s.loop.chan (.conn c)).events = kNoneEvent then some (.disableAll c) else none
  | .shutdown c => some (.shutdown c)
  | _ => none

/-- The step succeeds, keeps `Sound`, and is one of the server's own. -/
def Goes (cfg : Setup) (s : St) (a : Act) : Prop :=
  ∃ s', exec cfg s a = some s' ∧ Sound cfg s' ∧ Step (TcpServer.machine cfg.config) s.server (act s a) s'.server ∧
    ∀ b ∈ act s a, TcpServer.Orderly s.server b

theorem release_server (hx : release cfg s c = some s') : s'.server = s.server := by
  unfold release at hx
  split at hx
  · cases hx; rfl
  · obtain ⟨fd, -, hx⟩ := Option.bind_eq_some_iff.1 hx
    obtain ⟨-, -, hx⟩ := Option.bind_eq_some_iff.1 hx
    obtain ⟨loop, -, hx⟩ := Option.bind_eq_some_iff.1 hx
    cases hx
    rfl

section Steps
variable (S : Sound cfg s)
include S

theorem Sound.listed_of_open (h : (s.server.conn c).state = .kConnected ∨ (s.server.conn c).state = .kDisconnecting) :
    Listed cfg s c := by
  obtain ⟨stage, L⟩ := S.life
  have hf := L.fits c
  refine L.entry c ?_
  cases hst : stage c with
  | fresh =>
    rw [hst] at hf
    rw [hf.1] at h
    simp at h
  | gone =>
    rw [hst] at hf
    rw [hf.1] at h
    simp at h
  | _ => trivial

/-! ## The loop -/

theorem poll_goes {revents : List Nat} {numEvents : Nat} (ha : enabled s (.poll revents numEvents)) :
    Goes cfg s (.poll revents numEvents) := by
  obtain ⟨hstack, hact, hr⟩ := ha
  obtain ⟨stage, L⟩ := S.life
  obtain ⟨chan, new, hx, hchan, -, hnd, hnew⟩ := Descriptors.poll_eq S.inv hr
  have F := Descriptors.frame_revented hr hchan
  have S' := S.frame (Descriptors.inv_revented hr hchan S.inv)
    (F.mono fun _ _ => trivial) fun _ _ => rfl
  have he : (TcpServer.machine cfg.config).enabled s.server (.poll 0 (new.filterMap Chan.conn?)) := by
    refine ⟨Nat.zero_le _, hstack, by rw [S.active, hact]; rfl, ?_, ?_⟩
    · refine hnd.filterMap ?_
      rintro (_ | a | _) (_ | b | _) x hx hy
      all_goals simp_all [Chan.conn?]
    · intro c hc
      obtain ⟨ch, hm, hcc⟩ := List.mem_filterMap.1 hc
      cases ch with
      | conn c' =>
        cases hcc
        obtain ⟨hreg, hasked⟩ := hnew _ hm
        exact ⟨(S.watched c).2 ⟨(S.made c).1 hreg, hasked⟩, S.home c⟩
      | _ => cases hcc
  refine ⟨_, by simp [exec, poll, hx]; rfl, ?_, ?_, ?_⟩
  · exact { S' with
      life := ⟨stage, TcpServer.poll_spec L he⟩
      active := by
        dsimp only
        rw [Function.update_self] }
  · simp only [act, hx, Option.map_some]
    exact Step.some he rfl
  · intro b hb
    simp only [act, hx, Option.map_some, Option.mem_def, Option.some.injEq] at hb
    subst hb
    trivial

omit S in
/-- A step that the server has no part in. -/
theorem Goes.idle {a : Act} (hx : exec cfg s a = some s') (S' : Sound cfg s') (hs : s'.server = s.server)
    (ha : act s a = none) : Goes cfg s a :=
  ⟨s', hx, S', by rw [ha]; exact Step.none hs, by simp [ha]⟩

omit S in
theorem Goes.of {a : Act} {b : TcpServer.Act} (hx : exec cfg s a = some s') (S' : Sound cfg s') (ha : act s a = some b)
    (he : (TcpServer.machine cfg.config).enabled s.server b)
    (hb : (TcpServer.machine cfg.config).exec s.server b = some s'.server) (hg : TcpServer.Orderly s.server b) :
    Goes cfg s a :=
  ⟨s', hx, S', by rw [ha]; exact Step.some he hb, by simp [ha, hg]⟩

omit S in
theorem activeChannels_eq {ch : Chan} (h : s.activeChannels.head? = some ch) :
    s.activeChannels = ch :: s.activeChannels.tail := (List.cons_head?_tail h).symm

/-- The channel of another owner, or the acceptor's, leaves the list. -/
theorem Sound.skip {ch : Chan} (h : s.activeChannels.head? = some ch) (hc : ch.conn? = none) :
    Sound cfg { s with activeChannels := s.activeChannels.tail } :=
  { S with
    active := by
      rw [S.active, activeChannels_eq h, List.filterMap_cons_none hc]
      rfl }

theorem pass_goes (ha : enabled s .pass) : Goes cfg s .pass := by
  obtain ⟨-, hh⟩ := ha
  obtain ⟨ch, hch, ho⟩ := Option.map_eq_some_iff.1 hh
  refine Goes.idle rfl (S.skip hch ?_) rfl rfl
  cases ch <;> first | rfl | cases ho

/-- A descriptor that was free is open, and nobody's yet. -/
theorem Sound.opened (h : s.loop.leases fd = none) :
    Calls s.loop (.opened fd) (Descriptors.opened s.loop fd) ∧
      Sound cfg { s with loop := Descriptors.opened s.loop fd } ∧ ¬ Ours s fd := by
  have hours : ¬ Ours s fd := by
    rintro (hm | hm)
    · obtain ⟨⟨c, f⟩, hm', rfl⟩ := List.mem_map.1 hm
      have := S.lease c f hm'
      rw [h] at this
      cases this
    · have := (S.listener fd hm).2
      rw [h] at this
      cases this
  refine ⟨⟨h, rfl⟩, S.frame (S.inv.release (by simp [h]) (by simp)) (.of_leases _ _) ?_, hours⟩
  intro f hf
  exact Function.update_of_ne (by rintro rfl; exact hours hf) ..

theorem accept_goes {fd : Option Nat} (ha : enabled s (.accept fd)) : Goes cfg s (.accept fd) := by
  obtain ⟨hstack, hh, hfree⟩ := ha
  have S₁ := S.skip hh rfl
  cases fd with
  | none => exact Goes.idle rfl S₁ rfl rfl
  | some fd =>
    obtain ⟨hx, S₂, ho⟩ := S₁.opened (hfree fd rfl)
    obtain ⟨loop, hx', S₃⟩ := S₂.newConnection (Function.update_self fd ..) ho
    refine Goes.of ?_ S₃ rfl hstack (newConnection_eq cfg s.server) trivial
    simp only [exec, accept]
    rw [hx.call (s := { s with activeChannels := s.activeChannels.tail }), some_bind]
    simp only [newConnection]
    rw [newConnection_eq, some_bind]
    exact hx'.call (s := { s with
      activeChannels := s.activeChannels.tail
      server := accepted cfg s.server
      sockets := (s.server.nextConnId, fd) :: s.sockets
      loop := Descriptors.opened s.loop fd })

/-! ## A connection -/

omit S in
theorem Touches.refl (c : ConnId) (t : TcpServer.St) : Touches c t t := ⟨fun _ _ => rfl, rfl, rfl, rfl, rfl⟩

theorem handleRead_goes {close : Bool} (ha : enabled s (.handleRead close)) (hg : Orderly s (.handleRead close)) :
    Goes cfg s (.handleRead close) := by
  obtain ⟨hstack, hh⟩ := ha
  obtain ⟨c, hc⟩ := Option.ne_none_iff_exists'.1 hh
  obtain ⟨halive, hstate⟩ := hg c hc
  obtain ⟨ch, hch, hcc⟩ := Option.bind_eq_some_iff.1 hc
  obtain rfl : ch = .conn c := by
    cases ch <;> simp_all [Chan.conn?]
  have hlist := activeChannels_eq hch
  obtain ⟨stage, L⟩ := S.life
  set rest := s.activeChannels.tail.filterMap Chan.conn? with hrest
  have hq : s.server.active 0 = c :: rest := by
    rw [S.active, hlist, List.filterMap_cons_some (show Chan.conn? (.conn c) = some c from rfl)]
  obtain ⟨L₁, -⟩ := TcpServer.popActive_spec L hq
  set t : TcpServer.St := { s.server with active := Function.update s.server.active 0 rest } with ht
  have S₁ : Sound cfg { s with server := t, activeChannels := s.activeChannels.tail } :=
    { S with
      life := ⟨stage, L₁⟩
      active := by
        rw [ht]
        dsimp only
        rw [Function.update_self] }
  have hen : (TcpServer.machine cfg.config).enabled s.server (.handleEvent 0 close) :=
    ⟨hstack, by rw [hq]; simp⟩
  have hev : TcpServer.handleEvent cfg.config s.server 0 close =
      if close then TcpServer.handleClose cfg.config t 0 c else some t := by
    simp [TcpServer.handleEvent, hq, ht]
  have hx : exec cfg s (.handleRead close) = handleRead cfg s c close := by
    simp only [exec, hc]
    rfl
  have hord : TcpServer.Orderly s.server (.handleEvent 0 close) := by
    cases close with
    | false => trivial
    | true =>
      intro d hd
      rw [hq] at hd
      cases hd
      exact hstate rfl
  cases close with
  | false =>
    refine Goes.of ?_ S₁ rfl hen hev hord
    rw [hx, handleRead, assert_bind halive, hev]
    rfl
  | true =>
    obtain ⟨server, stage', hev', L'⟩ := TcpServer.handleEvent_spec L (by rw [hq]; simp) hord
    have hs : TcpServer.handleClose cfg.config t 0 c = some server := hev.symm.trans hev'
    obtain ⟨htouch, hw, -⟩ := Touches.handleClose hs
    have hc' : Listed cfg s c := by
      have hf := L.fits c
      have hd := ((L.active 0).2 c (by rw [hq]; exact List.mem_cons_self)).1
      refine L.entry c ?_
      cases hst : stage c with
      | gone =>
        rw [hst] at hf
        exact absurd hf.1 (hstate rfl)
      | fresh =>
        rw [hst] at hd
        exact hd.elim
      | _ => trivial
    obtain ⟨loop, hcall, S₂⟩ := S₁.disable (c := c) hc' ⟨stage', L'⟩ ((Touches.unwatched t c).trans htouch) hw
    have hread : handleRead cfg s c true =
        if cfg.hasClose then some { s with server := server, activeChannels := s.activeChannels.tail, loop := loop }
        else call { s with server := server, activeChannels := s.activeChannels.tail, loop := loop }
          (.set (.conn c) .disableAll) := by
      rw [handleRead, assert_bind halive, hev', some_bind]
      dsimp only
      rw [if_pos rfl, hcall.call (s := { s with server := server, activeChannels := s.activeChannels.tail })]
      rfl
    by_cases hcb : cfg.hasClose = true
    · exact Goes.of (hx.trans (hread.trans (if_pos hcb))) S₂ rfl hen hev' hord
    -- with no close callback `connectDestroyed` follows at once
    · have hc'' : server.connections.find (connName cfg.config c) = some (some c) := by
        rw [htouch.connections]
        exact hc'
      obtain ⟨loop', hcall', S₃⟩ := S₂.disable (c := c) hc'' ⟨stage', L'⟩ (Touches.refl c server) hw
      refine Goes.of (hx.trans (hread.trans ((if_neg hcb).trans ?_))) S₃ rfl hen hev' hord
      exact hcall'.call (s := { s with server := server, activeChannels := s.activeChannels.tail, loop := loop })

theorem ret_goes (ha : enabled s .ret) : Goes cfg s .ret := by
  obtain ⟨fr, rest, hq⟩ := List.exists_cons_of_ne_nil (show s.server.stack 0 ≠ [] from ha)
  obtain ⟨stage, L⟩ := S.life
  obtain ⟨server, stage', hs, L'⟩ := TcpServer.ret_spec L (l := 0) ha
  have hs' := hs
  simp only [TcpServer.ret, hq] at hs'
  cases fr with
  | established c =>
    cases hs'
    have S' := S.touch (c := c) ⟨stage', L'⟩ ⟨fun _ _ => rfl, rfl, rfl, rfl, rfl⟩ rfl id
    refine Goes.of ?_ S' rfl ha hs trivial
    simp [exec, ret, hs, hq]
  | closing c =>
    have hst := closing_of_top L hq
    have hc : Listed cfg s c := L.entry c (by rw [hst]; trivial)
    obtain ⟨htouch, hw, -⟩ := Touches.connectDestroyed hs'
    have htouch' : Touches c s.server server :=
      ⟨htouch.conn, htouch.home, htouch.connections, htouch.nextConnId, htouch.active⟩
    obtain ⟨loop, hcall, S'⟩ := S.disable hc ⟨stage', L'⟩ htouch' hw
    refine Goes.of ?_ S' rfl ha hs trivial
    simp only [exec, ret]
    rw [hs, some_bind, hq]
    dsimp only
    rw [assert_bind ((S.alive c).2 (.inl hc))]
    exact hcall.call (s := { s with server := server })
  | destroyed c =>
    obtain ⟨halive, loop, hcall, S'⟩ := S.erase hq hs
    -- the frame that called `erase` had the object's last certain pointer
    obtain ⟨u, hu, S''⟩ := S'.release (c := c) List.mem_cons_self
    rw [List.erase_cons_head] at hu
    have hserver := release_server hu
    refine Goes.of ?_ S'' rfl ha (hs.trans (congrArg some hserver.symm)) trivial
    simp only [exec, ret]
    rw [hs, some_bind, hq]
    dsimp only
    rw [assert_bind halive, hcall.call, some_bind]
    exact hu

/-- `connections_[name]` may leave a null entry. -/
theorem Sound.getConn (name : String) :
    Sound cfg { s with server := (TcpServer.getConn s.server name).2 } ∧
      ∀ c, (TcpServer.getConn s.server name).1 = some c →
        Listed cfg { s with server := (TcpServer.getConn s.server name).2 } c := by
  obtain ⟨stage, L⟩ := S.life
  have L' := TcpServer.getConn_spec L name
  unfold TcpServer.getConn at L' ⊢
  cases hf : s.server.connections.find name with
  | some o =>
    refine ⟨S, ?_⟩
    rintro c rfl
    rw [L.keys name c hf] at hf
    exact hf
  | none =>
    rw [hf] at L'
    have hlisted : ∀ d, Map.find (s.server.connections.insert name none) (connName cfg.config d) = some (some d) ↔
        Listed cfg s d := by
      intro d
      by_cases hd : connName cfg.config d = name
      · rw [Listed, hd, hf, Map.find_insert_self]
        simp
      · rw [Map.find_insert_ne hd]
        exact Iff.rfl
    refine ⟨{ S with
      life := ⟨stage, L'⟩
      made := fun d => (S.made d).trans (hlisted d).symm
      alive := fun d => (S.alive d).trans (or_congr_left (hlisted d).symm)
      lease := fun d fd hm => (S.lease d fd hm).trans (congrArg some (if_congr (hlisted d).symm rfl rfl))
      quiet := fun d hd => S.quiet d ((hlisted d).1 hd)
      watched := fun d => (S.watched d).trans (and_congr_left fun _ => (hlisted d).symm) }, ?_⟩
    intro c hc
    cases hc

theorem getConn_goes (name : String) : Goes cfg s (.getConn name) := by
  obtain ⟨S', hc⟩ := S.getConn name
  have S'' : Sound cfg (TcpServerSockets.getConn s name) :=
    { S' with
      alive := fun d => by
        refine (S'.alive d).trans ?_
        simp only [TcpServerSockets.getConn, List.mem_append, Option.mem_toList]
        exact ⟨Or.imp_right .inr, fun h => h.elim .inl fun h => h.imp (hc d) id⟩ }
  exact Goes.of rfl S'' rfl (Nat.zero_le _) rfl trivial

theorem removeConn_goes {name : String} (hg : Orderly s (.removeConn name)) : Goes cfg s (.removeConn name) := by
  obtain ⟨stage, L⟩ := S.life
  obtain ⟨server, stage', hs, L'⟩ := TcpServer.removeConn_spec L (l := 0) hg
  obtain ⟨S₁, hlisted⟩ := S.getConn name
  have hs' := hs
  unfold TcpServer.removeConn at hs'
  cases hfound : (TcpServer.getConn s.server name).1 with
  | none =>
    have : TcpServer.getConn s.server name = (none, (TcpServer.getConn s.server name).2) := Prod.ext hfound rfl
    rw [this] at hs'
    cases hs'
    refine Goes.of ?_ S₁ rfl (Nat.zero_le _) hs hg
    simp [exec, removeConn, hs, hfound]
  | some c =>
    have hc := hlisted c hfound
    generalize hget : (TcpServer.getConn s.server name).2 = t at S₁ hc
    have : TcpServer.getConn s.server name = (some c, t) := Prod.ext hfound hget
    rw [this] at hs'
    obtain ⟨htouch, hw, -⟩ := Touches.connectDestroyed hs'
    obtain ⟨loop, hcall, S'⟩ := S₁.disable hc ⟨stage', L'⟩ ((Touches.update (by rfl) t.stack).trans htouch) hw
    refine Goes.of ?_ S' rfl (Nat.zero_le _) hs hg
    simp only [exec, removeConn]
    rw [hs, some_bind, hfound]
    exact hcall.call (s := { s with server := server })

theorem drop_goes (ha : enabled s (.drop c)) : Goes cfg s (.drop c) := by
  obtain ⟨t, hx, S'⟩ := S.release ha
  have hserver := release_server hx
  exact Goes.idle hx S' hserver rfl

theorem setInterest_goes (hg : Orderly s (.setInterest c i)) : Goes cfg s (.setInterest c i) := by
  obtain ⟨halive, hopen⟩ := hg
  have hc := S.listed_of_open hopen
  obtain ⟨stage, L⟩ := S.life
  set e := i.apply (s.loop.chan (.conn c)).events with he
  by_cases hen : e = kNoneEvent
  · have L' : Lifecycle cfg.config (unwatched s.server c) stage :=
      L.touch rfl (TcpServer.Stage.fits_unwatched (L.fits c))
    obtain ⟨loop, hcall, hev, S'⟩ := S.set hc i ⟨stage, L'⟩ (Touches.unwatched s.server c)
      (fun h => by
        rw [unwatched_state] at h
        rw [h] at hopen
        simp at hopen)
      (by simp [unwatched_watched, ← he, hen])
    refine Goes.of (b := .disableAll c) ?_ S' (by simp [act, ← he, hen]) trivial rfl trivial
    simp only [exec, setInterest]
    rw [assert_bind halive, hcall.call, some_bind]
    dsimp only
    rw [if_pos (hev.trans hen)]
    rfl
  · obtain ⟨loop, hcall, hev, S'⟩ := S.set hc i ⟨stage, L⟩ (Touches.refl c s.server)
      (fun h => by
        rw [h] at hopen
        simp at hopen)
      (by simp [← he, hen])
    refine Goes.idle ?_ S' rfl (by simp [act, ← he, hen])
    simp only [exec, setInterest]
    rw [assert_bind halive, hcall.call, some_bind]
    dsimp only
    rw [if_neg (by rw [hev]; exact hen)]
    rfl

theorem shutdown_goes (hg : Orderly s (.shutdown c)) : Goes cfg s (.shutdown c) := by
  have halive : Alive s c := hg
  obtain ⟨stage, L⟩ := S.life
  have L' := L.touch (c := c) (k := { s.server.conn c with
    state := if (s.server.conn c).state = .kConnected then .kDisconnecting else (s.server.conn c).state })
    rfl (TcpServer.Stage.fits_shutdown (L.fits c))
  have S' := S.touch (c := c) ⟨stage, L'⟩ (Touches.update (by rfl) s.server.stack) (by simp) (by
    simp only [Function.update_self]
    split
    · simp
    · exact id)
  refine Goes.of ?_ S' rfl trivial rfl trivial
  simp only [exec, shutdown]
  rw [assert_bind halive]
  rfl

/-! ## The acceptor and the other owners -/

theorem socket_goes (ha : enabled s (.socket fd)) : Goes cfg s (.socket fd) := by
  obtain ⟨hnone, hfree⟩ := ha
  obtain ⟨hcall, S₁, hours⟩ := S.opened hfree
  have hoff := S.unset hnone
  have S₂ : Sound cfg { s with loop := Descriptors.opened s.loop fd, listenFd := some fd } := by
    refine S₁.conns S₁.inv (.of_leases _ _) (fun _ _ => rfl) (fun h => by cases h) ?_ S₁.silent
    intro f hf
    cases hf
    refine ⟨fun hm => hours (.inl hm), ?_⟩
    simp [Descriptors.opened, hoff]
  refine Goes.idle ?_ S₂ rfl rfl
  simp only [exec]
  rw [hcall.call]
  rfl

theorem listen_goes (ha : enabled s .listen) : Goes cfg s .listen := by
  obtain ⟨hset, hoff⟩ := ha
  obtain ⟨fd, hfd⟩ := Option.ne_none_iff_exists'.1 hset
  obtain ⟨hmine, hlease⟩ := S.listener fd hfd
  obtain ⟨hi, hn⟩ := S.silent hoff
  rw [hoff] at hlease
  have hl : s.loop.leases fd = some none := hlease
  have hcall : Calls s.loop (.watch .acceptor fd .enableReading)
      (Descriptors.watched s.loop .acceptor fd (Interest.enableReading.apply kNoneEvent)) :=
    ⟨⟨hl, hi, hn⟩, Descriptors.watch_eq S.inv hl⟩
  have F := Descriptors.frame_watched (c := .acceptor) (e := Interest.enableReading.apply kNoneEvent) S.inv hl
  have S' : Sound cfg { s with
      loop := Descriptors.watched s.loop .acceptor fd (Interest.enableReading.apply kNoneEvent)
      listenFd := s.listenFd
      listenning := true } := by
    refine S.conns (Descriptors.inv_watched S.inv hl hi hn) (F.mono fun d hd => by rintro rfl; exact hd rfl)
      ?_ (fun h => absurd h hset) ?_ fun h => by cases h
    · intro f hf
      exact Function.update_of_ne (by rintro rfl; exact hmine hf) ..
    · intro f hf
      rw [hfd] at hf
      cases hf
      exact ⟨hmine, Function.update_self ..⟩
  refine Goes.idle ?_ S' rfl rfl
  exact Option.bind_eq_some_iff.2 ⟨fd, hfd, hcall.call (s := { s with listenning := true })⟩

theorem other_goes {a : Descriptors.Act Chan} (ha : enabled s (.other a)) : Goes cfg s (.other a) := by
  obtain ⟨ha, htheirs⟩ := ha
  have I := S.inv
  have hne : ∀ {c d : Chan}, c.isOther = true → d.isOther = false → d ≠ c := by
    rintro c _ hc hd rfl
    rw [hc] at hd
    cases hd
  obtain ⟨loop, hx, S'⟩ : ∃ loop, Descriptors.exec s.loop a = some loop ∧ Sound cfg { s with loop := loop } := by
    cases a with
    | opened fd =>
      obtain ⟨hcall, S', -⟩ := S.opened ha
      exact ⟨_, hcall.2, S'⟩
    | closed fd =>
      have hl : s.loop.leases fd = some none := ha
      refine ⟨_, rfl, S.frame (I.release (by simp [hl]) (by simp)) (.of_leases _ _) ?_⟩
      intro f hf
      exact Function.update_of_ne (by rintro rfl; exact htheirs hf) ..
    | watch c fd i =>
      obtain ⟨hl, hi, hn⟩ := ha
      refine ⟨_, Descriptors.watch_eq I hl, S.frame (Descriptors.inv_watched I hl hi hn)
        ((Descriptors.frame_watched I hl).mono fun d hd => hne htheirs.1 hd) ?_⟩
      intro f hf
      exact Function.update_of_ne (by rintro rfl; exact htheirs.2 hf) ..
    | set c i =>
      have hc := I.made_iff.1 ha
      obtain ⟨p, -, hf, hx⟩ := Descriptors.set_eq (i := i) I hc
      exact ⟨_, hx, S.frame (Descriptors.inv_changed I hc hf)
        ((Descriptors.frame_changed I hc).mono fun d hd => hne htheirs hd) fun _ _ => rfl⟩
    | remove c =>
      obtain ⟨hother, hrem⟩ := htheirs
      obtain ⟨d, hd, hdi, hx⟩ := Descriptors.remove_eq I hrem
      refine ⟨_, hx, S.frame (Descriptors.inv_dropped I hrem.1 hd hdi)
        ((Descriptors.frame_dropped I hrem.1 hd hdi).mono fun d hd => hne hother hd) ?_⟩
      -- the removed channel did not stand for a descriptor of the server
      have hlease := I.registered_iff.1 hrem.1
      intro f hf
      refine Function.update_of_ne ?_ ..
      rintro rfl
      rcases hf with hf | hf
      · obtain ⟨⟨c', f⟩, hm, hf⟩ := List.mem_map.1 hf
        have := S.lease c' f hm
        rw [show f = _ from hf, hlease] at this
        split at this <;> cases this
        cases hother
      · have := (S.listener _ hf).2
        rw [hlease] at this
        split at this <;> cases this
        cases hother
    | poll revents numEvents => exact htheirs.elim
  exact Goes.idle (Calls.call ⟨ha, hx⟩) S' rfl rfl

end Steps

/-! ## Every run -/

/-- No assert fails in an orderly step, of the server or of the poller, and no
object is used that is gone. -/
theorem step_goes {a : Act} (S : Sound cfg s) (ha : enabled s a) (hg : Orderly s a) : Goes cfg s a := by
  cases a with
  | socket fd => exact socket_goes S ha
  | listen => exact listen_goes S ha
  | poll revents numEvents => exact poll_goes S ha
  | accept fd => exact accept_goes S ha
  | handleRead close => exact handleRead_goes S ha hg
  | pass => exact pass_goes S ha
  | ret => exact ret_goes S ha
  | removeConn name => exact removeConn_goes S hg
  | getConn name => exact getConn_goes S name
  | drop c => exact drop_goes S ha
  | setInterest c i => exact setInterest_goes S hg
  | shutdown c => exact shutdown_goes S hg
  | other a => exact other_goes S ha

/-- The run, as the server's own machine has it. -/
def served (tr : List (St × Act)) : List (TcpServer.St × TcpServer.Act) := seen St.server act tr

theorem run_sound {tr : List (St × Act)} (h : Run (machine cfg) tr s) (hG : Meets Orderly tr) :
    Sound cfg s ∧ Run (TcpServer.machine cfg.config) (served tr) s.server ∧ Meets TcpServer.Orderly (served tr) := by
  refine h.simulates_if (Sound cfg) Orderly TcpServer.Orderly St.server act (sound_init cfg) rfl ?_ hG
  intro s a s' S ha hg hx
  obtain ⟨t, hx', S', hstep, hb⟩ := step_goes S ha hg
  rw [show exec cfg s a = some s' from hx] at hx'
  cases hx'
  exact ⟨S', hstep, hb⟩

/-! ## Objects and the pointers to them -/

/-- The connection whose `connectDestroyed` is in its callback. -/
def destroying (s : St) : Option ConnId :=
  match s.server.stack 0 with
  | .destroyed c :: _ => some c
  | _ => none

/-- What the user has to see to. `removeConn` is called as `TcpServer.Orderly`
says, and no channel is read to its end whose connection has been destroyed. The
last pointer to a connection is not given up, by a removal or by the user, while
its channel is still to be handled. The user calls a connection by a pointer,
and leaves the channel of one that is down alone. -/
def Careful (cfg : Setup) (s : St) : Act → Prop
  | .removeConn name => TcpServer.Orderly s.server (.removeConn 0 name)
  | .handleRead close => ∀ c ∈ s.activeChannels.head?.bind Chan.conn?,
      close = true → (s.server.conn c).state ≠ .kDisconnected
  | .ret => ∀ c ∈ destroying s, c ∈ s.held ∨ .conn c ∉ s.activeChannels
  | .drop c => Listed cfg s c ∨ c ∈ s.held.erase c ∨ .conn c ∉ s.activeChannels
  | .setInterest c _ => (Listed cfg s c ∨ c ∈ s.held) ∧
      ((s.server.conn c).state = .kConnected ∨ (s.server.conn c).state = .kDisconnecting)
  | .shutdown c => Listed cfg s c ∨ c ∈ s.held
  | _ => True

instance (s : St) : ∀ a, Decidable (Careful cfg s a)
  | .removeConn name => inferInstanceAs (Decidable (TcpServer.Orderly s.server (.removeConn 0 name)))
  | .handleRead _ => inferInstanceAs (Decidable (∀ c ∈ s.activeChannels.head?.bind Chan.conn?, _ → _))
  | .ret => inferInstanceAs (Decidable (∀ c ∈ destroying s, _ ∨ _))
  | .drop _ => inferInstanceAs (Decidable (_ ∨ _ ∨ _))
  | .setInterest _ _ => inferInstanceAs (Decidable ((_ ∨ _) ∧ (_ ∨ _)))
  | .shutdown _ => inferInstanceAs (Decidable (_ ∨ _))
  | .socket _ => .isTrue trivial
  | .listen => .isTrue trivial
  | .poll _ _ => .isTrue trivial
  | .accept _ => .isTrue trivial
  | .pass => .isTrue trivial
  | .getConn _ => .isTrue trivial
  | .other _ => .isTrue trivial

/-- No object is gone whose channel is still to be handled. -/
structure Tended (cfg : Setup) (s : St) : Prop extends Sound cfg s where
  tended : ∀ c, .conn c ∈ s.activeChannels → Alive s c

theorem Careful.orderly {a : Act} (T : Tended cfg s) (h : Careful cfg s a) : Orderly s a := by
  cases a with
  | handleRead close =>
    intro c hc
    obtain ⟨ch, hch, hcc⟩ := Option.bind_eq_some_iff.1 hc
    obtain rfl : ch = .conn c := by
      cases ch <;> simp_all [Chan.conn?]
    exact ⟨T.tended c (List.mem_of_mem_head? hch), h c hc⟩
  | setInterest c i => exact ⟨(T.alive c).2 h.1, h.2⟩
  | shutdown c => exact (T.alive c).2 h
  | removeConn name => exact h
  | _ => trivial

/-- Of the objects that are there none goes. -/
def Keeps (s s' : St) : Prop := s'.activeChannels ⊆ s.activeChannels ∧ ∀ d, Alive s d → Alive s' d

theorem Keeps.trans {t : St} (h : Keeps s t) (h' : Keeps t s') : Keeps s s' :=
  ⟨fun _ hc => h.1 (h'.1 hc), fun d hd => h'.2 d (h.2 d hd)⟩

theorem Keeps.of_eq (ha : s'.activeChannels = s.activeChannels) (hs : s'.sockets = s.sockets) : Keeps s s' :=
  ⟨by rw [ha]; exact fun _ h => h, fun d hd => by rw [Alive, hs]; exact hd⟩

theorem Keeps.call {a : Descriptors.Act Chan} (hx : call s a = some s') : Keeps s s' := by
  obtain ⟨-, -, hx⟩ := Option.bind_eq_some_iff.1 hx
  obtain ⟨loop, -, hx⟩ := Option.bind_eq_some_iff.1 hx
  cases hx
  exact .of_eq rfl rfl

theorem Keeps.tail (s : St) : Keeps s { s with activeChannels := s.activeChannels.tail } :=
  ⟨fun _ h => List.mem_of_mem_tail h, fun _ h => h⟩

theorem Keeps.newConnection (hx : newConnection cfg s fd = some s') : Keeps s s' := by
  obtain ⟨server, -, hx⟩ := Option.bind_eq_some_iff.1 hx
  have h : Keeps s { s with server := server, sockets := (s.server.nextConnId, fd) :: s.sockets } :=
    ⟨fun _ h => h, fun d hd => List.mem_cons_of_mem _ hd⟩
  exact h.trans (.call hx)

/-- Of the pointer that goes it matters only whether it is the last one. -/
theorem release_alive (hx : release cfg s c = some s') : s'.activeChannels = s.activeChannels ∧
    ∀ d, Alive s d → Alive s' d ∨ d = c ∧ ¬ Listed cfg s c ∧ c ∉ s.held := by
  unfold release at hx
  split at hx
  · cases hx
    exact ⟨rfl, fun d hd => .inl hd⟩
  · rename_i hlast
    obtain ⟨fd, -, hx⟩ := Option.bind_eq_some_iff.1 hx
    obtain ⟨-, -, hx⟩ := Option.bind_eq_some_iff.1 hx
    obtain ⟨loop, -, hx⟩ := Option.bind_eq_some_iff.1 hx
    cases hx
    refine ⟨rfl, fun d hd => ?_⟩
    by_cases hdc : d = c
    · exact .inr ⟨hdc, not_or.1 hlast⟩
    · left
      have hd : d ∈ s.sockets.map Prod.fst := hd
      simpa [Alive, hdc] using hd

theorem Keeps.handleRead {close : Bool} (hx : handleRead cfg s c close = some s') : Keeps s s' := by
  obtain ⟨-, -, hx⟩ := Option.bind_eq_some_iff.1 hx
  obtain ⟨server, -, hx⟩ := Option.bind_eq_some_iff.1 hx
  have h : Keeps s { s with server := server, activeChannels := s.activeChannels.tail } :=
    (Keeps.tail s).trans (.of_eq rfl rfl)
  dsimp only at hx
  split at hx
  · obtain ⟨t, ht, hx⟩ := Option.bind_eq_some_iff.1 hx
    split at hx
    · cases hx
      exact h.trans (.call ht)
    · exact (h.trans (.call ht)).trans (.call hx)
  · cases hx
    exact h

/-- The callback of `connectDestroyed` returns with what may be the last pointer. -/
theorem ret_alive (hx : ret cfg s = some s') : s'.activeChannels = s.activeChannels ∧
    ∀ d, Alive s d → Alive s' d ∨ destroying s = some d ∧ d ∉ s.held := by
  obtain ⟨server, -, hx⟩ := Option.bind_eq_some_iff.1 hx
  unfold destroying
  split at hx
  · obtain ⟨-, -, hx⟩ := Option.bind_eq_some_iff.1 hx
    obtain ⟨-, -, hx⟩ := Option.bind_eq_some_iff.1 hx
    obtain ⟨loop, -, hx⟩ := Option.bind_eq_some_iff.1 hx
    cases hx
    exact ⟨rfl, fun d hd => .inl hd⟩
  · rename_i c rest hq
    obtain ⟨-, -, hx⟩ := Option.bind_eq_some_iff.1 hx
    obtain ⟨t, ht, hx⟩ := Option.bind_eq_some_iff.1 hx
    obtain ⟨-, -, ht⟩ := Option.bind_eq_some_iff.1 ht
    obtain ⟨loop, -, ht⟩ := Option.bind_eq_some_iff.1 ht
    cases ht
    obtain ⟨hact, hal⟩ := release_alive hx
    refine ⟨hact, fun d hd => (hal d hd).imp_right ?_⟩
    rintro ⟨rfl, -, hh⟩
    rw [hq]
    exact ⟨rfl, hh⟩
  · cases hx
    exact ⟨rfl, fun d hd => .inl hd⟩

/-- A step but `poll` makes the list no longer, and the objects stay that a
pointer is left to. -/
theorem step_alive {a : Act} (ha : ∀ revents numEvents, a ≠ .poll revents numEvents) (hg : Careful cfg s a)
    (hx : exec cfg s a = some s') : s'.activeChannels ⊆ s.activeChannels ∧
      ∀ d, .conn d ∈ s.activeChannels → Alive s d → Alive s' d := by
  have keeps : Keeps s s' → s'.activeChannels ⊆ s.activeChannels ∧
      ∀ d, .conn d ∈ s.activeChannels → Alive s d → Alive s' d := fun h => ⟨h.1, fun d _ => h.2 d⟩
  cases a with
  | socket fd =>
    obtain ⟨t, ht, rfl⟩ := Option.map_eq_some_iff.1 hx
    exact keeps ((Keeps.call ht).trans (.of_eq rfl rfl))
  | listen =>
    obtain ⟨fd, -, hx⟩ := Option.bind_eq_some_iff.1 hx
    have h : Keeps s { s with listenning := true } := .of_eq rfl rfl
    exact keeps (h.trans (.call hx))
  | poll revents numEvents => exact absurd rfl (ha revents numEvents)
  | accept fd =>
    cases fd with
    | none =>
      cases hx
      exact keeps (.tail s)
    | some fd =>
      obtain ⟨t, ht, hx⟩ := Option.bind_eq_some_iff.1 hx
      exact keeps (((Keeps.tail s).trans (.call ht)).trans (.newConnection hx))
  | handleRead close =>
    obtain ⟨c, -, hx⟩ := Option.bind_eq_some_iff.1 hx
    exact keeps (.handleRead hx)
  | pass =>
    cases hx
    exact keeps (.tail s)
  | ret =>
    obtain ⟨hact, hal⟩ := ret_alive hx
    refine ⟨by rw [hact]; exact fun _ h => h, fun d hm hd => (hal d hd).resolve_right ?_⟩
    rintro ⟨hc, hh⟩
    exact (hg d hc).elim hh fun h => h hm
  | removeConn name =>
    obtain ⟨server, -, hx⟩ := Option.bind_eq_some_iff.1 hx
    have h : Keeps s { s with server := server } := .of_eq rfl rfl
    dsimp only at hx
    split at hx
    · cases hx
      exact keeps h
    · exact keeps (h.trans (.call hx))
  | getConn name =>
    cases hx
    exact keeps (.of_eq rfl rfl)
  | drop c =>
    obtain ⟨hact, hal⟩ := release_alive hx
    refine ⟨by rw [hact]; exact fun _ h => h, fun d hm hd => (hal d hd).resolve_right ?_⟩
    rintro ⟨rfl, hl, hh⟩
    rcases hg with h | h | h
    · exact hl h
    · exact hh h
    · exact h hm
  | setInterest c i =>
    obtain ⟨-, -, hx⟩ := Option.bind_eq_some_iff.1 hx
    obtain ⟨t, ht, hx⟩ := Option.bind_eq_some_iff.1 hx
    split at hx
    · obtain ⟨server, -, hx⟩ := Option.bind_eq_some_iff.1 hx
      cases hx
      exact keeps ((Keeps.call ht).trans (.of_eq rfl rfl))
    · cases hx
      exact keeps (.call ht)
  | shutdown c =>
    obtain ⟨-, -, hx⟩ := Option.bind_eq_some_iff.1 hx
    obtain ⟨server, -, hx⟩ := Option.bind_eq_some_iff.1 hx
    cases hx
    exact keeps (.of_eq rfl rfl)
  | other a => exact keeps (.call hx)

theorem step_tended {a : Act} (T : Tended cfg s) (ha : enabled s a) (hg : Careful cfg s a)
    (hx : exec cfg s a = some s') : Tended cfg s' := by
  obtain ⟨t, hx', S', -⟩ := step_goes T.toSound ha (hg.orderly T)
  cases hx.symm.trans hx'
  refine ⟨S', ?_⟩
  by_cases hp : ∃ revents numEvents, a = .poll revents numEvents
  -- what `poll` gives is in the poller, so `connections_` has it
  · obtain ⟨revents, numEvents, rfl⟩ := hp
    obtain ⟨chan, new, hpoll, -, -, -, hnew⟩ := Descriptors.poll_eq T.inv ha.2.2
    obtain ⟨p, hp, hx⟩ := Option.bind_eq_some_iff.1 hx
    cases hpoll.symm.trans hp
    cases hx
    intro c hc
    have hal : Alive s c := (T.alive c).2 (.inl ((T.made c).1 (hnew _ hc).1))
    exact hal
  · obtain ⟨hact, hal⟩ := step_alive (fun r n h => hp ⟨r, n, h⟩) hg hx
    exact fun c hc => hal c (hact hc) (T.tended c (hact hc))

theorem run_tended {tr : List (St × Act)} (h : Run (machine cfg) tr s) (hG : Meets (Careful cfg) tr) :
    Tended cfg s :=
  h.inv_if (Tended cfg) (Careful cfg) ⟨sound_init cfg, fun _ h => by cases h⟩
    (fun _ _ _ T ha hg hx => step_tended T ha hg hx) hG

/-- A run whose steps are all `Orderly`, so that no connection is handled or
called that is gone, and `removeConn` and the end of a stream find none that is
down, is such a run of `TcpServer.machine`, whose `watched` says for which
connections `poll` does not ignore the slot. -/
theorem serves {tr : List (St × Act)} (h : Run (machine cfg) tr s) (hG : Meets Orderly tr) :
    Run (TcpServer.machine cfg.config) (served tr) s.server ∧ Meets TcpServer.Orderly (served tr) ∧
    ∀ c, (s.server.conn c).watched = true ↔ Descriptors.Made s.loop (.conn c) ∧
      ∃ p, s.loop.slot? (.conn c) = some p ∧ p.fd = (s.loop.chan (.conn c)).fd := by
  obtain ⟨S, hrun, hO⟩ := run_sound h hG
  refine ⟨hrun, hO, fun c => ?_⟩
  rw [S.watched c, S.inv.made_iff, S.made c]
  refine and_congr_right fun _ => ?_
  constructor
  · rintro ⟨e, he⟩
    obtain ⟨p, hp, hpe⟩ := Option.map_eq_some_iff.1 he
    exact ⟨p, hp, congrArg Prod.fst hpe⟩
  · rintro ⟨p, hp, hf⟩
    exact ⟨p.events, by rw [asked, hp, ← hf]; rfl⟩

/-- With no close callback: one connection is closed by its peer, while the
other has its interest dropped. -/
theorem serves_two : ∃ tr s, Run (machine ⟨"s", false⟩) tr s ∧
    Run (TcpServer.machine ⟨"s", 0, false⟩) (served tr) s.server ∧ (served tr).length = 9 ∧
    s.loop.pollfds = [⟨3, 3, 1⟩, ⟨-6, 0, 0⟩] ∧ (s.server.conn 2).watched = false := by
  obtain ⟨r, hr, hG, hlen, hp, hw⟩ : ∃ r ∈ (machine ⟨"s", false⟩).play {}
      [.socket 3, .listen, .poll [1] 1, .accept (some 4), .ret, .poll [1, 1] 2, .accept (some 5), .ret,
        .handleRead true, .ret, .setInterest 2 .disableAll],
      Meets Orderly r.1 ∧ (served r.1).length = 9 ∧ r.2.loop.pollfds = [⟨3, 3, 1⟩, ⟨-6, 0, 0⟩] ∧
        (r.2.server.conn 2).watched = false := by decide +kernel
  have hrun := Machine.play_steps hr
  exact ⟨r.1, r.2, hrun, (serves hrun hG).1, hlen, hp, hw⟩

end Cppnetool.TcpServerSockets
