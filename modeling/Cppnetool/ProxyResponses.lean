import Cppnetool.ProxyStream
/-!
# The stream to a client

What an upstream connection of a session reads goes at once to the connection
that the session is made for, as long as that is open: one read after the
other, also where one upstream connection takes the place of another. What is
read after the client has gone reaches no one.
-/
open Lib

namespace Cppnetool.Proxy

open TcpServer (ConnId)
open Connector (Sock Errno Timer)

variable {name : String} {s s' t : St} {a : Act} {c : ConnId} {j k : SessionId} {n : TcpClient.ConnId}
  {se se' : Session} {l : Link} {data : List Byte} {e : Errno} {tr : List (St × Act)}

/-! ## What is read for a client -/

/-- What an event reads from an upstream connection of session `k`. -/
def Act.responds (k : SessionId) : Act → List Byte
  | .upstreamMessage j _ data => if j = k then data else []
  | _ => []

/-- What the upstream connections of session `k` have read in a run, and what
of it while its client was connected. -/
def responses (k : SessionId) (tr : List (St × Act)) : List Byte := (tr.map Prod.snd).flatMap (Act.responds k)

def responsesOpen (k : SessionId) (tr : List (St × Act)) : List Byte :=
  tr.flatMap fun p => if Open p.1 k then p.2.responds k else []

theorem responses_snoc (k : SessionId) (tr : List (St × Act)) (p : St × Act) :
    responses k (tr ++ [p]) = responses k tr ++ p.2.responds k := by
  simp [responses]

theorem responsesOpen_snoc (k : SessionId) (tr : List (St × Act)) (p : St × Act) :
    responsesOpen k (tr ++ [p]) = responsesOpen k tr ++ if Open p.1 k then p.2.responds k else [] := by
  simp [responsesOpen]

/-! ## Handlers -/

theorem send_accepted (l : Link) (message : List Byte) :
    (l.send .kConnected message).accepted = l.accepted ++ message := by
  simp [Link.send]

/-- The messages of a client's own stream, as they are taken from its connection. -/
theorem onTcpClientConnection_accepted (S : Served name s) (hse : session name s k = some se)
    (hx : onTcpClientConnection name s k n = some s') : (s'.link k).accepted = (s.link k).accepted := by
  simp only [onTcpClientConnection, hse, Option.bind_eq_bind, Option.bind_some] at hx
  split at hx
  · obtain ⟨p, -, hx⟩ := Option.bind_eq_some_iff.1 hx
    obtain ⟨-, -, hx⟩ := Option.bind_eq_some_iff.1 hx
    rw [S.getConn_fst] at hx
    by_cases ho : Open s k
    · rw [if_pos ho] at hx
      cases hx
      exact (congrArg Link.accepted link_setLink).trans rfl
    · rw [if_neg ho] at hx
      cases hx
      rfl
  · cases hx
    rfl

/-- All that is in the upstream connection's buffer is sent to an open client. -/
theorem onTcpClientMessage_sends (S : Served name s) (hse : session name s k = some se)
    (hx : onTcpClientMessage name s k n = some s') :
    (s'.link k).accepted = (s.link k).accepted ++ (if Open s k then (se.upstream n).inputBuffer.readable else []) ∧
    (Open s k → ∃ se', session name s' k = some se' ∧
      se'.upstream = Function.update se.upstream n (se.upstream n).retrieveAsString.2) := by
  simp only [onTcpClientMessage, hse, Option.bind_eq_bind, Option.bind_some] at hx
  obtain ⟨p, -, hx⟩ := Option.bind_eq_some_iff.1 hx
  obtain ⟨-, -, hx⟩ := Option.bind_eq_some_iff.1 hx
  rw [S.getConn_fst] at hx
  by_cases ho : Open s k
  · have hst : ((getConn s (clientName name k)).2.server.conn k).state = .kConnected :=
      (keeps_getConn k s _ : Keeps name k s _).open_iff.2 ho
    rw [if_pos ho] at hx
    simp only [hst] at hx
    cases hx
    refine ⟨?_, fun _ => ⟨_, session_setSession, rfl⟩⟩
    rw [if_pos ho]
    exact (congrArg Link.accepted link_setLink).trans (send_accepted _ _)
  · rw [if_neg ho] at hx
    cases hx
    refine ⟨?_, fun h => absurd h ho⟩
    rw [if_neg ho, List.append_nil]
    rfl

/-! ## What waits at an upstream connection -/

/-- Nothing waits in the input buffer. -/
def Link.Flushed (l : Link) : Prop := l.inputBuffer.Wf ∧ l.inputBuffer.readable = []

def Session.Flushed (se : Session) : Prop := ∀ n, (se.upstream n).Flushed

theorem Session.Flushed.update (h : se.Flushed) (hl : l.Flushed)
    (hu : se'.upstream = Function.update se.upstream n l) : se'.Flushed := by
  intro m
  rw [hu]
  by_cases hm : m = n
  · rw [hm, Function.update_self]
    exact hl
  · rw [Function.update_of_ne hm]
    exact h m

theorem Session.Flushed.congr (h : se.Flushed) (hu : se'.upstream = se.upstream) : se'.Flushed := by
  intro m
  rw [hu]
  exact h m

theorem flushed_send (h : l.Flushed) (state : TcpConnection.StateE) (message : List Byte) :
    (l.send state message).Flushed := by
  rw [Link.Flushed, (send_spec l state message).2.1]
  exact h

theorem flushed_retrieve (h : l.inputBuffer.Wf) : l.retrieveAsString.2.Flushed :=
  ⟨retrieveAsString_wf h, Buffer.retrieveAll_readable⟩

theorem flushed_new (h : l.inputBuffer = .new) : l.Flushed := by
  rw [Link.Flushed, h]
  exact ⟨Buffer.new_wf, Buffer.new_readable⟩

/-- A message of the upstream connection is sent on whole. -/
theorem upstreamMessage_sends (S : Served name s) (hse : session name s k = some se)
    (hf : Open s k → se.Flushed) (hx : upstreamMessage name s k n data = some s') :
    (s'.link k).accepted = (s.link k).accepted ++ (if Open s k then data else []) ∧
    (Open s k → ∃ se', session name s' k = some se' ∧ se'.Flushed) := by
  simp only [upstreamMessage, hse, Option.bind_eq_bind, Option.bind_some] at hx
  obtain ⟨l, hl, hx⟩ := Option.bind_eq_some_iff.1 hx
  have hk : Keeps name k s (setSession name s k (se.setUpstream n l)) := keeps_setSession s k _
  obtain ⟨h1, h2⟩ := onTcpClientMessage_sends (hk.served S) session_setSession hx
  rw [upstream_setUpstream] at h1 h2
  by_cases ho : Open s k
  · obtain ⟨hw, hr, -⟩ := readFd_spec (hf ho n).1 hl
    obtain ⟨se', hse', hu⟩ := h2 (hk.open_iff.2 ho)
    rw [if_pos (hk.open_iff.2 ho), hr, (hf ho n).2, List.nil_append] at h1
    rw [if_pos ho]
    refine ⟨h1, fun _ => ⟨se', hse', (hf ho).update (flushed_retrieve hw) (n := n) ?_⟩⟩
    rw [hu, Session.setUpstream, Function.update_idem]
  · rw [if_neg fun h => ho (hk.open_iff.1 h)] at h1
    rw [if_neg ho]
    exact ⟨h1, fun h => absurd h ho⟩

/-! ## Steps -/

/-- There is a session for accepted connections only, and where its client is
connected nothing waits to be sent to it. -/
structure Answered (name : String) (s : St) : Prop where
  conserved : Conserved name s
  born : ∀ k se, session name s k = some se → k < s.server.nextConnId
  silent : ∀ c, s.server.nextConnId ≤ c → (s.link c).accepted = []
  flushed : ∀ k se, session name s k = some se → Open s k → se.Flushed

theorem answered_init : Answered name (machine name).init where
  conserved := conserved_init
  born _ _ h := by cases h
  silent _ _ := rfl
  flushed _ _ h := by cases h

/-- What a step sends to the clients. None is opened again, and one whose
session stays is closed by its peer. -/
structure Sends (name : String) (a : Act) (s s' : St) : Prop where
  accepted : ∀ c, (s'.link c).accepted = (s.link c).accepted ++ if Open s c then a.responds c else []
  nextConnId : s.server.nextConnId ≤ s'.server.nextConnId
  opened : ∀ c, Open s' c → Open s c ∨ c = s.server.nextConnId
  closed : ∀ c, Open s c → Open s' c ∨ a = .clientClose c ∨ session name s' c = none

theorem accepted_none (hl : (s'.link c).accepted = (s.link c).accepted) (ha : a.responds c = []) :
    (s'.link c).accepted = (s.link c).accepted ++ if Open s c then a.responds c else [] := by
  rw [hl, ha, ite_self, List.append_nil]

theorem Keeps.sends (h : Keeps name k s s') (ha : ∀ c, c ≠ k → a.responds c = [])
    (hk : (s'.link k).accepted = (s.link k).accepted ++ if Open s k then a.responds k else []) : Sends name a s s' where
  accepted c := by
    by_cases hc : c = k
    · rw [hc, hk]
    · exact accepted_none (by rw [h.link c hc]) (ha c hc)
  nextConnId := Nat.le_of_eq h.nextConnId.symm
  opened _ ho := .inl (h.open_iff.1 ho)
  closed _ ho := .inl (h.open_iff.2 ho)

/-- A step that sends nothing. -/
theorem Keeps.quiet (h : Keeps name k s s') (hl : (s'.link k).accepted = (s.link k).accepted)
    (ha : ∀ c, a.responds c = []) : Sends name a s s' :=
  h.sends (fun c _ => ha c) (accepted_none hl (ha k))

/-- A step of session `k` leaves the others alone. -/
theorem Answered.keeps (A : Answered name s) (C : Conserved name s') (h : Keeps name k s s')
    (hse : session name s k = some se) (hse' : session name s' k = some se') (hf : Open s k → se'.Flushed)
    (hs : Sends name a s s') : Answered name s' ∧ Sends name a s s' := by
  refine ⟨⟨C, ?_, ?_, ?_⟩, hs⟩
  · rw [h.nextConnId]
    exact forall_session h.other hse' (A.born k se hse) fun j se _ => A.born j se
  · intro c hc
    rw [h.nextConnId] at hc
    have hck : c ≠ k := fun hck => absurd (A.born k se hse) (Nat.not_lt.2 (hck ▸ hc))
    rw [h.link c hck]
    exact A.silent c hc
  · refine forall_session h.other hse' (fun ho => hf (h.open_iff.1 ho)) fun j se _ hj ho => ?_
    exact A.flushed j se hj (h.open_iff.1 ho)

theorem Answered.closes (A : Answered name s) (C : Conserved name s') (h : Closes name c s s')
    (hs : ∀ j se, session name s' j = some se → session name s j = some se) (ha : ∀ c, a.responds c = [])
    (hc : a = .clientClose c ∨ session name s' c = none) : Answered name s' ∧ Sends name a s s' := by
  refine ⟨⟨C, ?_, ?_, ?_⟩, fun c => accepted_none (by rw [h.link]) (ha c), Nat.le_of_eq h.nextConnId.symm,
    fun _ ho => .inl (h.open_iff.1 ho).2, fun d ho => ?_⟩
  · rw [h.nextConnId]
    exact fun j se hj => A.born j se (hs j se hj)
  · rw [h.nextConnId, h.link]
    exact A.silent
  · exact fun j se hj ho => A.flushed j se (hs j se hj) (h.open_iff.1 ho).2
  · by_cases hd : d = c
    · rw [hd]
      exact .inr hc
    · exact .inl (h.open_iff.2 ⟨hd, ho⟩)

theorem newConnection_answered (A : Answered name s) (C : Conserved name s') (hx : newConnection name s e = some s') :
    Answered name s' ∧ Sends name (.newConnection e) s s' := by
  obtain ⟨h, se, hse, -, -, hu, -⟩ := newConnection_spec hx
  refine ⟨⟨C, ?_, ?_, ?_⟩, fun c => accepted_none ?_ rfl, ?_, fun _ ho => (h.open_iff.1 ho).symm,
    fun _ ho => .inl (h.open_iff.2 (.inr ho))⟩
  · rw [h.nextConnId]
    exact forall_session h.other hse (Nat.lt_succ_self _) fun j se _ hj => Nat.lt_succ_of_lt (A.born j se hj)
  · intro c hc
    rw [h.nextConnId] at hc
    rw [h.link, Function.update_of_ne (Nat.ne_of_gt hc)]
    exact A.silent c (Nat.le_of_lt hc)
  · refine forall_session h.other hse (fun _ n => ?_) fun j se hj hse ho => ?_
    · rw [hu]
      exact flushed_new rfl
    · exact A.flushed j se hse ((h.open_iff.1 ho).resolve_left hj)
  · rw [h.link]
    by_cases hc : c = s.server.nextConnId
    · rw [hc, Function.update_self, A.silent _ (Nat.le_refl _)]
    · rw [Function.update_of_ne hc]
  · rw [h.nextConnId]
    exact Nat.le_succ _

theorem clientMessage_answered (A : Answered name s) (C : Conserved name s') (hc : Open s c)
    (hx : clientMessage name s c data e = some s') : Answered name s' ∧ Sends name (.clientMessage c data e) s s' := by
  obtain ⟨l, hl, hk, hx⟩ := clientMessage_spec A.conserved.served hc hx
  obtain ⟨se, hse⟩ := Option.ne_none_iff_exists'.1 (A.conserved.served.alive c hc)
  obtain ⟨hk', se', hse', -, -, h⟩ := onTcpServerMessage_spec (s := setLink s c l) hse hx
  have hla : l.accepted = (s.link c).accepted := by
    obtain ⟨⟨r, b⟩, -, hl⟩ := Option.bind_eq_some_iff.1 hl
    cases hl
    rfl
  have hf := A.flushed c se hse hc
  rw [link_setLink] at h
  rcases h with ⟨n, -, h1, -, -, h2⟩ | ⟨-, h1, h2, -⟩
  · exact A.keeps C (hk.trans hk') hse hse' (fun _ => hf.update (flushed_send (hf n) _ _) h2)
      ((hk.trans hk').quiet (by rw [h1]; exact hla) fun _ => rfl)
  · exact A.keeps C (hk.trans hk') hse hse' (fun _ => hf.congr h2)
      ((hk.trans hk').quiet (by rw [h1]; exact hla) fun _ => rfl)

theorem connectorEvent_accepted (S : Served name s) {i : Sock} {err out self : Bool} {soError : Int}
    (hse : session name s k = some se) (hx : connectorEvent name s k i err out soError self = some s') :
    (s'.link k).accepted = (s.link k).accepted := by
  simp only [connectorEvent, hse, Option.bind_eq_bind, Option.bind_some] at hx
  obtain ⟨t, -, hx⟩ := Option.bind_eq_some_iff.1 hx
  split at hx
  · cases hx
    rfl
  · obtain ⟨u, h1, hx⟩ := Option.bind_eq_some_iff.1 hx
    obtain ⟨se₁, -, hx⟩ := Option.bind_eq_some_iff.1 hx
    obtain ⟨v, -, hx⟩ := Option.bind_eq_some_iff.1 hx
    cases hx
    have hk : Keeps name k s _ := keeps_setSession s k
      ({ se with tcpClient := t }.setUpstream se.tcpClient.nextConnId { pair := se.pair })
    have h := onTcpClientConnection_accepted (hk.served S) session_setSession h1
    exact h

/-- A connection that is new to a session has an empty buffer. -/
theorem connectorEvent_answered (A : Answered name s) (C : Conserved name s') {i : Sock} {err out self : Bool}
    {soError : Int} (hse : session name s k = some se)
    (ha : TcpClient.enabled se.tcpClient (.connector (.handleEvent i err out soError self)))
    (hx : connectorEvent name s k i err out soError self = some s') :
    Answered name s' ∧ Sends name (.connectorEvent k i err out soError self) s s' := by
  have S := A.conserved.served
  obtain ⟨t, ht, h⟩ := connectorEvent_spec S hse hx
  rcases h with ⟨-, rfl⟩ | ⟨hcall, hk, -, se', hse', -, -, -, h⟩
  · have hk : Keeps name k s _ := keeps_setSession s k { se with tcpClient := t }
    exact A.keeps C hk hse session_setSession (fun ho => (A.flushed k se hse ho).congr rfl) (hk.quiet rfl fun _ => rfl)
  · have hst : (t.conn se.tcpClient.nextConnId).state = .kConnected := by
      rcases (A.conserved.wired k se hse).handleEvent ha ht with ⟨h, -⟩ | ⟨-, -, h, -⟩
      · exact absurd h hcall
      · exact h
    obtain ⟨-, h⟩ := h hst
    refine A.keeps C hk hse hse' (fun ho => ?_) (hk.quiet (connectorEvent_accepted S hse hx) fun _ => rfl)
    obtain ⟨-, hu⟩ := h ho
    exact (A.flushed k se hse ho).update (flushed_new rfl) hu

theorem upstreamMessage_answered (A : Answered name s) (C : Conserved name s') (hse : session name s k = some se)
    (hx : upstreamMessage name s k n data = some s') :
    Answered name s' ∧ Sends name (.upstreamMessage k n data) s s' := by
  have S := A.conserved.served
  obtain ⟨hk, -, -, se', hse', -⟩ := upstreamMessage_spec S hse hx
  obtain ⟨h1, h2⟩ := upstreamMessage_sends S hse (A.flushed k se hse) hx
  refine A.keeps C hk hse hse' (fun ho => ?_) (hk.sends (fun c hc => if_neg (Ne.symm hc)) ?_)
  · obtain ⟨se₁, hse₁, hf⟩ := h2 ho
    cases hse'.symm.trans hse₁
    exact hf
  · rw [h1, Act.responds, if_pos rfl]

theorem step_answered (A : Answered name s) (ha : enabled name s a) (hx : exec name s a = some s') :
    Answered name s' ∧ Sends name a s s' := by
  have S := A.conserved.served
  have C := step_conserved A.conserved ha hx
  cases a with
  | tick now =>
    cases hx
    exact ⟨⟨C, A.born, A.silent, A.flushed⟩, fun _ => accepted_none rfl rfl, Nat.le_refl _, fun _ => .inl, fun _ => .inl⟩
  | newConnection e => exact newConnection_answered A C hx
  | clientMessage c data e => exact clientMessage_answered A C (S.watched c ha.1) hx
  | clientClose c =>
    obtain ⟨h, hs, -⟩ := clientClose_spec S (S.watched c ha) hx
    refine A.closes C h (fun j se hj => ?_) (fun _ => rfl) (.inl rfl)
    rw [session, hs] at hj
    exact hj
  | connectorEvent k i err out soError self =>
    obtain ⟨se, hse, ha⟩ := ha
    exact connectorEvent_answered A C hse ha hx
  | upstreamMessage k n data =>
    obtain ⟨-, se, hse, -⟩ := ha
    exact upstreamMessage_answered A C hse hx
  | upstreamClose k n =>
    obtain ⟨se, hse, -⟩ := ha
    obtain ⟨t, u, v, -, -, -, rfl⟩ := upstreamClose_spec hse hx
    have hk : Keeps name k s _ := keeps_setSession s k { se with tcpClient := v }
    exact A.keeps C hk hse session_setSession (fun ho => (A.flushed k se hse ho).congr rfl) (hk.quiet rfl fun _ => rfl)
  | timers k ts rest es =>
    obtain ⟨-, se, hse, -⟩ := ha
    obtain ⟨t, u, -, -, rfl⟩ := timers_spec hse hx
    have hk : Keeps name k s _ := keeps_setSession s k { se with tcpClient := u }
    exact A.keeps C hk hse session_setSession (fun ho => (A.flushed k se hse ho).congr rfl) (hk.quiet rfl fun _ => rfl)
  | expire k =>
    obtain ⟨h, hnone, -⟩ := eraseSession_spec S hx
    refine A.closes C h (fun j se hj => ?_) (fun _ => rfl) (.inr hnone)
    by_cases hk : j = k
    · subst hk
      rw [hnone] at hj
      cases hj
    · rw [← h.other j hk]
      exact hj

/-! ## Runs -/

/-- What the clients have been sent, and that a client that is connected has
been all the time since it was accepted. -/
structure Sent (name : String) (tr : List (St × Act)) (s : St) : Prop where
  answered : Answered name s
  accepted : ∀ c, (s.link c).accepted = responsesOpen c tr
  unborn : ∀ c, s.server.nextConnId ≤ c → responses c tr = []
  whole : ∀ c, Open s c → responsesOpen c tr = responses c tr

/-- Nothing is read for a client that is not there yet. -/
theorem responds_unborn (A : Answered name s) (ha : enabled name s a) (hc : s.server.nextConnId ≤ c) :
    a.responds c = [] := by
  cases a with
  | upstreamMessage k n data =>
    obtain ⟨-, se, hse, -⟩ := ha
    have hk := A.born k se hse
    exact if_neg fun h => absurd (h ▸ hk) (Nat.not_lt.2 hc)
  | _ => rfl

theorem sent_run (h : Run (machine name) tr s) : Sent name tr s := by
  refine h.inv_trace (I := Sent name) ⟨answered_init, fun _ => rfl, fun _ _ => rfl, fun _ _ => rfl⟩ ?_
  intro tr t a u _ H ha hx
  have S := H.answered.conserved.served
  obtain ⟨A, hs⟩ := step_answered H.answered ha hx
  refine ⟨A, fun c => ?_, fun c hc => ?_, fun c ho => ?_⟩
  · rw [hs.accepted c, H.accepted c, responsesOpen_snoc]
  · have hc := Nat.le_trans hs.nextConnId hc
    rw [responses_snoc, H.unborn c hc, responds_unborn H.answered ha hc]
    rfl
  · rw [responses_snoc, responsesOpen_snoc]
    rcases hs.opened c ho with ho | rfl
    · rw [if_pos ho, H.whole c ho]
    · have hle := Nat.le_refl t.server.nextConnId
      have hno : ¬ Open t t.server.nextConnId := fun h => absurd (S.fresh _ h) (Nat.lt_irrefl _)
      rw [if_neg hno, responds_unborn H.answered ha hle, H.unborn _ hle, ← H.accepted, H.answered.silent _ hle]

/-- What `send` of a client's connection has taken is what the upstream
connections of its own session have read while it was connected, in the order
in which they read it. A client that is connected has been sent all that they
ever read, and nothing is left in their buffers. -/
theorem responses_conserved (h : Run (machine name) tr s) (k : SessionId) :
    (s.link k).accepted = responsesOpen k tr ∧
    (Open s k → (s.link k).accepted = responses k tr ∧
      ∀ se ∈ session name s k, ∀ n, (se.upstream n).inputBuffer.readable = []) := by
  have H := sent_run h
  refine ⟨H.accepted k, fun ho => ⟨(H.accepted k).trans (H.whole k ho), ?_⟩⟩
  intro se hse n
  exact (H.answered.flushed k se hse ho n).2

/-- Two clients. The first gets what two upstream connections read one after
the other; what the second one's reads after it has gone is kept from it, and
from the other. -/
theorem responses_conserved_reconnect : ∃ tr s, Run (machine "0.0.0.0:8000") tr s ∧ Open s 1 ∧ ¬ Open s 2 ∧
    responses 1 tr = [7, 8, 9] ∧ responses 2 tr = [5, 6] ∧ responsesOpen 2 tr = [5] ∧
    ((s.link 2).accepted = responsesOpen 2 tr ∧
      (Open s 2 → (s.link 2).accepted = responses 2 tr ∧
        ∀ se ∈ session "0.0.0.0:8000" s 2, ∀ n, (se.upstream n).inputBuffer.readable = [])) := by
  obtain ⟨r, hr, h⟩ : ∃ r ∈ (machine "0.0.0.0:8000").play (machine "0.0.0.0:8000").init
      [.newConnection .EINPROGRESS, .newConnection .EINPROGRESS, .connectorEvent 1 0 false true 0 false,
        .connectorEvent 2 0 false true 0 false, .upstreamMessage 1 1 [7], .upstreamMessage 2 1 [5],
        .upstreamClose 1 1, .clientMessage 1 [4] .EINPROGRESS, .connectorEvent 1 1 false true 0 false, .clientClose 2,
        .upstreamMessage 2 1 [6], .upstreamMessage 1 2 [8, 9]],
      Open r.2 1 ∧ ¬ Open r.2 2 ∧ responses 1 r.1 = [7, 8, 9] ∧ responses 2 r.1 = [5, 6] ∧
        responsesOpen 2 r.1 = [5] := by decide +kernel
  have hrun := Machine.play_steps hr
  exact ⟨r.1, r.2, hrun, h.1, h.2.1, h.2.2.1, h.2.2.2.1, h.2.2.2.2, responses_conserved hrun 2⟩

end Cppnetool.Proxy
