import Cppnetool.TcpServer
/-!
# The connection table

`connections_` in every run of a server, orderly or not. An entry with a
connection is there from its acceptance to the end of its removal, whatever
callbacks do in between. A null entry comes from a lookup of a name that has
none, and from nothing else.
-/
open Lib

namespace Cppnetool.TcpServer

open TcpConnection (StateE)

variable {cfg : Config} {s s' : St} {l : Loop} {c d : ConnId} {k : Conn} {name : String}

def Accepted (s : St) (c : ConnId) : Prop := 1 ≤ c ∧ c < s.nextConnId

/-- `connectDestroyed` has run for the connection, and has returned to the
function that erases its entry. -/
def Removed (s : St) (c : ConnId) : Prop := (s.conn c).state = .kDisconnected ∧ ∀ l, .destroyed c ∉ s.stack l

/-- The keys are the names of the connections accepted and not yet removed, and
no pointer is null. -/
structure Exact (cfg : Config) (s : St) : Prop where
  keys : ∀ name, s.connections.find name ≠ none ↔ ∃ c, Accepted s c ∧ ¬ Removed s c ∧ connName cfg c = name
  nonnull : ∀ name, s.connections.find name ≠ some none

/-- What `getConn` and `removeConn` look up is in the table. -/
def Present (s : St) : Act → Prop
  | .getConn _ name | .removeConn _ name => s.connections.find name ≠ none
  | _ => True

instance (s : St) : ∀ a, Decidable (Present s a)
  | .getConn _ name | .removeConn _ name => inferInstanceAs (Decidable (s.connections.find name ≠ none))
  | .newConnection | .poll _ _ | .handleEvent _ _ | .runFunctor _ | .ret _ | .shutdown _ | .disableAll _ =>
    .isTrue trivial

/-! ## What every step keeps -/

/-- Only connections that were accepted are known anywhere; each is destroyed
in at most one callback, and has its entry until that callback returns. -/
structure Table (cfg : Config) (s : St) : Prop where
  first : 1 ≤ s.nextConnId
  fresh : ∀ c, ¬ Accepted s c → (s.conn c).state = .kConnecting ∧ (s.conn c).watched = false
  pending : ∀ l, ∀ f ∈ s.pending l, Accepted s f.conn
  active : ∀ l, ∀ c ∈ s.active l, Accepted s c
  stack : ∀ l, ∀ fr ∈ s.stack l, Accepted s fr.conn
  destroyed : ∀ l c, .destroyed c ∈ s.stack l → (s.conn c).state = .kDisconnected
  once : ∀ l c, (s.stack l).count (.destroyed c) ≤ 1
  unique : ∀ l l' c, .destroyed c ∈ s.stack l → .destroyed c ∈ s.stack l' → l = l'
  entry : ∀ name c, s.connections.find name = some (some c) ↔
    connName cfg c = name ∧ Accepted s c ∧ ¬ Removed s c

theorem table_init (cfg : Config) : Table cfg {} where
  first := Nat.le_refl 1
  fresh _ _ := ⟨rfl, rfl⟩
  pending _ _ h := absurd h List.not_mem_nil
  active _ _ h := absurd h List.not_mem_nil
  stack _ _ h := absurd h List.not_mem_nil
  destroyed _ _ h := absurd h List.not_mem_nil
  once _ _ := Nat.zero_le _
  unique _ _ _ h := absurd h List.not_mem_nil
  entry name c := iff_of_false (by simp) fun ⟨_, ⟨h1, h2⟩, _⟩ => absurd h2 (Nat.not_lt.2 h1)

/-- What `shutdown` makes of a connection. -/
theorem shutdown_state (k : Conn) :
    (if k.state = .kConnected then StateE.kDisconnecting else k.state) = .kDisconnected ↔ k.state = .kDisconnected := by
  split
  · rename_i h
    rw [h]; decide
  · exact Iff.rfl

theorem shutdown_fresh (h : k.state = .kConnecting ∧ k.watched = false) :
    (if k.state = .kConnected then StateE.kDisconnecting else k.state) = .kConnecting ∧ k.watched = false := by
  rw [h.1]
  exact ⟨rfl, h.2⟩

section Keeps
variable (T : Table cfg s)
include T

/-- A connection is changed, but not disconnected. -/
theorem Table.touch (hk : k.state = .kDisconnected ↔ (s.conn c).state = .kDisconnected)
    (hf : ¬ Accepted s c → k.state = .kConnecting ∧ k.watched = false) :
    Table cfg { s with conn := Function.update s.conn c k } := by
  have hstate : ∀ d, (Function.update s.conn c k d).state = .kDisconnected ↔ (s.conn d).state = .kDisconnected := by
    intro d
    by_cases hd : d = c
    · subst hd; rw [Function.update_self]; exact hk
    · rw [Function.update_of_ne hd]
  refine { T with fresh := ?_, destroyed := ?_, entry := ?_ }
  · intro d hd
    dsimp only
    by_cases hdc : d = c
    · subst hdc; rw [Function.update_self]; exact hf hd
    · rw [Function.update_of_ne hdc]; exact T.fresh d hd
  · intro l d hd
    exact (hstate d).2 (T.destroyed l d hd)
  · intro name d
    rw [T.entry name d]
    refine and_congr_right fun _ => and_congr_right fun _ => not_congr ?_
    exact and_congr (hstate d).symm Iff.rfl

/-- A list of functors loses some. -/
theorem Table.popPending {rest : List Functor} (h : rest ⊆ s.pending l) :
    Table cfg { s with pending := Function.update s.pending l rest } := by
  refine { T with pending := ?_ }
  intro l' f hf
  dsimp only at hf
  by_cases hl : l' = l
  · subst hl
    rw [Function.update_self] at hf
    exact T.pending l' f (h hf)
  · rw [Function.update_of_ne hl] at hf
    exact T.pending l' f hf

theorem Table.queueInLoop {f : Functor} (hf : Accepted s f.conn) : Table cfg (queueInLoop s l f) := by
  refine { T with pending := ?_ }
  intro l' g hg
  simp only [TcpServer.queueInLoop] at hg
  by_cases hl : l' = l
  · subst hl
    rw [Function.update_self, List.mem_append, List.mem_singleton] at hg
    rcases hg with hg | rfl
    · exact T.pending l' g hg
    · exact hf
  · rw [Function.update_of_ne hl] at hg
    exact T.pending l' g hg

theorem Table.setActive {active : List ConnId} (h : ∀ c ∈ active, Accepted s c) :
    Table cfg { s with active := Function.update s.active l active } := by
  refine { T with active := ?_ }
  intro l' d hd
  dsimp only at hd
  by_cases hl : l' = l
  · subst hl
    rw [Function.update_self] at hd
    exact h d hd
  · rw [Function.update_of_ne hl] at hd
    exact T.active l' d hd

/-- Callbacks begin or return, other than those of `connectDestroyed`. -/
theorem Table.setStack {frames : List Frame} (hacc : ∀ fr ∈ frames, Accepted s fr.conn)
    (hsame : ∀ c, frames.count (.destroyed c) = (s.stack l).count (.destroyed c)) :
    Table cfg { s with stack := Function.update s.stack l frames } := by
  have hcount : ∀ l' c, (Function.update s.stack l frames l').count (.destroyed c) = (s.stack l').count (.destroyed c) := by
    intro l' c
    by_cases hl : l' = l
    · subst hl; rw [Function.update_self]; exact hsame c
    · rw [Function.update_of_ne hl]
  have hmem : ∀ l' c, .destroyed c ∈ Function.update s.stack l frames l' ↔ .destroyed c ∈ s.stack l' := by
    intro l' c
    rw [← List.count_pos_iff, ← List.count_pos_iff, hcount]
  refine { T with stack := ?_, destroyed := ?_, once := ?_, unique := ?_, entry := ?_ }
  · intro l' fr hfr
    dsimp only at hfr
    by_cases hl : l' = l
    · subst hl
      rw [Function.update_self] at hfr
      exact hacc fr hfr
    · rw [Function.update_of_ne hl] at hfr
      exact T.stack l' fr hfr
  · intro l' c hc
    exact T.destroyed l' c ((hmem l' c).1 hc)
  · intro l' c
    exact le_of_eq_of_le (hcount l' c) (T.once l' c)
  · intro l₁ l₂ c h1 h2
    exact T.unique l₁ l₂ c ((hmem l₁ c).1 h1) ((hmem l₂ c).1 h2)
  · intro name c
    rw [T.entry name c]
    refine and_congr_right fun _ => and_congr_right fun _ => not_congr (and_congr_right fun _ => ?_)
    exact forall_congr' fun l' => not_congr (hmem l' c).symm

theorem Table.callBack {fr : Frame} (hacc : Accepted s fr.conn) (hfr : ∀ c, fr ≠ .destroyed c) :
    Table cfg (callBack s l fr) := by
  refine T.setStack ?_ ?_
  · intro g hg
    rcases List.mem_cons.1 hg with rfl | hg
    · exact hacc
    · exact T.stack l g hg
  · intro c
    exact List.count_cons_of_ne (hfr c)

theorem Table.connectDestroyed (hacc : Accepted s c) (hx : connectDestroyed s l c = some s') : Table cfg s' := by
  obtain ⟨_, ha, hx⟩ := Option.bind_eq_some_iff.1 hx
  rw [assert_eq_some] at ha
  cases hx
  have hne : (s.conn c).state ≠ .kDisconnected := by
    rcases ha with h | h <;> rw [h] <;> decide
  have hno : ∀ l, .destroyed c ∉ s.stack l := fun l h => hne (T.destroyed l c h)
  have hmem : ∀ l' d, .destroyed d ∈ Function.update s.stack l (.destroyed c :: s.stack l) l' ↔
      (.destroyed d ∈ s.stack l' ∨ d = c ∧ l' = l) := by
    intro l' d
    by_cases hl : l' = l
    · subst hl
      rw [Function.update_self, List.mem_cons]
      simp [or_comm]
    · rw [Function.update_of_ne hl]
      simp [hl]
  refine ⟨T.first, ?_, T.pending, T.active, ?_, ?_, ?_, ?_, ?_⟩
  · intro d hd
    have hdc : d ≠ c := by rintro rfl; exact hd hacc
    dsimp only [TcpServer.callBack]
    rw [Function.update_of_ne hdc]
    exact T.fresh d hd
  · intro l' fr hfr
    dsimp only [TcpServer.callBack] at hfr
    by_cases hl : l' = l
    · subst hl
      rw [Function.update_self] at hfr
      rcases List.mem_cons.1 hfr with rfl | hfr
      · exact hacc
      · exact T.stack l' fr hfr
    · rw [Function.update_of_ne hl] at hfr
      exact T.stack l' fr hfr
  · intro l' d hd
    dsimp only [TcpServer.callBack] at hd ⊢
    by_cases hdc : d = c
    · subst hdc; rw [Function.update_self]
    · rw [Function.update_of_ne hdc]
      exact T.destroyed l' d (((hmem l' d).1 hd).resolve_right fun h => hdc h.1)
  · intro l' d
    dsimp only [TcpServer.callBack]
    by_cases hl : l' = l
    · subst hl
      rw [Function.update_self]
      by_cases hdc : d = c
      · subst hdc
        rw [List.count_cons_self, List.count_eq_zero_of_not_mem (hno l')]
      · rw [List.count_cons_of_ne (by simpa using Ne.symm hdc)]
        exact T.once l' d
    · rw [Function.update_of_ne hl]
      exact T.once l' d
  · intro l₁ l₂ d h1 h2
    rcases (hmem l₁ d).1 h1 with h1' | ⟨hd, e1⟩ <;> rcases (hmem l₂ d).1 h2 with h2' | ⟨hd', e2⟩
    · exact T.unique l₁ l₂ d h1' h2'
    · exact absurd (hd' ▸ h1') (hno l₁)
    · exact absurd (hd ▸ h2') (hno l₂)
    · exact e1.trans e2.symm
  · intro name d
    refine (T.entry name d).trans ?_
    refine and_congr_right fun _ => and_congr_right fun _ => not_congr ?_
    -- `c` was not removed, and is not while its callback runs
    by_cases hdc : d = c
    · subst hdc
      exact iff_of_false (fun h => hne h.1) fun h => h.2 l ((hmem l d).2 (.inr ⟨rfl, rfl⟩))
    · simp only [Removed, TcpServer.callBack]
      rw [Function.update_of_ne hdc]
      refine and_congr_right fun _ => forall_congr' fun l' => not_congr ?_
      rw [hmem l' d]
      simp [hdc]

theorem Table.connectEstablished (hacc : Accepted s c) (hx : connectEstablished s l c = some s') : Table cfg s' := by
  obtain ⟨_, ha, hx⟩ := Option.bind_eq_some_iff.1 hx
  rw [assert_eq_some] at ha
  cases hx
  refine (T.touch ?_ fun h => absurd hacc h).callBack hacc fun d h => by cases h
  exact iff_of_false (fun h => by cases h) (by rw [ha]; decide)

theorem Table.removeConnectionInLoop (hacc : Accepted s c) (hx : removeConnectionInLoop cfg s l c = some s') :
    Table cfg s' := by
  unfold TcpServer.removeConnectionInLoop at hx
  split at hx
  · cases hx
    exact T.callBack hacc fun d h => by cases h
  · exact T.connectDestroyed hacc hx

theorem Table.handleClose (hacc : Accepted s c) (hx : handleClose cfg s l c = some s') : Table cfg s' := by
  have T₁ := T.touch (c := c) (k := { s.conn c with watched := false }) Iff.rfl fun h => absurd hacc h
  simp only [TcpServer.handleClose] at hx
  split at hx
  · exact T₁.removeConnectionInLoop hacc hx
  · cases hx
    exact T₁.queueInLoop hacc

/-- The callback of `connectDestroyed` returns, and the entry is erased. -/
theorem Table.erase {rest : List Frame} (hq : s.stack l = .destroyed c :: rest)
    (hx : eraseConn { s with stack := Function.update s.stack l rest } (connName cfg c) = some s') : Table cfg s' := by
  obtain ⟨_, -, hx⟩ := Option.bind_eq_some_iff.1 hx
  cases hx
  have hin : .destroyed c ∈ s.stack l := by rw [hq]; exact List.mem_cons_self
  have hone : .destroyed c ∉ rest := by
    have := T.once l c
    rw [hq, List.count_cons_self] at this
    exact List.count_eq_zero.1 (by omega)
  have hmem : ∀ l' d, .destroyed d ∈ Function.update s.stack l rest l' ↔ .destroyed d ∈ s.stack l' ∧ d ≠ c := by
    intro l' d
    by_cases hl : l' = l
    · subst hl
      rw [Function.update_self, hq, List.mem_cons]
      constructor
      · intro h
        exact ⟨.inr h, fun hdc => hone (hdc ▸ h)⟩
      · rintro ⟨h | h, hdc⟩
        · cases h; exact absurd rfl hdc
        · exact h
    · rw [Function.update_of_ne hl]
      exact ⟨fun h => ⟨h, fun hdc => hl (T.unique l' l c (hdc ▸ h) hin)⟩, fun h => h.1⟩
  have hsub : ∀ l', (Function.update s.stack l rest l').Sublist (s.stack l') := by
    intro l'
    by_cases hl : l' = l
    · subst hl
      rw [Function.update_self, hq]
      exact List.sublist_cons_self _ _
    · rw [Function.update_of_ne hl]
  refine ⟨T.first, T.fresh, T.pending, T.active, fun l' fr hfr => T.stack l' fr ((hsub l').subset hfr),
    fun l' d hd => T.destroyed l' d ((hsub l').subset hd), fun l' d => le_trans ((hsub l').count_le _) (T.once l' d),
    fun l₁ l₂ d h1 h2 => T.unique l₁ l₂ d ((hsub l₁).subset h1) ((hsub l₂).subset h2), ?_⟩
  intro name d
  dsimp only
  by_cases hn : name = connName cfg c
  · subst hn
    rw [Map.find_erase_self]
    refine iff_of_false (by simp) ?_
    rintro ⟨hd, -, hr⟩
    cases connName_injective cfg hd
    exact hr ⟨T.destroyed l c hin, fun l' h => ((hmem l' c).1 h).2 rfl⟩
  · rw [Map.find_erase_ne hn, T.entry name d]
    refine and_congr_right fun hd => and_congr_right fun _ => not_congr (and_congr_right fun _ => ?_)
    have hdc : d ≠ c := by rintro rfl; exact hn hd.symm
    refine forall_congr' fun l' => not_congr ?_
    rw [hmem l' d]
    exact ⟨fun h => ⟨h, hdc⟩, fun h => h.1⟩

/-- A new connection, with its entry. -/
theorem Table.accept (ioLoop next : Loop) :
    Table cfg
      { s with
        next := next
        nextConnId := s.nextConnId + 1
        conn := Function.update s.conn s.nextConnId { loop := ioLoop }
        connections := s.connections.insert (connName cfg s.nextConnId) (some s.nextConnId) } := by
  have hmono : ∀ d, Accepted s d → 1 ≤ d ∧ d < s.nextConnId + 1 := fun d h => ⟨h.1, Nat.lt_succ_of_lt h.2⟩
  have hne : ∀ d, Accepted s d → d ≠ s.nextConnId := fun d h => Nat.ne_of_lt h.2
  have h1 := T.first
  refine ⟨Nat.le_succ_of_le h1, ?_, fun l f hf => hmono _ (T.pending l f hf), fun l d hd => hmono d (T.active l d hd),
    fun l fr hfr => hmono _ (T.stack l fr hfr), ?_, T.once, T.unique, ?_⟩
  · intro d hd
    have hdc : d ≠ s.nextConnId := by rintro rfl; exact hd ⟨h1, Nat.lt_succ_self _⟩
    dsimp only
    rw [Function.update_of_ne hdc]
    exact T.fresh d fun h => hd (hmono d h)
  · intro l d hd
    dsimp only
    rw [Function.update_of_ne (hne d (T.stack l _ hd))]
    exact T.destroyed l d hd
  · intro name d
    dsimp only
    by_cases hdc : d = s.nextConnId
    · subst hdc
      have hnr : ¬ ((Function.update s.conn s.nextConnId { loop := ioLoop }) s.nextConnId).state = .kDisconnected := by
        rw [Function.update_self]
        intro h
        cases h
      by_cases hn : name = connName cfg s.nextConnId
      · subst hn
        rw [Map.find_insert_self]
        exact iff_of_true rfl ⟨rfl, ⟨h1, Nat.lt_succ_self _⟩, fun h => hnr h.1⟩
      · rw [Map.find_insert_ne hn, T.entry name]
        exact iff_of_false (fun h => hn h.1.symm) fun h => hn h.1.symm
    · by_cases hn : name = connName cfg s.nextConnId
      · subst hn
        rw [Map.find_insert_self]
        refine iff_of_false (fun h => hdc (Option.some.inj (Option.some.inj h)).symm) ?_
        exact fun h => hdc (connName_injective cfg h.1)
      · rw [Map.find_insert_ne hn, T.entry name d]
        refine and_congr_right fun _ => ?_
        unfold Removed
        dsimp only
        rw [Function.update_of_ne hdc]
        refine and_congr_left fun _ => ?_
        exact ⟨hmono d, fun h => ⟨h.1, Nat.lt_of_le_of_ne (Nat.le_of_lt_succ h.2) hdc⟩⟩

/-- `connections_[name]` adds at most a null entry. -/
theorem Table.getConn (name : String) : Table cfg (getConn s name).2 := by
  unfold TcpServer.getConn
  cases h : s.connections.find name with
  | some o => exact T
  | none =>
    refine { T with entry := ?_ }
    intro name' d
    refine Iff.trans ?_ (T.entry name' d)
    dsimp only
    by_cases hn : name' = name
    · subst hn
      rw [Map.find_insert_self, h]
      simp
    · rw [Map.find_insert_ne hn]

theorem newConnection_table (hx : newConnection cfg s = some s') : Table cfg s' := by
  obtain ⟨ioLoop, next, hnext⟩ := getNextLoop_eq cfg s
  have T₁ := T.accept ioLoop next
  have hacc : Accepted { s with nextConnId := s.nextConnId + 1 } s.nextConnId := ⟨T.first, Nat.lt_succ_self _⟩
  simp only [newConnection, hnext] at hx
  split at hx
  · exact T₁.connectEstablished hacc hx
  · cases hx
    exact T₁.queueInLoop hacc

theorem handleEvent_table {close : Bool} (hx : handleEvent cfg s l close = some s') : Table cfg s' := by
  unfold handleEvent at hx
  split at hx
  · cases hx
  · rename_i c rest hq
    have hact := T.active l
    rw [hq] at hact
    have T₁ := T.setActive (l := l) fun d hd => hact d (List.mem_cons_of_mem _ hd)
    dsimp only at hx
    split at hx
    · exact T₁.handleClose (hact c List.mem_cons_self) hx
    · cases hx
      exact T₁

theorem runFunctor_table (hx : runFunctor cfg s l = some s') : Table cfg s' := by
  unfold runFunctor at hx
  split at hx
  · cases hx
  · rename_i f rest hq
    have hp := T.pending l
    rw [hq] at hp
    have T₁ := T.popPending (l := l) (by rw [hq]; exact List.subset_cons_self f rest)
    cases f with
    | connectEstablished c => exact T₁.connectEstablished (hp _ List.mem_cons_self) hx
    | removeConnectionInLoop c => exact T₁.removeConnectionInLoop (hp _ List.mem_cons_self) hx

theorem ret_table (hx : ret cfg s l = some s') : Table cfg s' := by
  unfold ret at hx
  split at hx
  · cases hx
  · rename_i fr rest hq
    have hs := T.stack l
    rw [hq] at hs
    have hpop (hfr : ∀ c, fr ≠ .destroyed c) : Table cfg { s with stack := Function.update s.stack l rest } := by
      refine T.setStack (fun g hg => hs g (List.mem_cons_of_mem _ hg)) ?_
      intro c
      rw [hq, List.count_cons_of_ne (hfr c)]
    cases fr with
    | established c =>
      cases hx
      exact hpop fun c h => by cases h
    | closing c => exact (hpop fun c h => by cases h).connectDestroyed (hs _ List.mem_cons_self) hx
    | destroyed c => exact T.erase hq hx

theorem removeConn_table (hx : removeConn s l name = some s') : Table cfg s' := by
  have T₁ := T.getConn name
  unfold removeConn at hx
  generalize hr : getConn s name = r at hx T₁
  obtain ⟨o, s₁⟩ := r
  cases o with
  | none =>
    cases hx
    exact T₁
  | some c =>
    have hacc : Accepted s₁ c := by
      unfold getConn at hr
      split at hr <;> cases hr
      exact ((T.entry name c).1 (by assumption)).2.1
    exact (T₁.touch (shutdown_state _) fun h => absurd hacc h).connectDestroyed hacc hx

/-- Every step keeps the table. -/
theorem step_table {a : Act} (ha : (machine cfg).enabled s a) (hx : (machine cfg).exec s a = some s') :
    Table cfg s' := by
  cases a with
  | newConnection => exact newConnection_table T hx
  | poll l active =>
    cases hx
    refine T.setActive fun c hc => ?_
    by_contra hno
    have := (ha.2.2.2.2 c hc).1
    rw [(T.fresh c hno).2] at this
    cases this
  | handleEvent l close => exact handleEvent_table T hx
  | runFunctor l => exact runFunctor_table T hx
  | ret l => exact ret_table T hx
  | removeConn l name => exact removeConn_table T hx
  | getConn l name =>
    cases hx
    exact T.getConn name
  | shutdown c =>
    cases hx
    exact T.touch (shutdown_state _) fun h => shutdown_fresh (T.fresh c h)
  | disableAll c =>
    cases hx
    exact T.touch Iff.rfl fun h => ⟨(T.fresh c h).1, rfl⟩

end Keeps

/-! ## Null entries -/

/-- Given the table, it is exact when it has no null entry. -/
theorem Table.exact (T : Table cfg s) (h : ∀ name, s.connections.find name ≠ some none) : Exact cfg s := by
  refine ⟨?_, h⟩
  intro name
  constructor
  · intro hn
    obtain ⟨o, ho⟩ := Option.ne_none_iff_exists'.1 hn
    cases o with
    | none => exact absurd ho (h name)
    | some c =>
      obtain ⟨h1, h2, h3⟩ := (T.entry name c).1 ho
      exact ⟨c, h2, h3, h1⟩
  · rintro ⟨c, h2, h3, h1⟩
    rw [(T.entry name c).2 ⟨h1, h2, h3⟩]
    simp

theorem connectEstablished_connections (hx : connectEstablished s l c = some s') : s'.connections = s.connections := by
  obtain ⟨_, -, hx⟩ := Option.bind_eq_some_iff.1 hx
  cases hx
  rfl

theorem connectDestroyed_connections (hx : connectDestroyed s l c = some s') : s'.connections = s.connections := by
  obtain ⟨_, -, hx⟩ := Option.bind_eq_some_iff.1 hx
  cases hx
  rfl

theorem removeConnectionInLoop_connections (hx : removeConnectionInLoop cfg s l c = some s') :
    s'.connections = s.connections := by
  unfold removeConnectionInLoop at hx
  split at hx
  · cases hx
    rfl
  · exact connectDestroyed_connections hx

theorem handleEvent_connections {close : Bool} (hx : handleEvent cfg s l close = some s') :
    s'.connections = s.connections := by
  unfold handleEvent handleClose at hx
  split at hx
  · cases hx
  · dsimp only at hx
    split at hx
    · split at hx
      · exact (removeConnectionInLoop_connections hx).trans rfl
      · cases hx
        rfl
    · cases hx
      rfl

theorem runFunctor_connections (hx : runFunctor cfg s l = some s') : s'.connections = s.connections := by
  unfold runFunctor at hx
  split at hx
  · cases hx
  · dsimp only at hx
    split at hx
    · exact (connectEstablished_connections hx).trans rfl
    · exact (removeConnectionInLoop_connections hx).trans rfl

/-- When a callback returns, the table stays or loses an entry. -/
theorem ret_connections (hx : ret cfg s l = some s') :
    s'.connections = s.connections ∨ ∃ c, s'.connections = s.connections.erase (connName cfg c) := by
  unfold ret at hx
  split at hx
  · cases hx
  · dsimp only at hx
    split at hx
    · cases hx
      exact .inl rfl
    · exact .inl ((connectDestroyed_connections hx).trans rfl)
    · obtain ⟨_, -, hx⟩ := Option.bind_eq_some_iff.1 hx
      cases hx
      exact .inr ⟨_, rfl⟩

theorem newConnection_connections (hx : newConnection cfg s = some s') :
    s'.connections = s.connections.insert (connName cfg s.nextConnId) (some s.nextConnId) := by
  obtain ⟨ioLoop, next, hnext⟩ := getNextLoop_eq cfg s
  simp only [newConnection, hnext] at hx
  split at hx
  · rw [connectEstablished_connections hx]
  · cases hx
    rfl

theorem removeConn_connections (hn : s.connections.find name ≠ none) (hx : removeConn s l name = some s') :
    s'.connections = s.connections := by
  obtain ⟨o, ho⟩ := Option.ne_none_iff_exists'.1 hn
  unfold removeConn getConn at hx
  rw [ho] at hx
  cases o with
  | none =>
    cases hx
    rfl
  | some c => exact (connectDestroyed_connections hx).trans rfl

/-- A step adds no null entry, unless it looks up a name that has none. -/
theorem step_nonnull {a : Act} (h : ∀ name, s.connections.find name ≠ some none) (hg : Present s a)
    (hx : (machine cfg).exec s a = some s') : ∀ name, s'.connections.find name ≠ some none := by
  have hsame (e : s'.connections = s.connections) : ∀ name, s'.connections.find name ≠ some none := by
    rw [e]
    exact h
  cases a with
  | newConnection =>
    intro name
    rw [newConnection_connections hx]
    by_cases hn : name = connName cfg s.nextConnId
    · rw [hn, Map.find_insert_self]
      simp
    · rw [Map.find_insert_ne hn]
      exact h name
  | ret l =>
    rcases ret_connections hx with e | ⟨c, e⟩
    · exact hsame e
    · intro name
      rw [e]
      by_cases hn : name = connName cfg c
      · rw [hn, Map.find_erase_self]
        simp
      · rw [Map.find_erase_ne hn]
        exact h name
  | handleEvent l close => exact hsame (handleEvent_connections hx)
  | runFunctor l => exact hsame (runFunctor_connections hx)
  | removeConn l name => exact hsame (removeConn_connections hg hx)
  | getConn l name =>
    cases hx
    refine hsame ?_
    obtain ⟨o, ho⟩ := Option.ne_none_iff_exists'.1 hg
    simp [getConn, ho]
  | poll l active => cases hx; exact h
  | shutdown c => cases hx; exact h
  | disableAll c => cases hx; exact h

/-- Such a lookup adds one. -/
theorem step_null {a : Act} (hg : ¬ Present s a) (hx : (machine cfg).exec s a = some s') :
    ∃ name, s'.connections.find name = some none := by
  cases a with
  | getConn l name =>
    have hn : s.connections.find name = none := not_not.1 hg
    cases hx
    exact ⟨name, by simp [getConn, hn]⟩
  | removeConn l name =>
    have hn : s.connections.find name = none := not_not.1 hg
    simp only [machine, removeConn, getConn, hn, Option.some.injEq] at hx
    subst hx
    exact ⟨name, Map.find_insert_self⟩
  | _ => exact absurd trivial hg

/-- In a run, the table is exact in every state exactly when `getConn` and
`removeConn` are only called with names that are in it. -/
theorem table_exact_iff {tr : List (St × Act)} (h : Run (machine cfg) tr s) :
    (∀ t, Visited tr s t → Exact cfg t) ↔ Meets Present tr := by
  refine h.throughout_iff (fun t => Table cfg t ∧ ∀ name, t.connections.find name ≠ some none) (Exact cfg) Present
    ⟨table_init cfg, fun _ h => by cases h⟩ (fun t ⟨T, hn⟩ => T.exact hn) ?_ ?_
  · rintro t a t' ⟨T, hn⟩ ha hg hx
    exact ⟨step_table T ha hx, step_nonnull hn hg hx⟩
  · rintro t a t' - - hg hx hE
    obtain ⟨name, hname⟩ := step_null hg hx
    exact hE.nonnull name hname

/-- Two connections come and go, one closed by its peer and one removed by
name; both are looked up before. -/
theorem table_exact_iff_two : ∃ tr s, Run (machine ⟨"s", 0, false⟩) tr s ∧ s.nextConnId = 3 ∧
    ∀ t, Visited tr s t → Exact ⟨"s", 0, false⟩ t := by
  obtain ⟨r, hr, hn, hG⟩ : ∃ r ∈ (machine ⟨"s", 0, false⟩).play {}
      [.newConnection, .ret 0, .newConnection, .ret 0, .getConn 0 "s#1", .poll 0 [1], .handleEvent 0 true, .ret 0,
        .getConn 0 "s#2", .removeConn 0 "s#2", .ret 0],
      r.2.nextConnId = 3 ∧ Meets Present r.1 := by decide
  have hrun := Machine.play_steps hr
  exact ⟨r.1, r.2, hrun, hn, (table_exact_iff hrun).2 hG⟩

/-- A connection is accepted and closed by its peer, and then removed by name,
as a session that outlives its client does: the table keeps a null entry. -/
theorem null_entry_removed : ∃ tr s, Run (machine ⟨"s", 0, false⟩) tr s ∧
    tr.map Prod.snd = [.newConnection, .ret 0, .poll 0 [1], .handleEvent 0 true, .ret 0, .removeConn 0 "s#1"] ∧
    s.connections.find "s#1" = some none ∧ ¬ Exact ⟨"s", 0, false⟩ s := by
  obtain ⟨r, hr, ha, hn⟩ : ∃ r ∈ (machine ⟨"s", 0, false⟩).play {}
      [.newConnection, .ret 0, .poll 0 [1], .handleEvent 0 true, .ret 0, .removeConn 0 "s#1"],
      r.1.map Prod.snd = [.newConnection, .ret 0, .poll 0 [1], .handleEvent 0 true, .ret 0, .removeConn 0 "s#1"] ∧
        r.2.connections.find "s#1" = some none := by decide
  exact ⟨r.1, r.2, Machine.play_steps hr, ha, hn, fun h => h.nonnull _ hn⟩

end Cppnetool.TcpServer
