import Cppnetool.Lib.Measure
/-!
# `Thread`

`base/Thread.h` and `base/Thread.cc`: a `Thread`, its owner, and the thread that
`start` makes. The new thread puts its id where `tid_` points, if that is still
there: it has a `weak_ptr` to it, in the `ThreadData` that it deletes when `func_`
has returned. The owner may destroy the `Thread` at any time; `~Thread` then lets
the new thread go on alone.

A step is `none` where an assert fails, and where memory that is freed or a
handle that is joined or detached is used.
-/
open Lib

namespace Cppnetool.Thread

/-- What the owner does. -/
inductive Owner
  | idle
  /-- In `start`, before `pthread_create`. -/
  | starting
  /-- In `pthread_join`. -/
  | joining
  /-- `~Thread` is done, its members are still there. -/
  | destroying
  | gone
  /-- `pthread_create` has failed. -/
  | aborted
deriving DecidableEq

/-- Where the new thread is. -/
inductive Child
  | absent
  /-- Before `wkTid_.lock()`. -/
  | entered
  /-- `ptid` is not null: before `*ptid = tid`, and before `ptid.reset()`. -/
  | locked
  | written
  /-- Before `func_()`, in it, and before `delete data`. -/
  | ready
  | running
  | returned
  | ended
deriving DecidableEq

/-- What `pthreadId_` stands for. -/
inductive Handle
  | none
  | joinable
  | joined
  | detached
deriving DecidableEq

/-- The `ThreadData`. -/
inductive Data
  | none
  | live
  | freed
deriving DecidableEq

structure St where
  owner : Owner := .idle
  child : Child := .absent
  started : Bool := false
  joined : Bool := false
  handle : Handle := .none
  data : Data := .none
  /-- `*tid_`, and the references to it. -/
  tid : Int := 0
  strong : Nat := 1
  weak : Nat := 0
  /-- How often `func_` has been called. -/
  calls : Nat := 0
deriving DecidableEq

inductive Act
  | start
  /-- `pthread_create`, which may fail. -/
  | create (ok : Bool)
  | join
  | joinReturns
  | tid
  /-- `~Thread`, and then its members. -/
  | destroy
  | release
  /-- The new thread takes its next step. -/
  | child
deriving DecidableEq

/-- The steps of `startThread`, in the thread with this id. -/
def step (gettid : Int) (s : St) : Option St :=
  match s.child with
  | .absent | .ended => none
  | .entered => do
    assert (s.data = .live ∧ 0 < s.strong + s.weak)
    return if s.strong = 0 then { s with child := .ready } else { s with child := .locked, strong := s.strong + 1 }
  | .locked => do
    assert (0 < s.strong)
    return { s with child := .written, tid := gettid }
  | .written => do
    assert (0 < s.strong)
    return { s with child := .ready, strong := s.strong - 1 }
  | .ready => do
    assert (s.data = .live)
    return { s with child := .running, calls := s.calls + 1 }
  | .running => some { s with child := .returned }
  | .returned => do
    assert (s.data = .live ∧ 0 < s.weak)
    return { s with child := .ended, data := .freed, weak := s.weak - 1 }

def exec (gettid : Int) (s : St) : Act → Option St
  | .start => do
    assert (s.started = false)
    return { s with started := true, owner := .starting, data := .live, weak := s.weak + 1 }
  | .create ok =>
    some (if ok then { s with owner := .idle, child := .entered, handle := .joinable }
      else { s with owner := .aborted, started := false, data := .freed, weak := s.weak - 1 })
  | .join => do
    assert (s.started = true)
    assert (s.joined = false)
    return { s with joined := true, owner := .joining }
  | .joinReturns => do
    assert (s.handle = .joinable)
    return { s with owner := .idle, handle := .joined }
  | .tid => do
    assert (0 < s.strong)
    return s
  | .destroy =>
    if s.started ∧ ¬ s.joined then do
      assert (s.handle = .joinable)
      return { s with owner := .destroying, handle := .detached }
    else some { s with owner := .destroying }
  | .release => do
    assert (0 < s.strong)
    return { s with owner := .gone, strong := s.strong - 1 }
  | .child => step gettid s

def enabled (s : St) : Act → Prop
  | .start | .join | .tid | .destroy => s.owner = .idle
  | .create _ => s.owner = .starting
  | .joinReturns => s.owner = .joining ∧ s.child = .ended
  | .release => s.owner = .destroying
  | .child => s.owner ≠ .aborted ∧ s.child ≠ .absent ∧ s.child ≠ .ended

instance (s : St) : ∀ a, Decidable (enabled s a)
  | .start | .create _ | .join | .tid | .destroy | .release => inferInstanceAs (Decidable (_ = _))
  | .child => inferInstanceAs (Decidable (_ ∧ _ ∧ _))
  | .joinReturns => inferInstanceAs (Decidable (_ ∧ _))

def machine (gettid : Int) : Machine St Act where
  init := {}
  enabled := enabled
  exec := exec gettid

instance (gettid : Int) (s : St) (a : Act) : Decidable ((machine gettid).enabled s a) :=
  inferInstanceAs (Decidable (enabled s a))

/-! ## Who has what -/

/-- The new thread has a `shared_ptr` of its own. -/
def Child.holds : Child → Bool
  | .locked | .written => true
  | _ => false

/-- It has got past `*ptid = tid`. -/
def Child.past : Child → Bool
  | .absent | .entered | .locked => false
  | _ => true

/-- How often it has called `func_`. -/
def Child.calls : Child → Nat
  | .running | .returned | .ended => 1
  | _ => 0

/-- The `Thread` has its member `tid_`. -/
def Owner.holds : Owner → Bool
  | .gone => false
  | _ => true

/-- The steps that are left to it. -/
def Child.left : Child → Nat
  | .absent | .entered => 6
  | .locked => 5
  | .written => 4
  | .ready => 3
  | .running => 2
  | .returned => 1
  | .ended => 0

theorem Child.past_of_calls {c : Child} (h : 0 < c.calls) : c.past = true := by
  cases c <;> first | rfl | cases h

theorem Owner.holds_iff {o : Owner} : o.holds = true ↔ o ≠ .gone := by
  cases o <;> decide

/-- Whether `pthreadId_` may still be joined, as the `Thread` sees it. -/
def St.kept (s : St) : Handle :=
  if s.joined = true then if s.owner = .joining then .joinable else .joined
  else if s.owner = .destroying ∨ s.owner = .gone then .detached else .joinable

structure Inv (gettid : Int) (s : St) : Prop where
  strong : s.strong = s.owner.holds.toNat + s.child.holds.toNat
  weak : s.weak = if s.data = .live then 1 else 0
  live : s.data = .live ↔ s.owner = .starting ∨ s.child ≠ .absent ∧ s.child ≠ .ended
  handle : s.handle = if s.child = .absent then .none else s.kept
  starting : s.owner = .starting → s.child = .absent ∧ s.started = true ∧ s.joined = false
  started : s.owner ≠ .starting → (s.started = true ↔ s.child ≠ .absent)
  joining : s.owner = .joining → s.joined = true
  joined : s.joined = true → s.child ≠ .absent ∧ (s.owner ≠ .joining → s.child = .ended)
  tid : s.tid = 0 ∨ s.tid = gettid
  told : s.child.past = true → s.owner.holds = true → s.tid = gettid
  calls : s.calls = s.child.calls

variable {gettid : Int} {s s' : St} {a : Act} {tr : List (St × Act)}

theorem inv_init : Inv gettid (machine gettid).init where
  strong := rfl
  weak := rfl
  live := by simp [machine]
  handle := rfl
  starting h := by cases h
  started _ := by simp [machine]
  joining h := by cases h
  joined h := by cases h
  tid := .inl rfl
  told h := by cases h
  calls := rfl

/-! ## The new thread -/

theorem Inv.not_starting (I : Inv gettid s) (ha : s.child ≠ .absent) : s.owner ≠ .starting :=
  fun h => ha (I.starting h).1

section Child
variable (I : Inv gettid s) (ha : s.child ≠ .absent) (he : s.child ≠ .ended)
include I ha he

theorem Inv.data_live : s.data = .live := I.live.2 (.inr ⟨ha, he⟩)

/-- A step of the new thread before its last. -/
theorem Inv.move {c : Child} {strong calls : Nat} {tid : Int} (hc : c ≠ .absent) (hc' : c ≠ .ended)
    (hstrong : strong = s.owner.holds.toNat + c.holds.toNat) (htid : tid = 0 ∨ tid = gettid)
    (htold : c.past = true → s.owner.holds = true → tid = gettid) (hcalls : calls = c.calls) :
    Inv gettid { s with child := c, strong, tid, calls } where
  strong := hstrong
  weak := I.weak
  live := by
    rw [I.live]
    simp [ha, he, hc, hc']
  handle := by
    have := I.handle
    rw [if_neg ha] at this
    exact this.trans (if_neg hc).symm
  starting h := absurd h (I.not_starting ha)
  started h := by
    have := I.started h
    simpa [ha, hc] using this
  joining := I.joining
  joined h := ⟨hc, fun hne => absurd ((I.joined h).2 hne) he⟩
  tid := htid
  told := htold
  calls := hcalls

/-- `delete data`, after which the thread ends. -/
theorem Inv.finish (hr : s.child = .returned) :
    Inv gettid { s with child := .ended, data := .freed, weak := s.weak - 1 } where
  strong := by
    have := I.strong
    rwa [hr] at this
  weak := by
    have := I.weak
    rw [if_pos (I.data_live ha he)] at this
    simp [this]
  live := by simp [I.not_starting ha]
  handle := by
    have := I.handle
    rw [if_neg ha] at this
    exact this.trans (if_neg (show ¬ Child.ended = Child.absent by decide)).symm
  starting h := absurd h (I.not_starting ha)
  started h := by
    have := I.started h
    simpa [ha] using this
  joining := I.joining
  joined _ := ⟨by simp, fun _ => rfl⟩
  tid := I.tid
  told _ := I.told (by rw [hr]; rfl)
  calls := by
    have := I.calls
    rwa [hr] at this

end Child

theorem step_child (I : Inv gettid s) (ha : enabled s .child) : ∃ s', step gettid s = some s' ∧ Inv gettid s' := by
  obtain ⟨-, ha, he⟩ := ha
  have hlive := I.data_live ha he
  have hweak := I.weak
  have hstrong := I.strong
  have htold := I.told
  have hcalls := I.calls
  rw [if_pos hlive] at hweak
  unfold step
  cases h : s.child with
  | absent => exact absurd h ha
  | ended => exact absurd h he
  | entered =>
    rw [h] at hstrong hcalls
    dsimp only
    rw [assert_bind ⟨hlive, by omega⟩]
    refine ⟨_, rfl, ?_⟩
    split
    · rename_i h0
      refine I.move ha he (by decide) (by decide) hstrong I.tid (fun _ ho => ?_) hcalls
      -- the `Thread` would have a reference
      rw [ho, h0] at hstrong
      cases hstrong
    · exact I.move ha he (by decide) (by decide) (by rw [hstrong]; rfl) I.tid nofun hcalls
  | locked =>
    rw [h] at hstrong hcalls
    dsimp only
    rw [assert_bind (by rw [hstrong]; exact Nat.succ_pos _)]
    exact ⟨_, rfl, I.move ha he (by decide) (by decide) hstrong (.inr rfl) (fun _ _ => rfl) hcalls⟩
  | written =>
    rw [h] at hstrong hcalls htold
    dsimp only
    rw [assert_bind (by rw [hstrong]; exact Nat.succ_pos _)]
    exact ⟨_, rfl, I.move ha he (by decide) (by decide) (by rw [hstrong]; rfl) I.tid htold hcalls⟩
  | ready =>
    rw [h] at hstrong hcalls htold
    dsimp only
    rw [assert_bind hlive]
    exact ⟨_, rfl, I.move ha he (by decide) (by decide) hstrong I.tid htold (by rw [hcalls]; rfl)⟩
  | running =>
    rw [h] at hstrong hcalls htold
    exact ⟨_, rfl, I.move ha he (by decide) (by decide) hstrong I.tid htold hcalls⟩
  | returned =>
    dsimp only
    rw [assert_bind ⟨hlive, by omega⟩]
    exact ⟨_, rfl, I.finish ha he h⟩

/-! ## The owner -/

theorem Inv.strong_of_holds (I : Inv gettid s) (ho : s.owner ≠ .gone) : s.strong = 1 + s.child.holds.toNat := by
  rw [I.strong, Owner.holds_iff.2 ho]
  rfl

/-- The owner goes on, and neither the references nor the new thread change. -/
theorem Inv.ownerMoves (I : Inv gettid s) {owner : Owner} {joined : Bool} {handle : Handle}
    (hs : s.owner ≠ .starting) (ho : owner ≠ .starting) (hholds : owner.holds = s.owner.holds)
    (hhandle : handle = if s.child = .absent then .none else { s with owner, joined }.kept)
    (hjoining : owner = .joining → joined = true)
    (hjoined : joined = true → s.child ≠ .absent ∧ (owner ≠ .joining → s.child = .ended)) :
    Inv gettid { s with owner, joined, handle } where
  strong := by rw [hholds]; exact I.strong
  weak := I.weak
  live := by
    rw [I.live]
    simp [hs, ho]
  handle := hhandle
  starting h := absurd h ho
  started _ := I.started hs
  joining := hjoining
  joined := hjoined
  tid := I.tid
  told h hh := I.told h (hholds ▸ hh)
  calls := I.calls

theorem Inv.start (I : Inv gettid s) (ho : s.owner = .idle) (hn : s.started = false) :
    Inv gettid { s with started := true, owner := .starting, data := .live, weak := s.weak + 1 } := by
  have hchild : s.child = .absent := by
    have := I.started (by rw [ho]; decide)
    simpa [hn] using this
  have hjoined : s.joined = false := Bool.eq_false_iff.2 fun h => (I.joined h).1 hchild
  have hdata : s.data ≠ .live := by
    rw [Ne, I.live]
    simp [ho, hchild]
  have hhandle := I.handle
  have hweak := I.weak
  rw [if_pos hchild] at hhandle
  rw [if_neg hdata] at hweak
  exact {
    I with
    strong := by rw [I.strong, ho]; rfl
    weak := by simp [hweak]
    live := by simp
    handle := hhandle.trans (if_pos hchild).symm
    starting := fun _ => ⟨hchild, rfl, hjoined⟩
    started := fun h => absurd rfl h
    joining := fun h => by cases h
    joined := fun h => absurd h (by simp [hjoined])
    told := fun h => by
      rw [hchild] at h
      cases h }

theorem Inv.create (I : Inv gettid s) (ho : s.owner = .starting) :
    Inv gettid { s with owner := .idle, child := .entered, handle := .joinable } ∧
      Inv gettid { s with owner := .aborted, started := false, data := .freed, weak := s.weak - 1 } := by
  obtain ⟨hchild, hstarted, hjoined⟩ := I.starting ho
  have hstrong := I.strong
  have hhandle := I.handle
  have hweak := I.weak
  have hcalls := I.calls
  have hlive : s.data = .live := I.live.2 (.inl ho)
  rw [ho, hchild] at hstrong
  rw [if_pos hchild] at hhandle
  rw [if_pos hlive] at hweak
  rw [hchild] at hcalls
  constructor
  · exact {
      I with
      strong := hstrong
      live := by simp [hlive]
      handle := by simp [St.kept, hjoined]
      starting := fun h => by cases h
      started := fun _ => by simp [hstarted]
      joining := fun h => by cases h
      joined := fun h => absurd h (by simp [hjoined])
      told := fun h => by cases h
      calls := hcalls }
  · exact {
      I with
      strong := by rw [hstrong, hchild]; rfl
      weak := by simp [hweak]
      live := by simp [hchild]
      handle := hhandle.trans (if_pos hchild).symm
      starting := fun h => by cases h
      started := fun _ => by simp [hchild]
      joining := fun h => by cases h
      joined := fun h => absurd h (by simp [hjoined])
      told := fun h => by
        rw [hchild] at h
        cases h }

theorem Inv.release (I : Inv gettid s) (ho : s.owner = .destroying) :
    Inv gettid { s with owner := .gone, strong := s.strong - 1 } := by
  have hstrong := I.strong_of_holds (by rw [ho]; decide)
  have hhandle := I.handle
  have hne : s.owner ≠ .starting := by rw [ho]; decide
  exact {
    I with
    strong := by
      rw [hstrong]
      simp [Owner.holds]
    live := by
      rw [I.live]
      simp [ho]
    handle := by
      rw [hhandle]
      simp [St.kept, ho]
    starting := fun h => by cases h
    started := fun _ => I.started hne
    joining := fun h => by cases h
    joined := fun h => ⟨(I.joined h).1, fun _ => (I.joined h).2 (by rw [ho]; decide)⟩
    told := fun _ h => by cases h }

/-- What the asserts of `start` and `join` ask. -/
def Asserted (s : St) : Act → Prop
  | .start => s.started = false
  | .join => s.started = true ∧ s.joined = false
  | _ => True

/-- The new thread calls neither. -/
theorem step_called (hx : step gettid s = some s') : s'.started = s.started ∧ s'.joined = s.joined := by
  unfold step at hx
  cases h : s.child with
  | absent | ended =>
    rw [h] at hx
    cases hx
  | running =>
    rw [h] at hx
    cases hx
    exact ⟨rfl, rfl⟩
  | entered =>
    rw [h] at hx
    obtain ⟨_, -, hx⟩ := Option.bind_eq_some_iff.1 hx
    cases hx
    split <;> exact ⟨rfl, rfl⟩
  | locked | written | ready | returned =>
    rw [h] at hx
    obtain ⟨_, -, hx⟩ := Option.bind_eq_some_iff.1 hx
    cases hx
    exact ⟨rfl, rfl⟩

theorem step_goes (I : Inv gettid s) (ha : enabled s a) (hp : Asserted s a) :
    ∃ s', exec gettid s a = some s' ∧ Inv gettid s' := by
  cases a with
  | start =>
    have hn : s.started = false := hp
    rw [exec, assert_bind hn]
    exact ⟨_, rfl, I.start ha hn⟩
  | create ok =>
    refine ⟨_, rfl, ?_⟩
    cases ok with
    | true => exact (I.create ha).1
    | false => exact (I.create ha).2
  | join =>
    have ho : s.owner = .idle := ha
    obtain ⟨hs, hn⟩ := hp
    have hne : s.owner ≠ .starting := by rw [ho]; decide
    have hchild := (I.started hne).1 hs
    have hhandle := I.handle
    rw [if_neg hchild] at hhandle
    rw [exec, assert_bind hs, assert_bind hn]
    refine ⟨_, rfl, I.ownerMoves hne (by decide) (by rw [ho]; rfl) ?_ (fun _ => rfl) fun _ => ⟨hchild, absurd rfl⟩⟩
    rw [hhandle, if_neg hchild]
    simp [St.kept, ho, hn]
  | joinReturns =>
    obtain ⟨ho, hend⟩ := ha
    have hne : s.owner ≠ .starting := by rw [ho]; decide
    have hj := I.joining ho
    have hhandle := I.handle
    rw [if_neg (I.joined hj).1] at hhandle
    rw [exec, assert_bind (by rw [hhandle]; simp [St.kept, ho, hj])]
    refine ⟨_, rfl, I.ownerMoves hne (by decide) (by rw [ho]; rfl) ?_ nofun fun _ => ⟨(I.joined hj).1, fun _ => hend⟩⟩
    rw [if_neg (I.joined hj).1]
    simp [St.kept, hj]
  | tid =>
    have ho : s.owner = .idle := ha
    have hstrong := I.strong_of_holds (by rw [ho]; decide)
    rw [exec, assert_bind (by omega)]
    exact ⟨_, rfl, I⟩
  | destroy =>
    have ho : s.owner = .idle := ha
    have hne : s.owner ≠ .starting := by rw [ho]; decide
    have hhandle := I.handle
    have hjoined (h : s.joined = true) := (I.joined h).2 (by rw [ho]; decide)
    rw [exec]
    split
    · rename_i h
      have hj : s.joined = false := by simpa using h.2
      have hchild := (I.started hne).1 h.1
      rw [if_neg hchild] at hhandle
      rw [assert_bind (by rw [hhandle]; simp [St.kept, ho, hj])]
      refine ⟨_, rfl, I.ownerMoves hne (by decide) (by rw [ho]; rfl) ?_ nofun fun h => absurd h (by simp [hj])⟩
      rw [if_neg hchild]
      simp [St.kept, hj]
    · rename_i h
      refine ⟨_, rfl, I.ownerMoves hne (by decide) (by rw [ho]; rfl) ?_ nofun fun h => ⟨(I.joined h).1, fun _ => hjoined h⟩⟩
      rw [hhandle]
      split
      · rfl
      · rename_i hchild
        have hj : s.joined = true := by simpa [(I.started hne).2 hchild] using h
        simp [St.kept, ho, hj]
  | release =>
    have ho : s.owner = .destroying := ha
    have hstrong := I.strong_of_holds (by rw [ho]; decide)
    rw [exec, assert_bind (by omega)]
    exact ⟨_, rfl, I.release ho⟩
  | child => exact step_child I ha

theorem asserted_of_exec (hx : exec gettid s a = some s') : Asserted s a := by
  cases a with
  | start =>
    obtain ⟨_, hn, -⟩ := Option.bind_eq_some_iff.1 hx
    have hn : s.started = false := assert_eq_some.1 hn
    exact hn
  | join =>
    obtain ⟨_, hs, hx⟩ := Option.bind_eq_some_iff.1 hx
    obtain ⟨_, hn, -⟩ := Option.bind_eq_some_iff.1 hx
    have hs : s.started = true := assert_eq_some.1 hs
    have hn : s.joined = false := assert_eq_some.1 hn
    exact ⟨hs, hn⟩
  | _ => trivial

theorem step_inv (I : Inv gettid s) (ha : enabled s a) (hx : exec gettid s a = some s') : Inv gettid s' := by
  obtain ⟨s'', hx', I'⟩ := step_goes I ha (asserted_of_exec hx)
  cases hx'.symm.trans hx
  exact I'

theorem exec_eq_none_iff (I : Inv gettid s) (ha : enabled s a) : exec gettid s a = none ↔ ¬ Asserted s a := by
  constructor
  · intro hn hp
    obtain ⟨s', hx, -⟩ := step_goes I ha hp
    rw [hn] at hx
    cases hx
  · intro hp
    rw [Option.eq_none_iff_forall_ne_some]
    exact fun s' hx => hp (asserted_of_exec hx)

theorem run_inv (h : Run (machine gettid) tr s) : Inv gettid s :=
  h.inv (Inv gettid) inv_init fun _ _ _ I ha hx => step_inv I ha hx

theorem not_aborted (ha : enabled s a) : s.owner ≠ .aborted := by
  intro ho
  cases a with
  | joinReturns | child => simp [enabled, ho] at ha
  | _ => exact absurd (ho.symm.trans ha) (by decide)

/-- `started_` and `joined_` are set by the two calls, and stay so up to an `abort`. -/
theorem exec_called (hx : exec gettid s a = some s') :
    (s'.owner ≠ .aborted → (s'.started = true ↔ s.started = true ∨ a = .start)) ∧
    (s'.joined = true ↔ s.joined = true ∨ a = .join) := by
  cases a with
  | start | joinReturns | tid | release =>
    obtain ⟨-, -, hx⟩ := Option.bind_eq_some_iff.1 hx
    cases hx
    simp
  | create ok =>
    cases hx
    cases ok <;> simp
  | join =>
    obtain ⟨-, -, hx⟩ := Option.bind_eq_some_iff.1 hx
    obtain ⟨-, -, hx⟩ := Option.bind_eq_some_iff.1 hx
    cases hx
    simp
  | destroy =>
    rw [exec] at hx
    split at hx
    · obtain ⟨-, -, hx⟩ := Option.bind_eq_some_iff.1 hx
      cases hx
      simp
    · cases hx
      simp
  | child =>
    obtain ⟨hs, hj⟩ := step_called hx
    simp [hs, hj]

/-- `started_` and `joined_` tell of the calls made. -/
theorem run_called (h : Run (machine gettid) tr s) :
    (s.owner ≠ .aborted → (s.started = true ↔ .start ∈ tr.map Prod.snd)) ∧
    (s.joined = true ↔ .join ∈ tr.map Prod.snd) := by
  refine h.inv_trace (I := fun tr s => (s.owner ≠ .aborted → (s.started = true ↔ .start ∈ tr.map Prod.snd)) ∧
    (s.joined = true ↔ .join ∈ tr.map Prod.snd)) (by simp [machine]) ?_
  rintro tr t a u - ⟨hs, hj⟩ ha hx
  obtain ⟨hs', hj'⟩ := exec_called hx
  refine ⟨fun ho => ?_, ?_⟩
  · rw [hs' ho, hs (not_aborted ha), List.map_append, List.mem_append, List.map_singleton, List.mem_singleton]
    exact or_congr_right eq_comm
  · rw [hj', hj, List.map_append, List.mem_append, List.map_singleton, List.mem_singleton]
    exact or_congr_right eq_comm

theorem Inv.ended_of_joined (I : Inv gettid s) (h : s.handle = .joined) : s.child = .ended := by
  have hhandle := I.handle
  rw [h, St.kept] at hhandle
  split at hhandle
  · cases hhandle
  · split at hhandle
    · rename_i hj
      split at hhandle
      · cases hhandle
      · rename_i ho
        exact (I.joined hj).2 ho
    · split at hhandle <;> cases hhandle

/-- When the `Thread` and the new thread are gone. -/
theorem Inv.released (I : Inv gettid s) (ho : s.owner = .gone) (hc : s.child = .absent ∨ s.child = .ended) :
    s.strong = 0 ∧ s.weak = 0 ∧ s.data ≠ .live ∧ s.handle ≠ .joinable := by
  have hdata : s.data ≠ .live := by
    rw [Ne, I.live]
    rcases hc with h | h <;> simp [h, ho]
  have hweak := I.weak
  rw [if_neg hdata] at hweak
  refine ⟨?_, hweak, hdata, ?_⟩
  · rw [I.strong, ho]
    rcases hc with h | h <;> rw [h] <;> rfl
  · rw [I.handle, St.kept, ho]
    split
    · decide
    · split <;> simp

/-! ## The steps of the new thread -/

/-- Each of its steps leaves fewer, and no other step leaves more. -/
theorem step_left (I : Inv gettid s) (ha : enabled s a) (hx : exec gettid s a = some s') :
    (if a = .child then 1 else 0) + s'.child.left ≤ s.child.left := by
  cases a with
  | child =>
    rw [if_pos rfl]
    replace hx : step gettid s = some s' := hx
    unfold step at hx
    cases h : s.child with
    | absent | ended =>
      rw [h] at hx
      cases hx
    | running =>
      rw [h] at hx
      cases hx
      simp [Child.left]
    | entered =>
      rw [h] at hx
      obtain ⟨_, -, hx⟩ := Option.bind_eq_some_iff.1 hx
      cases hx
      split <;> simp [Child.left]
    | locked | written | ready | returned =>
      rw [h] at hx
      obtain ⟨_, -, hx⟩ := Option.bind_eq_some_iff.1 hx
      cases hx
      simp [Child.left]
  | create ok =>
    have hchild := (I.starting ha).1
    cases hx
    rw [hchild]
    cases ok
    · simp
    · simp [Child.left]
  | join =>
    obtain ⟨_, -, hx⟩ := Option.bind_eq_some_iff.1 hx
    obtain ⟨_, -, hx⟩ := Option.bind_eq_some_iff.1 hx
    cases hx
    simp
  | destroy =>
    rw [exec] at hx
    split at hx
    · obtain ⟨_, -, hx⟩ := Option.bind_eq_some_iff.1 hx
      cases hx
      simp
    · cases hx
      simp
  | start | joinReturns | tid | release =>
    obtain ⟨_, -, hx⟩ := Option.bind_eq_some_iff.1 hx
    cases hx
    simp

/-- However its owner and the new thread take turns, a step fails only where an
assert of `start` or `join` does: for a second `start`, a `join` with no `start`
before it, and a second `join`. So nothing is used that is freed, and the handle
is joined or detached once; `func_` is called once at most; where the `Thread` is
still there, `tid()` is the id of the new thread from before `func_` is called;
when `join` has returned `func_` has too, and when both are gone nothing is left.
While `join` waits the new thread can go on, and in a whole run it takes six steps
at most. -/
theorem thread_lifetime (h : Run (machine gettid) tr s) :
    (∀ a, enabled s a → (exec gettid s a = none ↔ a = .start ∧ .start ∈ tr.map Prod.snd ∨
      a = .join ∧ (.start ∉ tr.map Prod.snd ∨ .join ∈ tr.map Prod.snd))) ∧
    s.calls ≤ 1 ∧ (s.tid = 0 ∨ s.tid = gettid) ∧
    (0 < s.calls → s.owner ≠ .gone → s.tid = gettid) ∧
    (s.handle = .joined → s.child = .ended ∧ s.calls = 1) ∧
    (s.owner = .gone → s.child = .absent ∨ s.child = .ended →
      s.strong = 0 ∧ s.weak = 0 ∧ s.data ≠ .live ∧ s.handle ≠ .joinable) ∧
    (s.owner = .joining → enabled s .child ∨ enabled s .joinReturns) ∧
    tr.countP (fun p => p.2 = .child) ≤ 6 := by
  have I := run_inv h
  have hcalls := I.calls
  refine ⟨fun a ha => (exec_eq_none_iff I ha).trans ?_, ?_, I.tid, ?_, ?_, ?_, ?_, ?_⟩
  · obtain ⟨hs, hj⟩ := run_called h
    cases a with
    | start =>
      have ho : s.owner = .idle := ha
      simp [Asserted, ← hs (by rw [ho]; decide)]
    | join =>
      have ho : s.owner = .idle := ha
      simp [Asserted, ← hs (by rw [ho]; decide), ← hj, imp_iff_not_or]
    | _ => simp [Asserted]
  · rw [hcalls]
    cases s.child <;> decide
  · intro hpos hne
    exact I.told (Child.past_of_calls (hcalls ▸ hpos)) (Owner.holds_iff.2 hne)
  · intro hjoined
    have hend := I.ended_of_joined hjoined
    rw [hend] at hcalls
    exact ⟨hend, hcalls⟩
  · exact I.released
  · intro ho
    have hj := I.joined (I.joining ho)
    by_cases hend : s.child = .ended
    · exact .inr ⟨ho, hend⟩
    · exact .inl ⟨by rw [ho]; decide, hj.1, hend⟩
  · have : total (fun _ (a : Act) => if decide (a = .child) then 1 else 0) tr + s.child.left ≤
        (machine gettid).init.child.left + total (fun _ _ => 0) tr :=
      h.cost_le (Inv gettid) (fun _ _ => True) (fun s => s.child.left)
        (fun s a s' I ha _ hx => by
          simpa using ⟨step_inv I ha hx, step_left I ha hx⟩) (fun _ _ => trivial) inv_init
    rw [total_if (fun _ (a : Act) => decide (a = .child)), total_zero, Nat.one_mul] at this
    exact Nat.le_trans (Nat.le_add_right _ _) this

/-- The owner destroys the `Thread` while the new thread has a pointer to the id,
and the new thread goes on alone. -/
theorem thread_lifetime_detached : ∃ tr s, Run (machine 7) tr s ∧ s.owner = .gone ∧ s.child = .ended ∧
    s.handle = .detached ∧ s.calls = 1 ∧ s.strong = 0 ∧ s.weak = 0 ∧ s.data ≠ .live ∧
    tr.countP (fun p => p.2 = .child) ≤ 6 := by
  obtain ⟨r, hr, ho, hc, hh, hcalls⟩ : ∃ r ∈ (machine 7).play (machine 7).init
      [.start, .create true, .tid, .child, .destroy, .release, .child, .child, .child, .child, .child],
      r.2.owner = .gone ∧ r.2.child = .ended ∧ r.2.handle = .detached ∧ r.2.calls = 1 := by decide +kernel
  have hrun := Machine.play_steps hr
  obtain ⟨-, -, -, -, -, hgone, -, hcount⟩ := thread_lifetime hrun
  obtain ⟨hs, hw, hd, -⟩ := hgone ho (.inr hc)
  exact ⟨r.1, r.2, hrun, ho, hc, hh, hcalls, hs, hw, hd, hcount⟩

end Cppnetool.Thread
