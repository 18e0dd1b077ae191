import Mathlib.Algebra.Ring.Nat
import Cppnetool.ConnectorAttempts
import Cppnetool.Lib.Since
/-!
# How long a connector waits

A series of attempts begins with `start`, with `restart` and with a connection
that is established. `retry` takes the delay from the object and doubles it;
only `restart` sets it back. So the delays are those of the failures since the
last `restart`, whatever began the series.
-/
open Lib

namespace Cppnetool.Connector

variable {s s' : St} {a : Act} {c : Sock} {o : Errno} {tr pre : List (St × Act)} {p : St × Act}

/-! ## Events -/

/-- The results of `connect(2)` that `connect` hands to `retry`. -/
def Errno.retries : Errno → Bool
  | .EAGAIN | .EADDRINUSE | .EADDRNOTAVAIL | .ECONNREFUSED | .ENETUNREACH => true
  | _ => false

/-- An attempt fails, and there is to be another. -/
def Fails (s : St) : Act → Prop
  | .start o | .restart o => o.retries = true
  | .runFunctor o => s.queued.head? = some .startInLoop ∧ s.connect = true ∧ o.retries = true
  | .runTimer o => s.connect = true ∧ o.retries = true
  | .handleEvent _ err out soError selfConnect => s.connect = true ∧
      (err = true ∨ out = true ∧ s.state = .kConnecting ∧ (soError ≠ 0 ∨ selfConnect = true))
  | _ => False

/-- A new series of attempts begins: `start`, `restart`, or success. -/
def Opens (s : St) : Act → Prop
  | .start _ | .restart _ | .startElsewhere => True
  | .handleEvent _ err out soError selfConnect => Completes s err out soError selfConnect
  | _ => False

def Restarts : Act → Prop
  | .restart _ => True
  | _ => False

instance (s : St) : ∀ a, Decidable (Fails s a)
  | .start _ | .restart _ => inferInstanceAs (Decidable (_ = _))
  | .runFunctor _ | .runTimer _ | .handleEvent .. => inferInstanceAs (Decidable (_ ∧ _))
  | .stop | .startElsewhere | .stopElsewhere | .expire .. | .callbackReturns | .destroy => .isFalse id

instance (s : St) : ∀ a, Decidable (Opens s a)
  | .start _ | .restart _ | .startElsewhere => .isTrue trivial
  | .handleEvent .. => inferInstanceAs (Decidable (Completes ..))
  | .runFunctor _ | .runTimer _ | .stop | .stopElsewhere | .expire .. | .callbackReturns | .destroy => .isFalse id

instance : ∀ a, Decidable (Restarts a)
  | .restart _ => .isTrue trivial
  | .start _ | .startElsewhere | .handleEvent .. | .runFunctor _ | .runTimer _ | .stop | .stopElsewhere
  | .expire .. | .callbackReturns | .destroy => .isFalse id

theorem Restarts.opens (h : Restarts a) : Opens s a := by
  cases a <;> first | exact trivial | exact h.elim

/-! ## Delays -/

/-- The delay of the timer that a step has made. -/
def scheduled (s : St) (a : Act) : Option Nat := do
  let s' ← exec s a
  if s.timers < s'.timers then s'.waiting.getLast?.map Timer.delayMs else none

/-- `retryDelayMs_` when the attempt is made. -/
def delayBefore (s : St) (a : Act) : Nat := if Restarts a then kInitRetryDelayMs else s.retryDelayMs

/-- A step that found `delayMs` and either schedules it, and doubles it, or leaves it. -/
def Waits (fails : Prop) (s s' : St) (delayMs : Nat) : Prop :=
  (fails ∧ s'.timers = s.timers + 1 ∧ s'.waiting.getLast? = some ⟨s.timers, delayMs⟩ ∧
    s'.retryDelayMs = min (delayMs * 2) kMaxRetryDelayMs) ∨
  (¬ fails ∧ s'.timers = s.timers ∧ s'.retryDelayMs = delayMs)

theorem retry_waits (s : St) (c : Sock) : Waits (s.connect = true) s (retry s c) s.retryDelayMs := by
  unfold retry
  dsimp only
  by_cases h : s.connect = true
  · rw [if_pos (show (close s c).connect = true from h)]
    exact .inl ⟨h, rfl, by simp [runAfter, close], rfl⟩
  · rw [if_neg (show ¬ (close s c).connect = true from h)]
    exact .inr ⟨h, rfl, rfl⟩

theorem startInLoop_waits (s : St) (o : Errno) :
    Waits (s.connect = true ∧ o.retries = true) s (startInLoop s o) s.retryDelayMs := by
  unfold startInLoop
  split
  · rename_i h
    have hr := retry_waits { s with created := s.created + 1 } s.created
    cases o <;> simp_all [Waits, Errno.retries, connect, connecting, close]
  · rename_i h
    exact .inr ⟨fun hc => h hc.1, rfl, rfl⟩

theorem Waits.congr {f g : Prop} {d : Nat} (h : Waits f s s' d) (hfg : f ↔ g) : Waits g s s' d :=
  propext hfg ▸ h

theorem handleEvent_waits {err out : Bool} {soError : Int} {selfConnect : Bool}
    (hx : handleEvent s c err out soError selfConnect = some s') :
    Waits (Fails s (.handleEvent c err out soError selfConnect)) s s' s.retryDelayMs := by
  have hr := retry_waits { s with registered := s.registered.erase c } c
  obtain ⟨-, ⟨he, rfl⟩ | ⟨he, ho, rfl⟩ | ⟨he, ho, hs, ⟨hf, rfl⟩ | ⟨h1, h2, -, rfl⟩ | ⟨h1, h2, -, rfl⟩⟩⟩ :=
    handleEvent_cases hx
  · exact Waits.congr hr ⟨fun h => ⟨h, .inl he⟩, fun h => h.1⟩
  · refine .inr ⟨?_, rfl, rfl⟩
    rintro ⟨-, h | ⟨h, h', -⟩⟩
    · simp [he] at h
    · rcases ho with ho | ho
      · simp [ho] at h
      · exact ho h'
  · exact Waits.congr hr ⟨fun h => ⟨h, .inr ⟨ho, hs, hf⟩⟩, fun h => h.1⟩
  · exact .inr ⟨by simp [Fails, he, h1, h2], rfl, rfl⟩
  · exact .inr ⟨by simp [Fails, he, h1, h2], rfl, rfl⟩

/-- Every failed attempt schedules the delay it finds, and doubles it. -/
theorem exec_waits (hx : exec s a = some s') : Waits (Fails s a) s s' (delayBefore s a) := by
  cases a with
  | start o =>
    cases hx
    exact (startInLoop_waits { s with connect := true } o).congr (by simp [Fails])
  | restart o =>
    cases hx
    exact (startInLoop_waits
      { s with state := .kDisconnected, retryDelayMs := kInitRetryDelayMs, connect := true } o).congr (by simp [Fails])
  | stop | startElsewhere | stopElsewhere | expire =>
    cases hx
    exact .inr ⟨id, rfl, rfl⟩
  | runFunctor o =>
    obtain ⟨rest, ⟨timerId, hq, rfl⟩ | ⟨hq, -, rfl⟩⟩ := runFunctor_cases hx
    · exact .inr ⟨by simp [Fails, hq], rfl, rfl⟩
    · exact (startInLoop_waits { s with queued := rest } o).congr (by simp [Fails, hq])
  | runTimer o =>
    obtain ⟨t, rest, he, -, rfl⟩ := runTimer_cases hx
    exact startInLoop_waits { s with expired := rest } o
  | handleEvent => exact handleEvent_waits hx
  | callbackReturns =>
    obtain ⟨-, -, hx⟩ := Option.bind_eq_some_iff.1 hx
    cases hx
    exact .inr ⟨id, rfl, rfl⟩
  | destroy =>
    obtain ⟨registered, -, rfl⟩ := destroy_cases hx
    exact .inr ⟨id, rfl, rfl⟩

theorem scheduled_eq (hx : exec s a = some s') :
    scheduled s a = if Fails s a then some (delayBefore s a) else none := by
  unfold scheduled
  rw [hx, some_bind]
  rcases exec_waits hx with ⟨hf, ht, hw, -⟩ | ⟨hf, ht, -⟩
  · rw [if_pos (by omega), if_pos hf, hw]
    rfl
  · rw [if_neg (by omega), if_neg hf]

/-! ## Runs -/

/-- What the `n`-th failed attempt of a series is to wait. -/
def backoff (n : Nat) : Nat := min (kInitRetryDelayMs * 2 ^ (n - 1)) kMaxRetryDelayMs

/-- The failed attempts since a series began, and since the last `restart`. -/
def series (tr : List (St × Act)) : Nat := since (fun p => Fails p.1 p.2) (fun p => Opens p.1 p.2) tr

def sinceRestart (tr : List (St × Act)) : Nat := since (fun p => Fails p.1 p.2) (fun p => Restarts p.2) tr

theorem series_snoc (tr : List (St × Act)) (p : St × Act) : series (tr ++ [p]) =
    (if Opens p.1 p.2 then 0 else series tr) + if Fails p.1 p.2 then 1 else 0 := since_snoc ..

theorem sinceRestart_snoc (tr : List (St × Act)) (p : St × Act) : sinceRestart (tr ++ [p]) =
    (if Restarts p.2 then 0 else sinceRestart tr) + if Fails p.1 p.2 then 1 else 0 := since_snoc ..

theorem series_le (tr : List (St × Act)) : series tr ≤ sinceRestart tr := since_mono _ _ _ (fun _ => Restarts.opens) _

theorem backoff_double (n : Nat) : min (backoff (n + 1) * 2) kMaxRetryDelayMs = backoff (n + 2) := by
  simp only [backoff, Nat.add_sub_cancel, show n + 2 - 1 = n + 1 from rfl, Nat.pow_succ, ← Nat.mul_assoc]
  omega

theorem backoff_eq_init {n : Nat} (h : backoff n = backoff 1) : n ≤ 1 := by
  by_contra hn
  obtain ⟨k, rfl⟩ : ∃ k, n = k + 2 := ⟨n - 2, by omega⟩
  have := Nat.one_le_two_pow (n := k)
  simp only [backoff, show k + 2 - 1 = k + 1 from rfl, Nat.pow_succ, kInitRetryDelayMs, kMaxRetryDelayMs] at h
  omega

/-- The delay that a `Connector` carries is that of the next failure since `restart`. -/
theorem run_delay (h : Run machine tr s) : s.retryDelayMs = backoff (sinceRestart tr + 1) := by
  refine h.inv_trace (I := fun tr s => s.retryDelayMs = backoff (sinceRestart tr + 1)) rfl ?_
  intro tr t a u _ ih _ hx
  have hb : delayBefore t a = backoff ((if Restarts a then 0 else sinceRestart tr) + 1) := by
    unfold delayBefore
    split
    · rfl
    · exact ih
  rw [sinceRestart_snoc]
  rcases exec_waits hx with ⟨hf, -, -, hd⟩ | ⟨hf, -, hd⟩
  · rw [hd, hb, if_pos hf]
    exact backoff_double _
  · rw [hd, hb, if_neg hf]

/-- What a step of a run schedules. -/
theorem run_scheduled (h : Run machine tr s) (hp : pre ++ [p] <+: tr) : scheduled p.1 p.2 =
    if Fails p.1 p.2 then some (backoff (sinceRestart (pre ++ [p]))) else none := by
  obtain ⟨post, rfl⟩ := hp
  obtain ⟨_, h, -⟩ := Steps.split h
  obtain ⟨t, ht, hlast⟩ := Steps.split h
  cases hlast with
  | cons _ hx _ =>
    rw [scheduled_eq hx]
    split
    · rename_i hf
      rw [sinceRestart_snoc, if_pos hf, delayBefore]
      split
      · rfl
      · rw [run_delay ht]
    · rfl

/-- Every failed attempt of the run schedules what its place in its series says. -/
def Restarting (tr : List (St × Act)) : Prop :=
  ∀ pre p, pre ++ [p] <+: tr → ∀ delayMs ∈ scheduled p.1 p.2, delayMs = backoff (series (pre ++ [p]))

theorem run_restarting_iff (h : Run machine tr s) : Restarting tr ↔
    ∀ pre p, pre ++ [p] <+: tr → Fails p.1 p.2 →
      backoff (sinceRestart (pre ++ [p])) = backoff (series (pre ++ [p])) := by
  constructor
  · intro hr pre p hp hf
    exact hr pre p hp _ (by rw [run_scheduled h hp, if_pos hf]; rfl)
  · intro hr pre p hp d hd
    rw [run_scheduled h hp] at hd
    split at hd
    · rename_i hf
      cases hd
      exact hr pre p hp hf
    · cases hd

/-- As long as the delays are right, a series either has just begun or goes
back to the last `restart`. -/
theorem series_eq (hr : ∀ pre p, pre ++ [p] <+: tr → Fails p.1 p.2 →
      backoff (sinceRestart (pre ++ [p])) = backoff (series (pre ++ [p]))) :
    ∀ pre, pre <+: tr → series pre = sinceRestart pre ∨ series pre = 0 := by
  intro pre
  induction pre using List.reverseRecOn with
  | nil => exact fun _ => .inl rfl
  | append_singleton pre p ih =>
    intro hp
    have hs := series_snoc pre p
    have hm := sinceRestart_snoc pre p
    have hstep : series (pre ++ [p]) = sinceRestart (pre ++ [p]) ∨
        series (pre ++ [p]) = if Fails p.1 p.2 then 1 else 0 := by
      by_cases ho : Opens p.1 p.2
      · right
        rw [hs, if_pos ho, Nat.zero_add]
      · rw [if_neg ho] at hs
        rw [if_neg fun h => ho h.opens] at hm
        rcases ih ((List.prefix_append _ _).trans hp) with he | h0
        · left
          rw [hs, hm, he]
        · right
          rw [hs, h0, Nat.zero_add]
    by_cases hf : Fails p.1 p.2
    · rw [if_pos hf] at hs hstep
      refine .inl (hstep.elim id fun h1 => ?_)
      have := backoff_eq_init (h1 ▸ hr pre p hp hf)
      have := series_le (pre ++ [p])
      omega
    · rwa [if_neg hf] at hstep

/-- Where a series begins between two failed attempts, so does `restart`. -/
def Restarted (tr : List (St × Act)) : Prop :=
  ∀ pre q mid p, (pre ++ q :: mid) ++ [p] <+: tr → Fails q.1 q.2 → Fails p.1 p.2 →
    (∃ r ∈ mid ++ [p], Opens r.1 r.2) → ∃ r ∈ mid ++ [p], Restarts r.2

theorem restarted_iff : Restarted tr ↔
    ∀ pre p, pre ++ [p] <+: tr → Fails p.1 p.2 → series (pre ++ [p]) = sinceRestart (pre ++ [p]) := by
  have hlt : ∀ pre p, series (pre ++ [p]) < sinceRestart (pre ++ [p]) ↔ ∃ start q mid, pre = start ++ q :: mid ∧
      Fails q.1 q.2 ∧ (∃ r ∈ mid ++ [p], Opens r.1 r.2) ∧ ∀ r ∈ mid ++ [p], ¬ Restarts r.2 := by
    intro pre p
    rw [series, sinceRestart, since_lt_iff _ _ _ (fun _ => Restarts.opens), exists_split_snoc
      (P := fun (q : St × Act) mid => Fails q.1 q.2 ∧ (∃ r ∈ mid, Opens r.1 r.2) ∧ ∀ r ∈ mid, ¬ Restarts r.2)]
    simp
  constructor
  · intro hc pre p hp hf
    by_contra hne
    obtain ⟨start, q, mid, rfl, hq, ho, hn⟩ := (hlt pre p).1 (Nat.lt_of_le_of_ne (series_le _) hne)
    obtain ⟨r, hm, hr⟩ := hc start q mid p hp hq hf ho
    exact hn r hm hr
  · intro he pre q mid p hp hq hf ho
    by_contra hn
    refine Nat.ne_of_lt ((hlt _ p).2 ⟨pre, q, mid, rfl, hq, ho, ?_⟩) (he _ p hp hf)
    intro r hm hr
    exact hn ⟨r, hm, hr⟩

/-- The delays of a run are those of its series, 500 ms doubled up to 30 s,
exactly when between two failed attempts no series begins without a `restart`. -/
theorem backoff_restarts_iff (h : Run machine tr s) :
    (∀ pre p, pre ++ [p] <+: tr → ∀ delayMs ∈ scheduled p.1 p.2,
      delayMs = min (500 * 2 ^ (series (pre ++ [p]) - 1)) 30000) ↔ Restarted tr := by
  refine (run_restarting_iff h).trans (Iff.trans ⟨fun hr => ?_, fun he => ?_⟩ restarted_iff.symm)
  · intro pre p hp hf
    have := series_snoc pre p
    rw [if_pos hf] at this
    rcases series_eq hr _ hp with h1 | h1
    · exact h1
    · omega
  · intro pre p hp hf
    rw [he pre p hp hf]

/-- A second failure, after `restart`, waits 500 ms again. -/
theorem backoff_restarts_iff_restart : ∃ tr s, Run machine tr s ∧ series tr = 1 ∧ sinceRestart tr = 1 ∧
    s.waiting.map Timer.delayMs = [500, 500] ∧
    ∀ pre p, pre ++ [p] <+: tr → ∀ delayMs ∈ scheduled p.1 p.2,
      delayMs = min (500 * 2 ^ (series (pre ++ [p]) - 1)) 30000 := by
  obtain ⟨r, hr, h1, h2, hw, hall⟩ : ∃ r ∈ machine.play machine.init [.start .ECONNREFUSED, .restart .ECONNREFUSED],
      series r.1 = 1 ∧ sinceRestart r.1 = 1 ∧ r.2.waiting.map Timer.delayMs = [500, 500] ∧
        ∀ x ∈ r.1.tail, Restarts x.2 := by decide +kernel
  have hrun := Machine.play_steps hr
  refine ⟨r.1, r.2, hrun, h1, h2, hw, (backoff_restarts_iff hrun).2 ?_⟩
  rintro pre q mid p ⟨post, he⟩ - - -
  exact ⟨p, by simp, hall p (by rw [← he]; cases pre <;> simp)⟩

/-- A failure, a connection, and a new `start` whose first failure waits 1000 ms. -/
theorem backoff_not_restarted : ∃ tr s, Run machine tr s ∧ s.handed = [1] ∧
    ¬ ∀ pre p, pre ++ [p] <+: tr → ∀ delayMs ∈ scheduled p.1 p.2,
      delayMs = min (500 * 2 ^ (series (pre ++ [p]) - 1)) 30000 := by
  obtain ⟨r, hr, hh, hn, p, hp, hs⟩ : ∃ r ∈ machine.play machine.init
      [.start .ECONNREFUSED, .expire [⟨0, 500⟩] [], .runTimer .EINPROGRESS, .handleEvent 1 false true 0 false,
        .callbackReturns, .start .ECONNREFUSED],
      r.2.handed = [1] ∧ series r.1 = 1 ∧ ∃ p ∈ r.1.getLast?, scheduled p.1 p.2 = some 1000 := by decide +kernel
  refine ⟨r.1, r.2, Machine.play_steps hr, hh, fun hall => ?_⟩
  have he := List.dropLast_append_getLast? p hp
  have := hall r.1.dropLast p ⟨[], by rw [he, List.append_nil]⟩ 1000 hs
  rw [he, hn] at this
  cases this

end Cppnetool.Connector
