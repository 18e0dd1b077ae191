import Mathlib.Data.List.Basic
import Mathlib.Data.List.Induction
/-!
# Machines and their runs

A `Machine` is a program as its surroundings see it: where it starts, which
actions its surroundings may take in a state, and what the program does on
one. `exec` is `none` where the program fails, at an assertion or at an access
to something that is no longer there. `Steps` keeps, for every step taken, the
state it was taken in, so that a property of a whole run can be stated over
its trace; a `Run` is `Steps` from the start.

The rules below are the only inductions over runs: an invariant (`Run.inv`),
an invariant of the runs whose steps meet a condition (`Run.inv_if`), one that
speaks of the steps taken (`Steps.inv_trace`), what some of the steps keep
(`Steps.keeps`), when a property holds throughout a run (`Run.throughout_iff`)
and agreement with a specification (`Run.refines`).
-/

namespace Lib

/-- A program and the actions its surroundings may take. -/
structure Machine (S A : Type) where
  init : S
  /-- The surroundings may take this action in this state. -/
  enabled : S → A → Prop
  /-- What the program then does; `none` is a failed assertion or a bad access. -/
  exec : S → A → Option S

/-- The code's `assert`. -/
def assert (p : Prop) [Decidable p] : Option Unit := if p then some () else none

@[simp] theorem assert_eq_some {p : Prop} [Decidable p] {x : Unit} : assert p = some x ↔ p := by
  simp [assert]

@[simp] theorem assert_bind {α : Type} {p : Prop} [Decidable p] {f : Unit → Option α} (h : p) :
    (assert p >>= f) = f () := by
  simp [assert, h]

theorem some_bind {α β : Type} {x : α} {f : α → Option β} : (some x >>= f) = f x := rfl

variable {S A T : Type}

/-- From the first state to the last by the listed steps, each listed with the
state it was taken in. -/
inductive Steps (M : Machine S A) : S → List (S × A) → S → Prop
  | nil (s : S) : Steps M s [] s
  | cons {s t u : S} {a : A} {tr : List (S × A)} :
      M.enabled s a → M.exec s a = some t → Steps M t tr u → Steps M s ((s, a) :: tr) u

/-- The runs of `M`, with the state reached. -/
abbrev Run (M : Machine S A) (tr : List (S × A)) (s : S) : Prop := Steps M M.init tr s

/-- No action the surroundings may take makes the program fail. -/
def Machine.Safe (M : Machine S A) : Prop :=
  ∀ tr s a, Run M tr s → M.enabled s a → M.exec s a ≠ none

/-- Every step of a run meets `G`. -/
def Meets (G : S → A → Prop) (tr : List (S × A)) : Prop := ∀ p ∈ tr, G p.1 p.2

instance (G : S → A → Prop) [∀ s a, Decidable (G s a)] (tr : List (S × A)) : Decidable (Meets G tr) :=
  inferInstanceAs (Decidable (∀ p ∈ tr, G p.1 p.2))

/-- The states a run passes through, its last one included. -/
def Visited (tr : List (S × A)) (s t : S) : Prop := t ∈ tr.map Prod.fst ∨ t = s

variable {M : Machine S A} {tr pre post : List (S × A)} {s t u : S} {a : A}

/-! ## Parts of a run -/

theorem Steps.append (h : Steps M s pre t) (h' : Steps M t post u) : Steps M s (pre ++ post) u := by
  induction h with
  | nil => exact h'
  | cons he hx _ ih => exact .cons he hx (ih h')

theorem Steps.snoc (h : Steps M s tr t) (he : M.enabled t a) (hx : M.exec t a = some u) :
    Steps M s (tr ++ [(t, a)]) u :=
  h.append (.cons he hx (.nil u))

theorem Steps.split (h : Steps M s (pre ++ post) u) : ∃ t, Steps M s pre t ∧ Steps M t post u := by
  induction pre generalizing s with
  | nil => exact ⟨s, .nil s, h⟩
  | cons p pre ih =>
    cases h with
    | cons he hx h =>
      obtain ⟨t, h1, h2⟩ := ih h
      exact ⟨t, .cons he hx h1, h2⟩

/-- Every state a run passes through is reached by a first part of it. -/
theorem Steps.visited (h : Steps M s tr u) (hv : Visited tr u t) : ∃ pre, Steps M s pre t ∧ pre <+: tr := by
  rcases hv with hv | rfl
  · obtain ⟨⟨t, a⟩, hm, rfl⟩ := List.mem_map.1 hv
    obtain ⟨pre, post, rfl⟩ := List.append_of_mem hm
    obtain ⟨t', h1, h2⟩ := h.split
    cases h2 with
    | cons => exact ⟨pre, h1, List.prefix_append _ _⟩
  · exact ⟨tr, h, List.prefix_refl tr⟩

/-- Every step of a run was taken in a state that a first part of it reaches. -/
theorem Steps.taken {p : S × A} (h : Steps M s tr u) (hp : p ∈ tr) :
    ∃ pre t, Steps M s pre p.1 ∧ pre <+: tr ∧ M.enabled p.1 p.2 ∧ M.exec p.1 p.2 = some t := by
  obtain ⟨pre, post, rfl⟩ := List.append_of_mem hp
  obtain ⟨t', h1, h2⟩ := h.split
  cases h2 with
  | cons he hx => exact ⟨pre, _, h1, List.prefix_append _ _, he, hx⟩

/-! ## Invariants -/

theorem Steps.inv_if (I : S → Prop) (G : S → A → Prop)
    (hs : ∀ s a s', I s → M.enabled s a → G s a → M.exec s a = some s' → I s')
    (h : Steps M s tr u) (hG : Meets G tr) (hi : I s) : I u := by
  induction h with
  | nil => exact hi
  | cons he hx _ ih =>
    exact ih (fun p hp => hG p (List.mem_cons_of_mem _ hp)) (hs _ _ _ hi he (hG _ List.mem_cons_self) hx)

/-- An invariant of the runs whose steps all meet `G`. -/
theorem Run.inv_if (I : S → Prop) (G : S → A → Prop) (h0 : I M.init)
    (hs : ∀ s a s', I s → M.enabled s a → G s a → M.exec s a = some s' → I s')
    (h : Run M tr s) (hG : Meets G tr) : I s :=
  Steps.inv_if I G hs h hG h0

theorem Run.inv (I : S → Prop) (h0 : I M.init)
    (hs : ∀ s a s', I s → M.enabled s a → M.exec s a = some s' → I s') (h : Run M tr s) : I s :=
  h.inv_if I (fun _ _ => True) h0 (fun s a s' hi he _ hx => hs s a s' hi he hx) (fun _ _ => trivial)

/-- An invariant that speaks of the steps taken as well. -/
theorem Steps.inv_trace (I : List (S × A) → S → Prop) (h0 : I [] s)
    (hs : ∀ tr t a u, Steps M s tr t → I tr t → M.enabled t a → M.exec t a = some u → I (tr ++ [(t, a)]) u)
    (h : Steps M s tr u) : I tr u := by
  induction tr using List.reverseRecOn generalizing u with
  | nil => cases h; exact h0
  | append_singleton tr p ih =>
    obtain ⟨t, hr, hlast⟩ := Steps.split h
    cases hlast with
    | cons he hx hnil =>
      cases hnil
      exact hs tr _ _ _ hr (ih hr) he hx

/-- A machine whose every allowed action succeeds and keeps `I` is safe. -/
theorem Machine.safe_of_inv (I : S → Prop) (h0 : I M.init)
    (hs : ∀ s a, I s → M.enabled s a → ∃ s', M.exec s a = some s' ∧ I s') : M.Safe := by
  intro tr s a h he hn
  have hi : I s := h.inv I h0 fun s a s' hi he hx => by
    obtain ⟨s'', hx', hi'⟩ := hs s a hi he
    rw [hx] at hx'; cases hx'; exact hi'
  obtain ⟨s', hx, -⟩ := hs s a hi he
  rw [hn] at hx; cases hx

theorem Steps.keeps (Q : S → Prop) (h : Steps M s tr u)
    (hkeep : ∀ s b s', (s, b) ∈ tr → Q s → M.enabled s b → M.exec s b = some s' → Q s') (hq : Q s) :
    Q u ∧ ∀ p ∈ tr, Q p.1 := by
  induction h with
  | nil => exact ⟨hq, by simp⟩
  | cons he hx _ ih =>
    obtain ⟨h1, h2⟩ := ih (fun s b s' hm => hkeep s b s' (List.mem_cons_of_mem _ hm))
      (hkeep _ _ _ List.mem_cons_self hq he hx)
    refine ⟨h1, ?_⟩
    intro p hp
    rcases List.mem_cons.1 hp with rfl | hp
    · exact hq
    · exact h2 p hp

/-- `P` holds in every state of a run exactly when every step of it meets `G`,
where `G` decides step by step whether `P` is kept. -/
theorem Run.throughout_iff (I P : S → Prop) (G : S → A → Prop) (h0 : I M.init) (hP : ∀ s, I s → P s)
    (hkeep : ∀ s a s', I s → M.enabled s a → G s a → M.exec s a = some s' → I s')
    (hbreak : ∀ s a s', I s → M.enabled s a → ¬ G s a → M.exec s a = some s' → ¬ P s')
    (h : Run M tr s) : (∀ t, Visited tr s t → P t) ↔ Meets G tr := by
  constructor
  · intro hv
    have main : ∀ {s tr u}, Steps M s tr u → I s → (∀ t, Visited tr u t → P t) → Meets G tr := by
      intro s tr u h
      induction h with
      | nil => intro _ _; simp [Meets]
      | @cons s t u a tr he hx h ih =>
        intro hi hv
        have hg : G s a := by
          by_contra hg
          refine hbreak s a t hi he hg hx (hv t ?_)
          cases h with
          | nil => exact .inr rfl
          | cons => exact .inl (by simp)
        have := ih (hkeep s a t hi he hg hx) fun t ht => hv t (ht.imp (by simp +contextual) id)
        intro p hp
        rcases List.mem_cons.1 hp with rfl | hp
        · exact hg
        · exact this p hp
    exact main h h0 hv
  · intro hG t ht
    obtain ⟨pre, hr, hpre⟩ := Steps.visited h ht
    exact hP t (Run.inv_if I G h0 hkeep hr fun p hp => hG p (hpre.subset hp))

/-! ## Specifications -/

/-- If every step changes the view `abs` as `spec` says, then so does a run. -/
theorem Run.refines (I : S → Prop) (abs : S → T) (spec : T → A → T) (h0 : I M.init)
    (hs : ∀ s a s', I s → M.enabled s a → M.exec s a = some s' → I s' ∧ abs s' = spec (abs s) a)
    (h : Run M tr s) : abs s = (tr.map Prod.snd).foldl spec (abs M.init) := by
  have main : ∀ {s tr u}, Steps M s tr u → I s → abs u = (tr.map Prod.snd).foldl spec (abs s) := by
    intro s tr u h
    induction h with
    | nil => intro _; rfl
    | cons he hx _ ih =>
      intro hi
      obtain ⟨hi', e⟩ := hs _ _ _ hi he hx
      rw [ih hi', e]; rfl
  exact main h h0

/-! ## Playing a run -/

/-- Take the listed actions one after the other, if each is allowed. -/
def Machine.play (M : Machine S A) [∀ s a, Decidable (M.enabled s a)] (s : S) :
    List A → Option (List (S × A) × S)
  | [] => some ([], s)
  | a :: as =>
    if M.enabled s a then
      (M.exec s a).bind fun t => (M.play t as).map fun r => ((s, a) :: r.1, r.2)
    else none

theorem Machine.play_steps [∀ s a, Decidable (M.enabled s a)] {as : List A} {r : List (S × A) × S}
    (h : M.play s as = some r) : Steps M s r.1 r.2 := by
  induction as generalizing s r with
  | nil => simp only [Machine.play, Option.some.injEq] at h; subst h; exact .nil s
  | cons a as ih =>
    unfold Machine.play at h
    split at h
    · rename_i he
      obtain ⟨t, hx, h⟩ := Option.bind_eq_some_iff.1 h
      obtain ⟨r', hr', rfl⟩ := Option.map_eq_some_iff.1 h
      exact .cons he hx (ih hr')
    · cases h

end Lib
