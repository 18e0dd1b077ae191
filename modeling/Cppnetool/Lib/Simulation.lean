import Cppnetool.Lib.Runs
/-!
# Simulation

A machine whose every step is at most one step of another machine, seen
through a function of its states. Its runs are then runs of that machine, with
the steps left out that it does not see (`Run.simulates`, and
`Run.simulates_if` for the runs that meet a condition).
-/

namespace Lib

variable {S A T B : Type} {M : Machine S A} {N : Machine T B} {tr : List (S × A)} {s : S}

/-- The run as the other machine sees it. -/
def seen (abs : S → T) (act : S → A → Option B) (tr : List (S × A)) : List (T × B) :=
  tr.filterMap fun p => (act p.1 p.2).map fun b => (abs p.1, b)

theorem seen_snoc (abs : S → T) (act : S → A → Option B) (tr : List (S × A)) (p : S × A) :
    seen abs act (tr ++ [p]) = seen abs act tr ++ ((act p.1 p.2).map fun b => (abs p.1, b)).toList := by
  rw [seen, List.filterMap_append, seen]
  cases h : act p.1 p.2 <;> simp [h]

/-- A step from `t` to `t'`, or none. -/
def Step (N : Machine T B) (t : T) (b : Option B) (t' : T) : Prop :=
  match b with
  | none => t' = t
  | some b => N.enabled t b ∧ N.exec t b = some t'

theorem Step.none {t t' : T} (h : t' = t) : Step N t none t' := h

theorem Step.some {t t' : T} {b : B} (he : N.enabled t b) (hx : N.exec t b = some t') : Step N t (some b) t' := ⟨he, hx⟩

/-- Runs whose steps meet `G`, and whose steps there meet `H`. -/
theorem Run.simulates_if (I : S → Prop) (G : S → A → Prop) (H : T → B → Prop) (abs : S → T) (act : S → A → Option B)
    (h0 : I M.init) (habs : abs M.init = N.init)
    (hs : ∀ s a s', I s → M.enabled s a → G s a → M.exec s a = some s' →
      I s' ∧ Step N (abs s) (act s a) (abs s') ∧ ∀ b ∈ act s a, H (abs s) b)
    (h : Run M tr s) (hG : Meets G tr) : I s ∧ Run N (seen abs act tr) (abs s) ∧ Meets H (seen abs act tr) := by
  refine h.inv_trace (I := fun tr s => Meets G tr → I s ∧ Run N (seen abs act tr) (abs s) ∧ Meets H (seen abs act tr))
    ?_ ?_ hG
  · intro _
    refine ⟨h0, ?_, fun p hp => absurd hp List.not_mem_nil⟩
    rw [habs]
    exact .nil N.init
  · intro tr t a u _ ih he hx hG
    obtain ⟨hi, hrun, hH⟩ := ih fun p hp => hG p (List.mem_append_left _ hp)
    obtain ⟨hi', hstep, hb⟩ := hs t a u hi he (hG (t, a) (List.mem_append_right _ List.mem_cons_self)) hx
    refine ⟨hi', ?_⟩
    rw [seen_snoc]
    cases hact : act t a with
    | none =>
      rw [hact] at hstep
      rw [show abs u = abs t from hstep]
      simpa [hact] using ⟨hrun, hH⟩
    | some b =>
      rw [hact] at hstep
      refine ⟨by simpa [hact] using hrun.snoc hstep.1 hstep.2, ?_⟩
      intro p hp
      rcases List.mem_append.1 hp with hp | hp
      · exact hH p hp
      · obtain rfl : p = (abs t, b) := by simpa [hact] using hp
        exact hb b hact

theorem Run.simulates (I : S → Prop) (abs : S → T) (act : S → A → Option B) (h0 : I M.init)
    (habs : abs M.init = N.init)
    (hs : ∀ s a s', I s → M.enabled s a → M.exec s a = some s' → I s' ∧ Step N (abs s) (act s a) (abs s'))
    (h : Run M tr s) : I s ∧ Run N (seen abs act tr) (abs s) := by
  obtain ⟨hi, hrun, -⟩ := h.simulates_if I (fun _ _ => True) (fun _ _ => True) abs act h0 habs
    (fun s a s' hi he _ hx => ⟨(hs s a s' hi he hx).1, (hs s a s' hi he hx).2, fun _ _ => trivial⟩) fun _ _ => trivial
  exact ⟨hi, hrun⟩

end Lib
