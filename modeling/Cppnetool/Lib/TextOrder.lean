import Cppnetool.Lib.Numeral
/-!
# The order of texts

Texts are compared from the left. A text that is made of fields of fixed width
is compared field by field, and a number that is written with all the digits of
its field is compared as a number (`compares_fixed`).
-/

namespace Lib

variable {α : Type} [LT α] {a b c d : List α} {lt eq lt' eq' : Prop}

/-- Two texts of one length, as they compare with each other. -/
structure Compares (a b : List α) (lt eq : Prop) : Prop where
  length : a.length = b.length
  lt : a < b ↔ lt
  eq : a = b ↔ eq

theorem append_lt_append_iff (h : a.length = b.length) : a ++ c < b ++ d ↔ a < b ∨ a = b ∧ c < d := by
  induction a generalizing b with
  | nil =>
    have hb : b = [] := List.length_eq_zero_iff.1 h.symm
    simp [hb, List.not_lt_nil]
  | cons x a ih =>
    cases b with
    | nil => cases h
    | cons y b =>
      rw [List.cons_append, List.cons_append, List.cons_lt_cons_iff, List.cons_lt_cons_iff, ih (Nat.succ.inj h)]
      simp only [List.cons.injEq]
      tauto

/-- Fields that stand behind each other. -/
theorem Compares.append (h : Compares a b lt eq) (h' : Compares c d lt' eq') :
    Compares (a ++ c) (b ++ d) (lt ∨ eq ∧ lt') (eq ∧ eq') where
  length := by rw [List.length_append, List.length_append, h.length, h'.length]
  lt := by rw [append_lt_append_iff h.length, h.lt, h.eq, h'.lt]
  eq := by
    rw [← h.eq, ← h'.eq]
    exact ⟨fun he => List.append_inj he h.length, fun ⟨h1, h2⟩ => by rw [h1, h2]⟩

theorem Compares.imp (h : Compares a b lt eq) (hlt : lt ↔ lt') (heq : eq ↔ eq') : Compares a b lt' eq' :=
  ⟨h.length, h.lt.trans hlt, h.eq.trans heq⟩

/-- A text that stands in both. -/
theorem Compares.literal [Std.Irrefl fun x y : α => x < y] (h : Compares a b lt eq) (l : List α) :
    Compares (a ++ l) (b ++ l) lt eq := by
  have hl : Compares l l False True := ⟨rfl, iff_of_false (List.lt_irrefl l) id, iff_of_true rfl trivial⟩
  exact (h.append hl).imp (by tauto) (by tauto)

/-! ## Numbers -/

/-- The last `w` digits of a number. -/
def fixed (digit : Nat → α) (base : Nat) : Nat → Nat → List α
  | 0, _ => []
  | w + 1, n => fixed digit base w (n / base) ++ [digit (n % base)]

section Fixed
variable {digit : Nat → α} {base w m n : Nat}

/-- Digits are sorted by their values. -/
structure Digits (digit : Nat → α) (base : Nat) : Prop where
  pos : 0 < base
  lt : ∀ m < base, ∀ n < base, digit m < digit n ↔ m < n
  eq : ∀ m < base, ∀ n < base, digit m = digit n ↔ m = n

theorem Digits.compares (D : Digits digit base) (hm : m < base) (hn : n < base) :
    Compares [digit m] [digit n] (m < n) (m = n) where
  length := rfl
  lt := by simp [List.cons_lt_cons_iff, D.lt m hm n hn, List.not_lt_nil]
  eq := by simp [D.eq m hm n hn]

/-- Numbers in fields of one width compare as numbers. -/
theorem compares_fixed (D : Digits digit base) (hm : m < base ^ w) (hn : n < base ^ w) :
    Compares (fixed digit base w m) (fixed digit base w n) (m < n) (m = n) := by
  induction w generalizing m n with
  | zero =>
    rw [Nat.pow_zero] at hm hn
    exact ⟨rfl, by simp [fixed, List.not_lt_nil]; omega, by simp [fixed]; omega⟩
  | succ w ih =>
    rw [Nat.pow_succ'] at hm hn
    have h1 := ih (Nat.div_lt_of_lt_mul hm) (Nat.div_lt_of_lt_mul hn)
    have h2 := D.compares (Nat.mod_lt m D.pos) (Nat.mod_lt n D.pos)
    have em := Nat.div_add_mod m base
    have en := Nat.div_add_mod n base
    refine (h1.append h2).imp ?_ ?_
    · constructor
      · rintro (h | ⟨he, h⟩)
        · exact Nat.lt_of_div_lt_div h
        · rw [← em, ← en, he]
          omega
      · intro h
        rcases Nat.lt_or_eq_of_le (Nat.div_le_div_right (c := base) (Nat.le_of_lt h)) with hlt | heq
        · exact .inl hlt
        · rw [← em, ← en, heq] at h
          exact .inr ⟨heq, by omega⟩
    · constructor
      · rintro ⟨h1, h2⟩
        rw [← em, ← en, h1, h2]
      · rintro rfl
        exact ⟨rfl, rfl⟩

omit [LT α] in
/-- A numeral that is filled up with zeros. -/
theorem fixed_eq (hb : 1 < base) (hw : 0 < w) (hn : n < base ^ w) :
    fixed digit base w n =
      List.replicate (w - (numeral base n).length) (digit 0) ++ (numeral base n).map digit := by
  induction w generalizing n with
  | zero => cases hw
  | succ w ih =>
    have hstep : numeral base n = (if n / base = 0 then [] else numeral base (n / base)) ++ [n % base] := by
      rw [numeral, revNumeral_step hb]
      split <;> simp [numeral]
    rw [fixed, hstep]
    rcases Nat.eq_zero_or_pos w with rfl | hw
    · rw [Nat.zero_add, Nat.pow_one] at hn
      simp [fixed, Nat.div_eq_of_lt hn]
    · rw [Nat.pow_succ'] at hn
      rw [ih hw (Nat.div_lt_of_lt_mul hn)]
      split
      · rename_i h0
        have hzero : numeral base 0 = [0] := by simp [numeral, revNumeral]
        rw [h0, hzero]
        obtain ⟨k, rfl⟩ := Nat.exists_eq_succ_of_ne_zero (Nat.ne_of_gt hw)
        simp [List.replicate_succ']
      · simp

end Fixed

end Lib
