import Cppnetool.Lib.Numeral
import Cppnetool.LogStream
/-!
# Numbers as text

`convert` never negates: it takes truncating remainders of a negative number,
which are not positive, and reads them from the half of the table in front of
`zero`. So it has the digits of the absolute value for every number, also for
one whose absolute value is not of the type.
-/
open Lib

namespace Cppnetool.LogStream

variable {t : IntType} {mem : List Byte} {p buf : Nat}

/-! ## Texts -/

def decimalDigit (d : Nat) : Byte := UInt8.ofNat ('0'.toNat + d)

def hexDigit (d : Nat) : Byte := UInt8.ofNat (if d < 10 then '0'.toNat + d else 'A'.toNat + (d - 10))

def minus (v : Int) : List Byte := if v < 0 then [ch '-'] else []

def decimalText (v : Int) : List Byte := minus v ++ (numeral 10 v.natAbs).map decimalDigit

def hexText (n : Nat) : List Byte := (numeral 16 n).map hexDigit

/-- The value of a digit, among the first `base` that `digit` has. -/
def readDigit (digit : Nat → Byte) (base : Nat) (c : Byte) : Option Nat := (List.range base).find? (digit · = c)

/-- The number that a text of digits stands for. -/
def readNat (digit : Nat → Byte) (base : Nat) (text : List Byte) : Option Nat :=
  if text = [] then none else (text.mapM (readDigit digit base)).map (numeralValue base)

def readInt : List Byte → Option Int
  | c :: text => if c = ch '-' then (readNat decimalDigit 10 text).map fun n : Nat => -(n : Int)
    else (readNat decimalDigit 10 (c :: text)).map fun n : Nat => (n : Int)
  | [] => none

/-- The text of `n` in base `base`: it reads back as `n`, has digits only, and a
0 in front only where it is all there is. -/
structure Canonical (digit : Nat → Byte) (base n : Nat) (text : List Byte) : Prop where
  reads : readNat digit base text = some n
  digits : ∀ c ∈ text, ∃ d < base, c = digit d
  head : text.head? = some (digit 0) → n = 0 ∧ text = [digit 0]

/-- The decimal text of `v`, with a `-` exactly where `v` is negative. -/
structure Decimal (v : Int) (text : List Byte) : Prop where
  reads : readInt text = some v
  canonical : ∃ ds, text = minus v ++ ds ∧ Canonical decimalDigit 10 v.natAbs ds

theorem readDecimal_digit : ∀ d < 10, readDigit decimalDigit 10 (decimalDigit d) = some d := by decide

theorem decimalDigit_ne_minus : ∀ d < 10, decimalDigit d ≠ ch '-' := by decide

theorem readHex_digit : ∀ d < 16, readDigit hexDigit 16 (hexDigit d) = some d := by decide

theorem mapM_map {α β : Type} {f : β → Option α} {g : α → β} {l : List α} (h : ∀ x ∈ l, f (g x) = some x) :
    (l.map g).mapM f = some l := by
  induction l with
  | nil => rfl
  | cons x l ih =>
    rw [List.map_cons, List.mapM_cons, h x (by simp), some_bind, ih fun y hy => h y (by simp [hy])]
    rfl

section Numerals
variable {digit : Nat → Byte} {base : Nat} (hb : 1 < base)
  (hr : ∀ d < base, readDigit digit base (digit d) = some d) (n : Nat)
include hb hr

theorem canonical_numeral : Canonical digit base n ((numeral base n).map digit) where
  reads := by
    rw [readNat, if_neg (by simp [numeral_ne_nil]), mapM_map fun d hd => hr d (numeral_lt hb hd)]
    exact congrArg some (numeralValue_numeral base n)
  digits c hc := by
    obtain ⟨d, hd, rfl⟩ := List.mem_map.1 hc
    exact ⟨d, numeral_lt hb hd, rfl⟩
  head h := by
    rw [List.head?_map, Option.map_eq_some_iff] at h
    obtain ⟨d, hd, he⟩ := h
    -- only 0 has the text of 0
    have h0 : d = 0 := by
      have := hr d (numeral_lt hb (List.mem_of_head? hd))
      rw [he, hr 0 (by omega)] at this
      exact (Option.some.inj this).symm
    rw [h0] at hd
    have hn := numeral_of_head?_zero hd
    have hv := numeralValue_numeral base n
    rw [hn] at hv ⊢
    exact ⟨hv.symm.trans (by simp [numeralValue]), rfl⟩

end Numerals

theorem readInt_decimalText (v : Int) : readInt (decimalText v) = some v := by
  have hc := canonical_numeral (by decide) readDecimal_digit v.natAbs
  unfold decimalText minus
  split
  · rw [List.singleton_append, readInt, if_pos rfl, hc.reads, Option.map_some]
    congr 1
    omega
  · rw [List.nil_append]
    cases hd : (numeral 10 v.natAbs).map decimalDigit with
    | nil => simp [numeral_ne_nil] at hd
    | cons c text =>
      -- no digit is taken for a sign
      have hne : c ≠ ch '-' := by
        obtain ⟨d, hlt, rfl⟩ := hc.digits c (by simp [hd])
        exact decimalDigit_ne_minus d hlt
      rw [readInt, if_neg hne, ← hd, hc.reads, Option.map_some]
      congr 1
      omega

theorem decimal_decimalText (v : Int) : Decimal v (decimalText v) :=
  ⟨readInt_decimalText v, _, rfl, canonical_numeral (by decide) readDecimal_digit v.natAbs⟩

theorem canonical_hexText (n : Nat) : Canonical hexDigit 16 n (hexText n) :=
  canonical_numeral (by decide) readHex_digit n

/-! ## Lengths -/

theorem natAbs_lt (ht : t.width ≤ 64) (v : t.Val) : v.val.natAbs < 2 ^ 64 := by
  have h1 := v.min_le
  have h2 := v.le_max
  have h3 : (2 : Int) ^ t.width ≤ 2 ^ 64 := by
    exact_mod_cast Nat.pow_le_pow_right (by decide) ht
  have h4 : (2 : Int) ^ (t.width - 1) ≤ 2 ^ 63 := by
    exact_mod_cast Nat.pow_le_pow_right (by decide) (by omega)
  unfold IntType.min at h1
  unfold IntType.max at h2
  split at h1 <;> split at h2 <;> omega

theorem length_decimalText (ht : t.width ≤ 64) (v : t.Val) : (decimalText v.val).length ≤ 21 := by
  have h := (length_revNumeral_le_iff (b := 10) (k := 20) (by decide) (by decide)).2
    (Nat.lt_of_lt_of_le (natAbs_lt ht v) (by decide))
  have hm : (minus v.val).length ≤ 1 := by
    unfold minus
    split <;> simp
  rw [decimalText, List.length_append, List.length_map, length_numeral]
  omega

theorem length_hexText (p : uintptr.Val) : (hexText p.val.natAbs).length ≤ 16 := by
  rw [hexText, List.length_map, length_numeral]
  exact (length_revNumeral_le_iff (by decide) (by decide)).2 (Nat.lt_of_lt_of_le (natAbs_lt (by decide) p) (by decide))

/-! ## The loops -/

theorem zero_tmod (x : Int) : zero (x.tmod 10) = some (decimalDigit (x.natAbs % 10)) := by
  have table : ∀ d : Nat, d < 10 →
      zero (d : Int) = some (decimalDigit d) ∧ zero (-(d : Int)) = some (decimalDigit d) := by decide
  have hd : (x.tmod 10).natAbs = x.natAbs % 10 := Int.natAbs_tmod ..
  obtain ⟨h1, h2⟩ := table _ (Nat.mod_lt x.natAbs (by decide))
  rcases Int.natAbs_eq (x.tmod 10) with he | he
  · rw [he, hd]
    exact h1
  · rw [he, hd]
    exact h2

theorem digitHex_tmod (p : uintptr.Val) : digitHex (p.val.tmod 16) = some (hexDigit (p.val.natAbs % 16)) := by
  have table : ∀ d : Nat, d < 16 → digitHex (d : Int) = some (hexDigit d) := by decide
  obtain ⟨n, hn⟩ := Int.eq_ofNat_of_zero_le (show 0 ≤ p.val from p.min_le)
  rw [hn]
  exact table _ (Nat.mod_lt _ (by decide))

theorem store_eq {c : Byte} (h : p < mem.length) : store mem p c = some (overwrite mem p [c]) := by
  rw [store, if_pos h, overwrite_singleton h]

section Loop
variable {digit : Int → Option Byte} {text : Nat → Byte} {base : Nat} {hb : 1 < base}

/-- The loop ends, with the digits of the absolute value in memory. -/
theorem digitLoop_spec (hd : ∀ i : t.Val, digit (i.val.tmod base) = some (text (i.val.natAbs % base))) (i : t.Val)
    (h : p + (revNumeral base i.val.natAbs).length ≤ mem.length) : digitLoop digit base hb mem p i =
      some (overwrite mem p ((revNumeral base i.val.natAbs).map text), p + (revNumeral base i.val.natAbs).length) := by
  induction hn : i.val.natAbs using Nat.strongRecOn generalizing mem p i with
  | ind n ih =>
    subst hn
    have hq : (i.quot base).val.natAbs = i.val.natAbs / base := Int.natAbs_tdiv ..
    have hz : (i.quot base).val = 0 ↔ i.val.natAbs / base = 0 := by rw [← hq, Int.natAbs_eq_zero]
    rw [revNumeral_step hb] at h ⊢
    rw [digitLoop, hd, some_bind, store_eq (by rw [List.length_cons] at h; omega), some_bind]
    split
    · rename_i hne
      rw [if_neg (mt hz.2 hne)] at h ⊢
      rw [List.length_cons] at h
      have hlt := IntType.Val.quot_lt hb hne
      rw [ih _ hlt (i.quot base) (by rw [hq, length_overwrite (by simp; omega)]; omega) rfl, hq]
      rw [show p + 1 = p + [text (i.val.natAbs % base)].length from rfl, overwrite_append (by simp; omega)]
      simp [Nat.add_assoc, Nat.add_comm 1]
    · rename_i he
      rw [if_pos (hz.1 (not_not.1 he))]
      rfl

end Loop

/-- The byte behind what has been written. -/
theorem store_behind {text : List Byte} {c : Byte} (h : p + text.length < mem.length) :
    store (overwrite mem p text) (p + text.length) c = some (overwrite mem p (text ++ [c])) := by
  rw [store_eq (by rw [length_overwrite (by omega)]; exact h), overwrite_append (by omega)]

theorem reverse_written {text : List Byte} (h : p + text.length < mem.length) :
    reverse (overwrite mem p (text ++ [0])) p (p + text.length) = overwrite mem p (text.reverse ++ [0]) := by
  have hs : slice (overwrite mem p (text ++ [0])) p (p + text.length) = text := by
    rw [← overwrite_append (by omega), slice_overwrite_of_disjoint (by rw [length_overwrite (by omega)]; omega)
      (.inl (Nat.le_refl _)), slice_overwrite_self (by omega)]
  rw [reverse, hs, overwrite_overwrite (by omega) List.length_reverse]

/-- How both functions end. -/
theorem terminate_spec {text : List Byte} {last : Nat} (hl : last = p + text.length) (h : last < mem.length) : (do
      let mem ← store (overwrite mem p text) last 0
      return (reverse mem p last, last - p)) = some (overwrite mem p (text.reverse ++ [0]), text.length) := by
  subst hl
  rw [store_behind h, Option.bind_eq_bind, Option.bind_some, reverse_written h, Nat.add_sub_cancel_left]
  rfl

/-- The text and its NUL, where there is room for them. -/
theorem convert_spec (v : t.Val) (h : buf + (decimalText v.val).length < mem.length) : convert mem buf v =
    some (overwrite mem buf (decimalText v.val ++ [0]), (decimalText v.val).length) := by
  have ht : decimalText v.val = ((revNumeral 10 v.val.natAbs).map decimalDigit ++ minus v.val).reverse := by
    unfold decimalText minus numeral
    split <;> simp
  have hl : (revNumeral 10 v.val.natAbs).length = ((revNumeral 10 v.val.natAbs).map decimalDigit).length := by simp
  rw [ht] at h ⊢
  rw [List.length_reverse] at h ⊢
  have hle : buf + ((revNumeral 10 v.val.natAbs).map decimalDigit).length < mem.length := by
    rw [List.length_append] at h
    omega
  rw [convert, digitLoop_spec (fun i => zero_tmod i.val) v (by rw [hl]; exact Nat.le_of_lt hle), hl, some_bind]
  unfold minus at h ⊢
  dsimp only
  split
  · rename_i hv
    rw [if_pos hv] at h
    rw [store_behind hle, Option.map_some, some_bind]
    exact terminate_spec (by simp [Nat.add_assoc]) (by simpa [Nat.add_assoc] using h)
  · rw [List.append_nil, some_bind]
    exact terminate_spec rfl hle

theorem convertHex_spec (v : uintptr.Val) (h : buf + (hexText v.val.natAbs).length < mem.length) :
    convertHex mem buf v =
      some (overwrite mem buf (hexText v.val.natAbs ++ [0]), (hexText v.val.natAbs).length) := by
  have ht : hexText v.val.natAbs = ((revNumeral 16 v.val.natAbs).map hexDigit).reverse := by simp [hexText, numeral]
  have hl : (revNumeral 16 v.val.natAbs).length = ((revNumeral 16 v.val.natAbs).map hexDigit).length := by simp
  rw [ht] at h ⊢
  rw [List.length_reverse] at h ⊢
  rw [convertHex, digitLoop_spec digitHex_tmod v (by rw [hl]; exact Nat.le_of_lt h), hl, some_bind]
  exact terminate_spec rfl h

/-- For every number of a type of up to 64 bits `convert` writes its canonical
decimal text and a NUL, and for every pointer `convertHex` its canonical
hexadecimal text; with the `0x` in front, neither needs more than
`kMaxNumericSize` bytes. -/
theorem convert_canonical (ht : t.width ≤ 64) (v : t.Val) (p : uintptr.Val)
    (hroom : buf + kMaxNumericSize ≤ mem.length) :
    (∃ text, convert mem buf v = some (overwrite mem buf (text ++ [0]), text.length) ∧ Decimal v.val text ∧
      text.length + 1 ≤ kMaxNumericSize) ∧
    ∃ text, convertHex mem (buf + 2) p = some (overwrite mem (buf + 2) (text ++ [0]), text.length) ∧
      Canonical hexDigit 16 p.val.toNat text ∧ 2 + text.length + 1 ≤ kMaxNumericSize := by
  have h1 := length_decimalText ht v
  have h2 := length_hexText p
  have hp : p.val.toNat = p.val.natAbs := by
    have : 0 ≤ p.val := p.min_le
    omega
  unfold kMaxNumericSize at hroom ⊢
  refine ⟨⟨_, convert_spec v (by omega), decimal_decimalText v.val, by omega⟩,
    _, convertHex_spec p (by omega), ?_, by omega⟩
  rw [hp]
  exact canonical_hexText _

/-- The most negative number of 64 bits, and the highest address. -/
theorem convert_canonical_min : ∃ (v : long.Val) (p : uintptr.Val), v.val = -2 ^ 63 ∧ p.val = 2 ^ 64 - 1 ∧
    convert (List.replicate 32 0) 0 v =
      some (overwrite (List.replicate 32 0) 0 (chars "-9223372036854775808" ++ [0]), 20) ∧
    (∃ text, convert (List.replicate 32 0) 0 v =
        some (overwrite (List.replicate 32 0) 0 (text ++ [0]), text.length) ∧ Decimal v.val text ∧
      text.length + 1 ≤ kMaxNumericSize) ∧
    ∃ text, convertHex (List.replicate 32 0) 2 p =
        some (overwrite (List.replicate 32 0) 2 (text ++ [0]), text.length) ∧
      Canonical hexDigit 16 p.val.toNat text ∧ 2 + text.length + 1 ≤ kMaxNumericSize :=
  ⟨⟨-2 ^ 63, by decide, by decide⟩, ⟨2 ^ 64 - 1, by decide, by decide⟩, rfl, rfl, by decide +kernel,
    convert_canonical (by decide) _ _ (by decide)⟩

end Cppnetool.LogStream
