import Cppnetool.Lib.Runs
import Cppnetool.LogStreamFormat
/-!
# What a `LogStream` holds

A string is copied if it is shorter than the room that is left. A number is
written in place, with its NUL, if there are `kMaxNumericSize` bytes, before it
is known how long it is. Either way the whole piece is there or nothing of it,
and there is a byte left behind the content.
-/
open Lib

namespace Cppnetool.LogStream

/-! ## Pieces -/

/-- What a piece adds to the content. -/
def Piece.text : Piece → List Byte
  | bool v => chars (if v then "1" else "0")
  | short v => decimalText v.val
  | unsignedShort v => decimalText v.val
  | int v => decimalText v.val
  | unsignedInt v => decimalText v.val
  | long v => decimalText v.val
  | unsignedLong v => decimalText v.val
  | longLong v => decimalText v.val
  | unsignedLongLong v => decimalText v.val
  | pointer p => chars "0x" ++ hexText p.val.natAbs
  | double text => text
  | char v => [v]
  | cstr v => v
  | T v => v.str
  | string v => v
  | fmt v => v.buf.take v.length

/-- The pieces that are written in place. -/
def Piece.numeric : Piece → Bool
  | bool _ | char _ | cstr _ | T _ | string _ | fmt _ => false
  | _ => true

/-- The length of a string is an `int`, and a `double` prints in at most 31 characters. -/
def Piece.Fits : Piece → Prop
  | cstr v | string v => v.length < 2 ^ 31
  | T v => v.len < 2 ^ 31
  | double text => text.length ≤ 31
  | _ => True

/-- There is room for the piece. -/
def Accepts (b : FixedBuffer) (p : Piece) : Prop :=
  if p.numeric then kMaxNumericSize ≤ b.avail else p.text.length < b.avail

instance : ∀ p : Piece, Decidable p.Fits
  | .cstr _ | .string _ | .T _ => inferInstanceAs (Decidable (_ < _))
  | .double _ => inferInstanceAs (Decidable (_ ≤ _))
  | .bool _ | .short _ | .unsignedShort _ | .int _ | .unsignedInt _ | .long _ | .unsignedLong _ | .longLong _
  | .unsignedLongLong _ | .pointer _ | .char _ | .fmt _ => .isTrue trivial

instance (b : FixedBuffer) (p : Piece) : Decidable (Accepts b p) := inferInstanceAs (Decidable (ite ..))

/-! ## Writing behind the content -/

variable {t : IntType} {b b' s : FixedBuffer} {p : Piece} {text e src : List Byte} {n : Nat}

/-- There is a byte behind the content. -/
def FixedBuffer.Wf (b : FixedBuffer) : Prop := b.cur < b.data.length

/-- A piece has gone into the buffer as a whole, or not at all. -/
structure Inserted (accepts : Prop) (b b' : FixedBuffer) (text : List Byte) : Prop where
  length : b'.data.length = b.data.length
  wf : b'.Wf
  accepted : accepts → b'.asString = b.asString ++ text
  rejected : ¬ accepts → b' = b

theorem inserted_same {a : Prop} (h : b.Wf) (ha : ¬ a) : Inserted a b b text :=
  ⟨rfl, h, fun h => absurd h ha, fun _ => rfl⟩

theorem FixedBuffer.Wf.length_asString (h : b.Wf) : b.asString.length = b.cur :=
  List.length_take_of_le (Nat.le_of_lt h)

theorem FixedBuffer.Wf.avail_pos (h : b.Wf) : 0 < b.avail := by
  unfold FixedBuffer.Wf at h
  unfold FixedBuffer.avail
  omega

theorem Inserted.avail {a : Prop} (h : b.Wf) (hi : Inserted a b b' text) (ha : a) :
    b'.avail = b.avail - text.length := by
  have hl := congrArg List.length (hi.accepted ha)
  have hd := hi.length
  rw [List.length_append, h.length_asString, hi.wf.length_asString] at hl
  unfold FixedBuffer.avail
  omega

/-- The two ways in which a piece can go. -/
theorem Inserted.ways {a : Prop} (h : b.Wf) (hi : Inserted a b b' text) :
    a ∧ b'.asString = b.asString ++ text ∧ b'.avail = b.avail - text.length ∨ ¬ a ∧ b' = b := by
  by_cases ha : a
  · exact .inl ⟨ha, hi.accepted ha, hi.avail h ha⟩
  · exact .inr ⟨ha, hi.rejected ha⟩

/-- `text` has been written behind the content, and `e` behind that. -/
theorem inserted_written {a : Prop} (h : b.cur + text.length < b.data.length)
    (he : b.cur + (text ++ e).length ≤ b.data.length) (ha : a) :
    Inserted a b ⟨overwrite b.data b.cur (text ++ e), b.cur + text.length⟩ text := by
  have hl := length_overwrite he
  refine ⟨hl, ?_, fun _ => take_overwrite (Nat.le_of_lt h), fun hn => absurd ha hn⟩
  rw [FixedBuffer.Wf, hl]
  exact h

theorem append_spec (src : List Byte) (h : b.Wf) (hn : n ≤ src.length) :
    ∃ b', b.append src n = some b' ∧ Inserted ((n : Int) < b.avail) b b' (src.take n) := by
  by_cases ha : (n : Int) < b.avail
  · have hlt : b.cur + n < b.data.length := by
      unfold FixedBuffer.avail at ha
      omega
    have htake : (src.take n).length = n := List.length_take_of_le hn
    have hi : Inserted ((n : Int) < b.avail) b ⟨overwrite b.data b.cur (src.take n ++ []), b.cur + (src.take n).length⟩
        (src.take n) := inserted_written (by omega) (by simp; omega) ha
    rw [List.append_nil, htake] at hi
    refine ⟨_, ?_, hi⟩
    rw [FixedBuffer.append, if_pos ha, memcpy, assert_bind ⟨Int.natCast_nonneg n, by simpa, by simp; omega⟩]
    rfl
  · exact ⟨b, if_neg ha, inserted_same h ha⟩

theorem toInt_eq (h : n < 2 ^ 31) : toInt n = n :=
  Int.bmod_eq_of_le (by omega) (by omega)

theorem formatInteger_spec (h : b.Wf) (ht : t.width ≤ 64) (v : t.Val) :
    ∃ b', formatInteger b v = some b' ∧ Inserted (kMaxNumericSize ≤ b.avail) b b' (decimalText v.val) := by
  by_cases ha : kMaxNumericSize ≤ b.avail
  · have hl := length_decimalText ht v
    have hroom : b.cur + 32 ≤ b.data.length := by
      unfold FixedBuffer.avail kMaxNumericSize at ha
      omega
    refine ⟨_, ?_, inserted_written (e := [0]) (by omega) (by simp; omega) ha⟩
    rw [formatInteger, if_pos ha, convert_spec v (by omega)]
    rfl
  · exact ⟨b, if_neg ha, inserted_same h ha⟩

theorem insertPointer_spec (h : b.Wf) (v : uintptr.Val) :
    ∃ b', insertPointer b v = some b' ∧
      Inserted (kMaxNumericSize ≤ b.avail) b b' (chars "0x" ++ hexText v.val.natAbs) := by
  by_cases ha : kMaxNumericSize ≤ b.avail
  · have hl := length_hexText v
    have hroom : b.cur + 32 ≤ b.data.length := by
      unfold FixedBuffer.avail kMaxNumericSize at ha
      omega
    refine ⟨_, ?_, inserted_written (e := [0]) (by simp [chars]; omega) (by simp [chars]; omega) ha⟩
    have h1 : b.cur + [ch '0'].length < b.data.length := by simp; omega
    have h2 : b.cur + [ch '0', ch 'x'].length ≤ b.data.length := by simp; omega
    rw [insertPointer, if_pos ha, store_eq (by omega), some_bind, show b.cur + 1 = b.cur + [ch '0'].length from rfl,
      store_behind h1, some_bind, convertHex_spec v (by rw [List.singleton_append, length_overwrite h2]; omega),
      some_bind]
    dsimp only
    rw [List.singleton_append, show b.cur + 2 = b.cur + [ch '0', ch 'x'].length from rfl, overwrite_append h2]
    simp [chars, FixedBuffer.add]
  · exact ⟨b, if_neg ha, inserted_same h ha⟩

theorem insertDouble_spec (h : b.Wf) (ht : text.length ≤ 31) :
    ∃ b', insertDouble b text = some b' ∧ Inserted (kMaxNumericSize ≤ b.avail) b b' text := by
  by_cases ha : kMaxNumericSize ≤ b.avail
  · have hroom : b.cur + 32 ≤ b.data.length := by
      unfold FixedBuffer.avail kMaxNumericSize at ha
      omega
    have hcut : text.take (kMaxNumericSize - 1) = text := List.take_of_length_le ht
    refine ⟨_, ?_, inserted_written (e := [0]) (by omega) (by simp; omega) ha⟩
    rw [insertDouble, if_pos ha, snprintf, assert_bind (by decide), hcut]
    dsimp only
    rw [assert_bind (by simp; omega)]
    rfl
  · exact ⟨b, if_neg ha, inserted_same h ha⟩

/-- Every overload of `operator<<` inserts the whole piece, if there is room for it. -/
theorem insert_spec (h : b.Wf) (hp : p.Fits) :
    ∃ b', insert b p = some b' ∧ Inserted (Accepts b p) b b' p.text := by
  have string : ∀ v : List Byte, v.length < 2 ^ 31 → ∃ b', b.append v (toInt v.length) = some b' ∧
      Inserted ((v.length : Int) < b.avail) b b' v := by
    intro v hv
    rw [toInt_eq hv]
    simpa using append_spec v h (Nat.le_refl _)
  cases p with
  | bool v => cases v <;> exact append_spec _ (n := 1) h (by decide)
  | char v => exact append_spec [v] (n := 1) h (Nat.le_refl _)
  | cstr v => exact string v hp
  | string v => exact string v hp
  | T v =>
    obtain ⟨b', hx, hi⟩ := string v.str (v.strlen_eq ▸ hp)
    exact ⟨b', by rw [insert, ← v.strlen_eq, hx], hi⟩
  | fmt v =>
    have hle : v.length ≤ v.buf.length := by
      rw [v.length_buf]
      exact Nat.le_of_lt v.length_lt
    have ha : Accepts b (.fmt v) ↔ (v.length : Int) < b.avail := by
      simp [Accepts, Piece.numeric, Piece.text, List.length_take_of_le hle]
    rw [ha]
    exact append_spec _ h hle
  | pointer p => exact insertPointer_spec h p
  | double text => exact insertDouble_spec h hp
  | short v | unsignedShort v | int v | unsignedInt v | long v | unsignedLong v | longLong v | unsignedLongLong v =>
    exact formatInteger_spec h (by decide) _

/-! ## Strings of any length -/

/-- What `printf` promises of the piece. -/
def Piece.Printed : Piece → Prop
  | double text => text.length ≤ 31
  | _ => True

theorem append_keeps {len : Int} (h : b.Wf) (hx : b.append src len = some b') :
    b'.data.length = b.data.length ∧ b'.Wf := by
  unfold FixedBuffer.append at hx
  split at hx
  · rename_i ha
    obtain ⟨data, hm, hx⟩ := Option.bind_eq_some_iff.1 hx
    cases hx
    obtain ⟨_, hassert, hm⟩ := Option.bind_eq_some_iff.1 hm
    cases hm
    obtain ⟨-, hsrc, hdst⟩ := assert_eq_some.1 hassert
    have hl : (overwrite b.data b.cur (src.take len.toNat)).length = b.data.length :=
      length_overwrite (by rw [List.length_take_of_le hsrc]; exact hdst)
    refine ⟨hl, ?_⟩
    unfold FixedBuffer.avail at ha
    unfold FixedBuffer.Wf at h
    have hlt : b.cur + len.toNat < b.data.length := by omega
    exact Nat.lt_of_lt_of_eq hlt hl.symm
  · cases hx
    exact ⟨rfl, h⟩

/-- A piece that does not fit, where it is inserted all the same, stays inside the buffer. -/
theorem insert_keeps (h : b.Wf) (hp : p.Printed) (hx : insert b p = some b') :
    b'.data.length = b.data.length ∧ b'.Wf := by
  have fitting (hf : p.Fits) : b'.data.length = b.data.length ∧ b'.Wf := by
    obtain ⟨b'', hx', hi⟩ := insert_spec h hf
    rw [hx] at hx'
    cases hx'
    exact ⟨hi.length, hi.wf⟩
  cases p with
  | bool v | char v | cstr v | T v | string v | fmt v => exact append_keeps h hx
  | double text => exact fitting hp
  | short v | unsignedShort v | int v | unsignedInt v | long v | unsignedLong v | longLong v | unsignedLongLong v
  | pointer v => exact fitting trivial

/-! ## Runs -/

/-- Pieces are inserted into a new stream. -/
def machine : Machine FixedBuffer Piece where
  init := new
  enabled _ p := p.Fits
  exec := insert

instance (b : FixedBuffer) (p : Piece) : Decidable (machine.enabled b p) := inferInstanceAs (Decidable p.Fits)

/-- The texts of the pieces that were accepted, in order. -/
def accepted (tr : List (FixedBuffer × Piece)) : List Byte :=
  (tr.filter fun q => Accepts q.1 q.2).flatMap fun q => q.2.text

theorem new_wf : new.Wf := by
  rw [FixedBuffer.Wf, new, FixedBuffer.new, List.length_replicate]
  decide

theorem run_holds {tr : List (FixedBuffer × Piece)} (h : Run machine tr s) :
    s.data.length = kSmallBuffer ∧ s.Wf ∧ s.asString = accepted tr := by
  refine h.inv_trace (I := fun tr s => s.data.length = kSmallBuffer ∧ s.Wf ∧ s.asString = accepted tr) ?_ ?_
  · exact ⟨List.length_replicate, new_wf, rfl⟩
  · rintro tr u p v - ⟨hl, hw, he⟩ hp hx
    obtain ⟨v', hx', hi⟩ := insert_spec hw hp
    rw [show machine.exec u p = insert u p from rfl, hx'] at hx
    cases hx
    refine ⟨hi.length.trans hl, hi.wf, ?_⟩
    by_cases ha : Accepts u p
    · rw [hi.accepted ha, he]
      simp [accepted, ha]
    · rw [hi.rejected ha, he]
      simp [accepted, ha]

/-- Whatever has been inserted into a stream: it holds the texts of the pieces
that were accepted, no more than 3999 bytes; and the next piece, or the NUL of
`debugString`, is written inside the buffer, the piece as a whole or not at all. -/
theorem stream_holds_pieces {tr : List (FixedBuffer × Piece)} (h : Run machine tr s) :
    s.data.length = 4000 ∧ s.cur ≤ 3999 ∧ s.asString = accepted tr ∧ s.debugString ≠ none ∧
    ∀ p : Piece, p.Fits → ∃ s', insert s p = some s' ∧
      if (if p.numeric then 32 ≤ s.avail else p.text.length < s.avail) then s'.asString = s.asString ++ p.text
      else s' = s := by
  obtain ⟨hl, hw, he⟩ := run_holds h
  have hc : s.cur < 4000 := by
    rw [FixedBuffer.Wf, hl] at hw
    exact hw
  refine ⟨hl, Nat.le_of_lt_succ hc, he, ?_, fun p hp => ?_⟩
  · rw [FixedBuffer.debugString, store_eq hw]
    simp
  · obtain ⟨s', hx, hi⟩ := insert_spec hw hp
    refine ⟨s', hx, ?_⟩
    by_cases ha : Accepts s p
    · exact (if_pos ha).mpr (hi.accepted ha)
    · exact (if_neg ha).mpr (hi.rejected ha)

/-- A stream that is filled up: the number does not go in, with 10 bytes left, but a string of 9 does. -/
theorem stream_holds_pieces_full : ∃ tr s, Run machine tr s ∧ s.cur = 3999 ∧
    accepted tr = List.replicate 3990 (ch 'a') ++ chars "Connector" ∧ s.data.length = 4000 ∧ s.cur ≤ 3999 ∧
    s.asString = accepted tr ∧ s.debugString ≠ none := by
  obtain ⟨r, hr, hc, ha⟩ : ∃ r ∈ machine.play machine.init
      [.string (List.replicate 3990 (ch 'a')), .int ⟨-5, by decide, by decide⟩, .cstr (chars "Connector"),
        .char (ch 'x')],
      r.2.cur = 3999 ∧ accepted r.1 = List.replicate 3990 (ch 'a') ++ chars "Connector" := by decide +kernel
  have hrun := Machine.play_steps hr
  obtain ⟨h1, h2, h3, h4, -⟩ := stream_holds_pieces hrun
  exact ⟨r.1, r.2, hrun, hc, ha, h1, h2, h3, h4⟩

end Cppnetool.LogStream
