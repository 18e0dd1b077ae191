import Cppnetool.Logging
/-!
# How a record ends

`finish` streams its pieces like any others: the base name as the address of a
`const char *`, and each piece only if there is room for it. What is left of
the end is found from the back: a newline that is accepted behind a line that
is not follows the colon.
-/
open Lib

namespace Cppnetool.Logger
open LogStream

variable {env : Env} {l l' : Locals} {ctor : Ctor} {i i' : Impl} {pieces : List Piece} {b b' : FixedBuffer}

/-! ## The base name -/

/-- The part of a path behind its last slash. -/
def BaseName (full base : List Byte) : Prop :=
  ch '/' ∉ base ∧ (full = base ∨ ∃ dir, full = dir ++ ch '/' :: base)

theorem basename_spec (file : CString) : BaseName file.bytes (basename file).bytes := by
  unfold basename
  split
  · rename_i n h
    obtain ⟨pre, post, he, hn, hp⟩ := strrchr_some h
    have hd : file.bytes.drop (n + 1) = post := by
      rw [he, ← hn, ← List.drop_drop, List.drop_left]
      rfl
    rw [CString.bytes_advance, hd]
    exact ⟨hp, .inr ⟨pre, he⟩⟩
  · rename_i h
    exact ⟨strrchr_none h, .inl rfl⟩

/-! ## Streams -/

theorem formatTime_wf {now : long.Val} (h : b.Wf) (hx : formatTime l b now = some (l', b')) : b'.Wf := by
  obtain ⟨_, -, hx⟩ := Option.bind_eq_some_iff.1 hx
  obtain ⟨_, -, hx⟩ := Option.bind_eq_some_iff.1 hx
  obtain ⟨_, -, hx⟩ := Option.bind_eq_some_iff.1 hx
  obtain ⟨_, -, hx⟩ := Option.bind_eq_some_iff.1 hx
  obtain ⟨_, -, hx⟩ := Option.bind_eq_some_iff.1 hx
  obtain ⟨c, hc, hx⟩ := Option.bind_eq_some_iff.1 hx
  cases hx
  exact insertAll_keeps h (by simp [Piece.Printed]) hc

theorem Impl.new_spec {level : LogLevel} {savedErrno line : int.Val} {file : CString}
    (hx : Impl.new env l level savedErrno file line = some (l', i)) :
    i.stream.Wf ∧ i.basename = Logger.basename file ∧ i.line = line := by
  obtain ⟨⟨_, b1⟩, h1, hx⟩ := Option.bind_eq_some_iff.1 hx
  obtain ⟨_, -, hx⟩ := Option.bind_eq_some_iff.1 hx
  obtain ⟨_, -, hx⟩ := Option.bind_eq_some_iff.1 hx
  obtain ⟨_, -, hx⟩ := Option.bind_eq_some_iff.1 hx
  obtain ⟨b2, h2, hx⟩ := Option.bind_eq_some_iff.1 hx
  obtain ⟨_, -, hx⟩ := Option.bind_eq_some_iff.1 hx
  obtain ⟨b3, h3, hx⟩ := Option.bind_eq_some_iff.1 hx
  obtain ⟨b4, h4, hx⟩ := Option.bind_eq_some_iff.1 hx
  cases hx
  have w1 := formatTime_wf new_wf h1
  have w2 := insertAll_keeps w1 (by simp [Piece.Printed]) h2
  have w3 := insertAll_keeps w2 (by simp [Piece.Printed]) h3
  refine ⟨?_, rfl, rfl⟩
  unfold insertErrno at h4
  split at h4
  · exact insertAll_keeps w3 (by simp [Piece.Printed]) h4
  · cases h4
    exact w3

theorem Impl.insert_spec (h : i.stream.Wf) (hp : ∀ p ∈ pieces, p.Printed) (hx : i.insert pieces = some i') :
    i'.stream.Wf ∧ i'.basename = i.basename ∧ i'.line = i.line := by
  obtain ⟨c, hc, hx⟩ := Option.bind_eq_some_iff.1 hx
  cases hx
  exact ⟨insertAll_keeps h hp hc, rfl, rfl⟩

theorem new_spec (hx : new env l ctor = some (l', i)) :
    i.stream.Wf ∧ i.basename = basename ctor.file ∧ i.line = ctor.line := by
  cases ctor with
  | fileLine | level | toAbort => exact Impl.new_spec hx
  | func file line level func =>
    obtain ⟨⟨l1, i1⟩, h1, hx⟩ := Option.bind_eq_some_iff.1 hx
    obtain ⟨i2, h2, hx⟩ := Option.bind_eq_some_iff.1 hx
    cases hx
    obtain ⟨hw, hb, hl⟩ := Impl.new_spec h1
    obtain ⟨hw', hb', hl'⟩ := Impl.insert_spec hw (by simp [Piece.Printed]) h2
    exact ⟨hw', hb'.trans hb, hl'.trans hl⟩

/-! ## Room for the pieces -/

/-- What is printed for a C string. -/
def ptrText (s : CString) : List Byte := chars "0x" ++ hexText s.addr

theorem length_ptrText (s : CString) : (ptrText s).length ≤ 18 := by
  have := length_hexText s.ptr
  rw [ptrText, List.length_append]
  exact Nat.add_le_add_left this 2

/-- The pieces of `finish`, one after the other. -/
theorem finish_pieces (h : i.stream.Wf) : ∃ b1 b2 b3 b4 b5 : FixedBuffer, i.record = some b5.asString ∧
    Inserted (3 < i.stream.avail) i.stream b1 (chars " - ") ∧
    Inserted (32 ≤ b1.avail) b1 b2 (ptrText i.basename) ∧
    Inserted (1 < b2.avail) b2 b3 (chars ":") ∧
    Inserted (32 ≤ b3.avail) b3 b4 (decimalText i.line.val) ∧
    Inserted (1 < b4.avail) b4 b5 (chars "\n") := by
  obtain ⟨b1, x1, i1⟩ := insert_spec (p := .cstr (chars " - ")) h (by decide)
  obtain ⟨b2, x2, i2⟩ := insert_spec (p := .pointer i.basename.ptr) i1.wf trivial
  obtain ⟨b3, x3, i3⟩ := insert_spec (p := .char (ch ':')) i2.wf trivial
  obtain ⟨b4, x4, i4⟩ := insert_spec (p := .int i.line) i3.wf trivial
  obtain ⟨b5, x5, i5⟩ := insert_spec (p := .char (ch '\n')) i4.wf trivial
  refine ⟨b1, b2, b3, b4, b5, ?_, i1, i2, i3, i4, i5⟩
  simp only [Impl.record, Impl.finish, Impl.insert, insertAll_cons, x1, x2, x3, x4, x5, some_bind]
  rfl

/-- With room for all of it, the record ends as `finish` prints it. -/
theorem record_full (h : i.stream.Wf) (ha : 36 + (ptrText i.basename).length ≤ i.stream.avail) :
    i.record = some (i.stream.asString ++ chars " - " ++ ptrText i.basename ++ chars ":" ++ decimalText i.line.val ++
      chars "\n") := by
  obtain ⟨b1, b2, b3, b4, b5, hx, i1, i2, i3, i4, i5⟩ := finish_pieces h
  have hdash : (chars " - ").length = 3 := rfl
  have hcolon : (chars ":").length = 1 := rfl
  have hline := length_decimalText (by decide) i.line
  have a1 := i1.avail h (by omega)
  have a2 := i2.avail i1.wf (by omega)
  have a3 := i3.avail i2.wf (by omega)
  have a4 := i4.avail i3.wf (by omega)
  rw [hx, i5.accepted (by omega), i4.accepted (by omega), i3.accepted (by omega), i2.accepted (by omega),
    i1.accepted (by omega)]

/-- In the last byte there is room for nothing. -/
theorem record_last (h : i.stream.Wf) (ha : i.stream.avail = 1) : i.record = some i.stream.asString := by
  obtain ⟨b1, b2, b3, b4, b5, hx, i1, i2, i3, i4, i5⟩ := finish_pieces h
  have e1 := i1.rejected (by omega)
  have e2 := i2.rejected (by rw [e1]; omega)
  have e3 := i3.rejected (by rw [e2, e1]; omega)
  have e4 := i4.rejected (by rw [e3, e2, e1]; omega)
  have e5 := i5.rejected (by rw [e4, e3, e2, e1]; omega)
  rw [hx, e5, e4, e3, e2, e1]

/-- Otherwise the line is left out, and the colon, if it is there, ends the
record or has the newline behind it. -/
theorem record_cut (h : i.stream.Wf) (h1 : i.stream.avail ≠ 1)
    (hn : ¬ 36 + (ptrText i.basename).length ≤ i.stream.avail) :
    ∃ r c, i.record = some r ∧
      (r = c ++ chars ":" ∨ r = c ++ chars ":" ++ chars "\n" ∨ r = c ++ chars " - ") := by
  obtain ⟨b1, b2, b3, b4, b5, hx, i1, i2, i3, i4, i5⟩ := finish_pieces h
  have hdash : (chars " - ").length = 3 := rfl
  have hcolon : (chars ":").length = 1 := rfl
  have hptr := length_ptrText i.basename
  have hpos := h.avail_pos
  -- from the number on, the room is short by as much as at the start
  have hline : ¬ 32 ≤ b3.avail := by
    intro h3
    obtain ⟨-, -, a3⟩ | ⟨r3, rfl⟩ := i3.ways i2.wf
    · obtain ⟨-, -, a2⟩ | ⟨r2, rfl⟩ := i2.ways i1.wf
      · obtain ⟨-, -, a1⟩ | ⟨r1, rfl⟩ := i1.ways h <;> omega
      · omega
    · omega
  have e4 := i4.rejected hline
  subst e4
  rw [hx]
  obtain ⟨-, e3, -⟩ | ⟨r3, rfl⟩ := i3.ways i2.wf
  · obtain ⟨-, e5, -⟩ | ⟨-, rfl⟩ := i5.ways i4.wf
    · exact ⟨_, b2.asString, rfl, .inr (.inl (by rw [e5, e3]))⟩
    · exact ⟨_, b2.asString, rfl, .inl e3⟩
  · obtain ⟨r2, -, a2⟩ | ⟨-, rfl⟩ := i2.ways i1.wf
    · omega
    · rw [i5.rejected r3]
      obtain ⟨-, e1, -⟩ | ⟨r1, rfl⟩ := i1.ways h
      · exact ⟨_, i.stream.asString, rfl, .inr (.inr e1)⟩
      · omega

/-! ## The trailer -/

/-- What is to stand at the end of a record. -/
def trailer (base : List Byte) (line : int.Val) : List Byte :=
  chars " - " ++ base ++ chars ":" ++ decimalText line.val ++ chars "\n"

theorem concat_suffix {α : Type} {x y : List α} {c d : α} (h : x ++ [c] <:+ y ++ [d]) : c = d ∧ x <:+ y := by
  obtain h | ⟨t, ht, hs⟩ := List.suffix_concat_iff.1 h
  · simp at h
  · obtain ⟨rfl, hcd⟩ := List.append_inj' ht rfl
    exact ⟨List.head_eq_of_cons_eq hcd, hs⟩

/-- A number ends with a digit. -/
theorem decimalText_concat (v : Int) : ∃ ds, ∃ d < 10, decimalText v = ds ++ [decimalDigit d] := by
  have hne := numeral_ne_nil 10 v.natAbs
  refine ⟨minus v ++ (numeral 10 v.natAbs).dropLast.map decimalDigit, (numeral 10 v.natAbs).getLast hne,
    numeral_lt (by decide) (List.getLast_mem hne), ?_⟩
  conv_lhs => rw [decimalText, ← List.dropLast_append_getLast hne]
  simp

theorem decimalDigit_ne_colon : ∀ d < 10, decimalDigit d ≠ ch ':' := by decide

/-- No trailer stands at the end of a record that was cut. -/
theorem trailer_not_suffix {base c r : List Byte} {line : int.Val}
    (h : r = c ++ chars ":" ∨ r = c ++ chars ":" ++ chars "\n" ∨ r = c ++ chars " - ") :
    ¬ trailer base line <:+ r := by
  intro hs
  obtain ⟨ds, d, hd, hline⟩ := decimalText_concat line.val
  obtain rfl | rfl | rfl := h
  · exact absurd (concat_suffix hs).1 (by decide)
  · have h1 := (concat_suffix hs).2
    rw [hline, ← List.append_assoc] at h1
    exact decimalDigit_ne_colon d hd (concat_suffix h1).1
  · have h1 : trailer base line <:+ c ++ [ch ' ', ch '-'] ++ [ch ' '] := by simpa [chars] using hs
    exact absurd (concat_suffix h1).1 (by decide)

/-- The text of a pointer has no blank in it. -/
theorem ptrText_no_blank (s : CString) : ch ' ' ∉ ptrText s := by
  have hdigit : ∀ d < 16, hexDigit d ≠ ch ' ' := by decide
  rw [ptrText, List.mem_append]
  rintro (h | h)
  · exact absurd h (by decide)
  · obtain ⟨d, hd, he⟩ := List.mem_map.1 h
    exact hdigit d (numeral_lt (by decide) hd) he

/-- A base name stands behind the dash exactly if it ends with what is printed
for it, and what comes before that stands there. -/
theorem base_suffix_iff {base content : List Byte} (s : CString) :
    chars " - " ++ base <:+ content ++ chars " - " ++ ptrText s ↔
      ∃ y, base = y ++ ptrText s ∧ chars " - " ++ y <:+ content ++ chars " - " := by
  constructor
  · intro h
    obtain h' | ⟨z, hz⟩ := List.suffix_or_suffix_of_suffix h (List.suffix_append _ _)
    · -- the blank would stand in the pointer
      exact absurd (h'.mem (by simp [chars])) (ptrText_no_blank s)
    · obtain ⟨y, hd, hp⟩ | ⟨y, -, rfl⟩ := List.append_eq_append_iff.1 hz
      · -- no part of the dash begins like the pointer
        cases y with
        | nil => exact ⟨[], by rw [hp]; rfl, by simp⟩
        | cons x y =>
          have hx : x = ch '0' := (List.head_eq_of_cons_eq hp).symm
          have hmem : ch '0' ∈ chars " - " := by
            rw [hd, hx]
            simp
          exact absurd hmem (by decide)
      · rw [← List.append_assoc] at h
        exact ⟨y, rfl, List.suffix_append_self_iff.1 h⟩
  · rintro ⟨y, rfl, h⟩
    rw [← List.append_assoc]
    exact List.suffix_append_self_iff.2 h

/-- Whatever has been streamed: a record ends with ` - <base name>:<line>` and a
newline exactly if there is room for the whole end and the base name ends with
the text of its own address, with what comes before that already in front, or if
nothing more goes into the buffer and its content ends so. -/
theorem record_terminated_iff (hnew : new env l ctor = some (l', i)) (hp : ∀ p ∈ pieces, p.Printed) :
    ((∀ p ∈ pieces, p.Fits) → i.insert pieces ≠ none) ∧
    ∀ i', i.insert pieces = some i' → BaseName ctor.file.bytes i'.basename.bytes ∧ ∃ r, i'.record = some r ∧
      (trailer i'.basename.bytes ctor.line <:+ r ↔
        36 + (ptrText i'.basename).length ≤ i'.stream.avail ∧
          (∃ y, i'.basename.bytes = y ++ ptrText i'.basename ∧
            chars " - " ++ y <:+ i'.stream.asString ++ chars " - ") ∨
        i'.stream.avail = 1 ∧ trailer i'.basename.bytes ctor.line <:+ i'.stream.asString) := by
  obtain ⟨hw, hb, hl⟩ := new_spec hnew
  constructor
  · intro hf hn
    obtain ⟨b', hx, -⟩ := insertAll_fits _ hw hf
    rw [Impl.insert, hx] at hn
    cases hn
  · intro i' hi
    obtain ⟨hw', hb', hl'⟩ := Impl.insert_spec hw hp hi
    refine ⟨by rw [hb', hb]; exact basename_spec ctor.file, ?_⟩
    rw [← hl, ← hl']
    by_cases hfull : 36 + (ptrText i'.basename).length ≤ i'.stream.avail
    · have h1 : i'.stream.avail ≠ 1 := by omega
      refine ⟨_, record_full hw' hfull, ?_⟩
      rw [or_iff_left fun h => h1 h.1, and_iff_right hfull, ← base_suffix_iff, trailer, List.suffix_append_self_iff,
        List.suffix_append_self_iff, List.suffix_append_self_iff]
    · by_cases h1 : i'.stream.avail = 1
      · refine ⟨_, record_last hw' h1, ?_⟩
        rw [or_iff_right fun h => hfull h.1, and_iff_right h1]
      · obtain ⟨r, c, hr, he⟩ := record_cut hw' h1 hfull
        exact ⟨r, hr, iff_of_false (trailer_not_suffix he) (not_or.2 ⟨fun h => hfull h.1, fun h => h1 h.1⟩)⟩

/-- A record that ends well: the message fills the buffer, and itself ends with the trailer. -/
theorem record_terminated_iff_last : ∃ (env : Env) (ctor : Ctor) (l' : Locals) (i i' : Impl) (r : List Byte),
    new env Locals.new ctor = some (l', i) ∧ i'.record = some r ∧ i'.stream.avail = 1 ∧
    trailer (chars "a.cc") ctor.line <:+ r := by
  let env : Env := ⟨⟨4711, by decide, by decide⟩, ⟨1700000000000000, by decide, by decide⟩, noError,
    ⟨0, by decide, by decide⟩⟩
  let ctor : Ctor := .fileLine ⟨4096, chars "net/a.cc", by decide, by decide⟩ ⟨7, by decide, by decide⟩
  let pieces : List Piece := [.string (List.replicate 3947 (ch 'a')), .cstr (chars " - a.cc:7\n")]
  obtain ⟨p, hnew, i', hi, hb, ha, ht⟩ : ∃ p ∈ new env Locals.new ctor, ∃ i' ∈ p.2.insert pieces,
      i'.basename.bytes = chars "a.cc" ∧ i'.stream.avail = 1 ∧
      trailer (chars "a.cc") ctor.line <:+ i'.stream.asString := by decide +kernel
  have hp : ∀ p ∈ pieces, p.Printed := List.forall_mem_cons.2 ⟨trivial, List.forall_mem_singleton.2 trivial⟩
  obtain ⟨-, hall⟩ := record_terminated_iff hnew hp
  obtain ⟨-, r, hr, hiff⟩ := hall i' hi
  rw [hb] at hiff
  exact ⟨env, ctor, p.1, p.2, i', r, hnew, hr, ha, hiff.2 (.inr ⟨ha, ht⟩)⟩

/-- A message without pieces has an address in the place of the base name, and
one of 3957 bytes leaves no room for anything else, not for the newline. -/
theorem record_not_terminated : ∃ (env : Env) (file : CString) (line : int.Val),
    file.bytes = chars "net/a.cc" ∧ BaseName file.bytes (chars "a.cc") ∧
    (∃ p ∈ new env Locals.new (.fileLine file line), ∃ i ∈ p.2.insert [], ∃ r ∈ i.record,
      chars " - 0x1004:7\n" <:+ r ∧ ¬ trailer (chars "a.cc") line <:+ r) ∧
    ∃ p ∈ new env Locals.new (.fileLine file line), ∃ i ∈ p.2.insert [.string (List.replicate 3957 (ch 'a'))],
      ∃ r ∈ i.record, ¬ trailer (chars "a.cc") line <:+ r ∧ ¬ chars "\n" <:+ r :=
  ⟨⟨⟨4711, by decide, by decide⟩, ⟨1700000000000000, by decide, by decide⟩, noError, ⟨0, by decide, by decide⟩⟩,
    ⟨4096, chars "net/a.cc", by decide, by decide⟩, ⟨7, by decide, by decide⟩,
    rfl, ⟨by decide, .inr ⟨chars "net", rfl⟩⟩, by decide +kernel, by decide +kernel⟩

end Cppnetool.Logger
