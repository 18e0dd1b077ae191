import Mathlib.Algebra.Ring.Nat
import Mathlib.Algebra.Ring.Int.Defs
import Cppnetool.Buffer
/-!
# `LogStream`

`base/LogStream.h` and `base/LogStream.cc`. Memory is a list of bytes and a
pointer into it an index; an operation is `none` where an assert fails, where
a byte outside an array is read or written, or where a table is indexed out of
range. `int` has 32 bits, `long` and pointers have 64.

What `printf` makes of a `double` is not under `src`: a `double` is the text that
`"%.12g"` gives. `operator<<` has an overload for `char *` and none for
`const char *`, which is converted to `const void *`.
-/
open Lib

namespace Cppnetool.LogStream

def ch (c : Char) : Byte := UInt8.ofNat c.toNat

/-- A string literal, without its NUL. -/
def chars (s : String) : List Byte := s.toList.map ch

/-! ## Integer types -/

/-- A signed or an unsigned integer type. -/
structure IntType where
  signed : Bool
  width : Nat
  width_pos : 0 < width

def IntType.min (t : IntType) : Int := if t.signed then -2 ^ (t.width - 1) else 0

def IntType.max (t : IntType) : Int := if t.signed then 2 ^ (t.width - 1) - 1 else 2 ^ t.width - 1

/-- The values of a type. -/
structure IntType.Val (t : IntType) where
  val : Int
  min_le : t.min ≤ val
  le_max : val ≤ t.max
deriving DecidableEq

def short : IntType := ⟨true, 16, by decide⟩
def unsignedShort : IntType := ⟨false, 16, by decide⟩
def int : IntType := ⟨true, 32, by decide⟩
def unsignedInt : IntType := ⟨false, 32, by decide⟩
def long : IntType := ⟨true, 64, by decide⟩
def unsignedLong : IntType := ⟨false, 64, by decide⟩
def longLong : IntType := ⟨true, 64, by decide⟩
def unsignedLongLong : IntType := ⟨false, 64, by decide⟩
def uintptr : IntType := ⟨false, 64, by decide⟩

/-- `static_cast` to a type that has all the values. -/
def IntType.Val.cast {t u : IntType} (v : t.Val) (h : u.min ≤ t.min ∧ t.max ≤ u.max) : u.Val :=
  ⟨v.val, Int.le_trans h.1 v.min_le, Int.le_trans v.le_max h.2⟩

theorem IntType.min_nonpos (t : IntType) : t.min ≤ 0 := by
  unfold min
  have := Int.pow_pos (n := 2) (m := t.width - 1) (by decide)
  split <;> omega

theorem IntType.max_nonneg (t : IntType) : 0 ≤ t.max := by
  unfold max
  have := Int.pow_pos (n := 2) (m := t.width - 1) (by decide)
  have := Int.pow_pos (n := 2) (m := t.width) (by decide)
  split <;> omega

/-- Truncating division moves a number towards zero. -/
theorem tdiv_between (x : Int) (base : Nat) : (0 ≤ x → 0 ≤ x.tdiv base ∧ x.tdiv base ≤ x) ∧
    (x ≤ 0 → x ≤ x.tdiv base ∧ x.tdiv base ≤ 0) := by
  have hb : (0 : Int) ≤ base := Int.natCast_nonneg base
  refine ⟨fun hx => ⟨Int.tdiv_nonneg hx hb, Int.tdiv_le_self _ hx⟩, fun hx => ?_⟩
  obtain ⟨y, rfl⟩ : ∃ y, x = -y := ⟨-x, (Int.neg_neg x).symm⟩
  have h1 := Int.tdiv_nonneg (show 0 ≤ y by omega) hb
  have h2 := Int.tdiv_le_self (base : Int) (show 0 ≤ y by omega)
  rw [Int.neg_tdiv]
  omega

/-- `i /= base` stays in the type. -/
def IntType.Val.quot {t : IntType} (i : t.Val) (base : Nat) : t.Val where
  val := i.val.tdiv base
  min_le := by
    have := tdiv_between i.val base
    have := i.min_le
    have := t.min_nonpos
    omega
  le_max := by
    have := tdiv_between i.val base
    have := i.le_max
    have := t.max_nonneg
    omega

/-- A quotient that is not 0 is nearer to it. -/
theorem IntType.Val.quot_lt {t : IntType} {i : t.Val} {base : Nat} (hb : 1 < base) (h : (i.quot base).val ≠ 0) :
    (i.quot base).val.natAbs < i.val.natAbs := by
  have he : (i.quot base).val.natAbs = i.val.natAbs / base := Int.natAbs_tdiv ..
  have hne : i.val.natAbs / base ≠ 0 := by
    rw [← he]
    exact Int.natAbs_ne_zero.2 h
  rw [he]
  exact Nat.div_lt_self (Nat.pos_of_ne_zero fun h0 => hne (by rw [h0, Nat.zero_div])) hb

/-! ## Memory -/

/-- `*p = c`. -/
def store (mem : List Byte) (p : Nat) (c : Byte) : Option (List Byte) :=
  if p < mem.length then some (mem.set p c) else none

/-- `len` becomes a `size_t`: a negative one is longer than any array. -/
def memcpy (mem : List Byte) (dst : Nat) (src : List Byte) (len : Int) : Option (List Byte) := do
  assert (0 ≤ len ∧ len.toNat ≤ src.length ∧ dst + len.toNat ≤ mem.length)
  return overwrite mem dst (src.take len.toNat)

/-- `std::reverse` of the bytes from `first` up to `last`. -/
def reverse (mem : List Byte) (first last : Nat) : List Byte := overwrite mem first (slice mem first last).reverse

/-- `strlen` of what starts at the beginning of `mem`. -/
def strlen (mem : List Byte) : Option Nat := mem.findIdx? (· = 0)

/-- `snprintf` into `n` bytes at `p`, for what it prints: that is cut to fit with
its NUL, and its full length returned. -/
def snprintf (mem : List Byte) (p n : Nat) (text : List Byte) : Option (Nat × List Byte) := do
  assert (0 < n)
  let out := text.take (n - 1) ++ [0]
  assert (p + out.length ≤ mem.length)
  return (text.length, overwrite mem p out)

/-- A `size_t` as an `int`. -/
def toInt (n : Nat) : Int := (n : Int).bmod (2 ^ 32)

/-! ## Numbers as text -/

def digits : List Byte := chars "9876543210123456789"

/-- `zero[lsd]`, where `zero` points into the middle of `digits`. -/
def zero (lsd : Int) : Option Byte := if 0 ≤ 9 + lsd then digits[(9 + lsd).toNat]? else none

def digitsHex : List Byte := chars "0123456789ABCDEF"

def digitHex (lsd : Int) : Option Byte := if 0 ≤ lsd then digitsHex[lsd.toNat]? else none

/-- The loop of `convert` and of `convertHex`: the digits of `i`, the last one
first. The remainder of a negative number is not positive. -/
def digitLoop {t : IntType} (digit : Int → Option Byte) (base : Nat) (hb : 1 < base) (mem : List Byte) (p : Nat)
    (i : t.Val) : Option (List Byte × Nat) := do
  let c ← digit (i.val.tmod base)
  let mem ← store mem p c
  if h : (i.quot base).val ≠ 0 then digitLoop digit base hb mem (p + 1) (i.quot base) else some (mem, p + 1)
termination_by i.val.natAbs
decreasing_by exact IntType.Val.quot_lt hb h

/-- The text of `value` at `buf`, with its NUL; its length. -/
def convert {t : IntType} (mem : List Byte) (buf : Nat) (value : t.Val) : Option (List Byte × Nat) := do
  let (mem, p) ← digitLoop zero 10 (by decide) mem buf value
  let (mem, p) ← if value.val < 0 then (store mem p (ch '-')).map fun mem => (mem, p + 1) else some (mem, p)
  let mem ← store mem p 0
  return (reverse mem buf p, p - buf)

def convertHex (mem : List Byte) (buf : Nat) (value : uintptr.Val) : Option (List Byte × Nat) := do
  let (mem, p) ← digitLoop digitHex 16 (by decide) mem buf value
  let mem ← store mem p 0
  return (reverse mem buf p, p - buf)

/-! ## `FixedBuffer` -/

def kSmallBuffer : Nat := 4000

/-- `data_` and, as an index into it, `cur_`. -/
structure FixedBuffer where
  data : List Byte
  cur : Nat
deriving DecidableEq

namespace FixedBuffer

/-- What `data_` holds at first is not used. -/
def new (SIZE : Nat) : FixedBuffer := ⟨List.replicate SIZE 0, 0⟩

def avail (b : FixedBuffer) : Int := b.data.length - b.cur

def add (b : FixedBuffer) (len : Nat) : FixedBuffer := { b with cur := b.cur + len }

def append (b : FixedBuffer) (buf : List Byte) (len : Int) : Option FixedBuffer :=
  if len < b.avail then do
    let data ← memcpy b.data b.cur buf len
    return { b with data }.add len.toNat
  else some b

/-- The first `length()` bytes of `data_`. -/
def asString (b : FixedBuffer) : List Byte := b.data.take b.cur

/-- A NUL goes behind the content. -/
def debugString (b : FixedBuffer) : Option FixedBuffer := do
  let data ← store b.data b.cur 0
  return { b with data }

end FixedBuffer

/-! ## What is inserted -/

/-- A piece of known length. -/
structure T where
  str : List Byte
  len : Nat
  strlen_eq : str.length = len
deriving DecidableEq

/-- `T::T`, for what starts at `mem`. -/
def T.new (mem : List Byte) (len : Nat) : Option T := do
  let n ← strlen mem
  if h : (mem.take n).length = len then some ⟨mem.take n, len, h⟩ else none

def sizeofFmt : Nat := 32

/-- What `printf` makes of a number, in `buf_`. -/
structure Fmt where
  buf : List Byte
  length : Nat
  length_buf : buf.length = sizeofFmt
  length_lt : length < sizeofFmt
deriving DecidableEq

/-- `Fmt::Fmt`, for what `snprintf` prints. -/
def Fmt.new (text : List Byte) : Option Fmt := do
  let (length, buf) ← snprintf (List.replicate sizeofFmt 0) 0 sizeofFmt text
  if h : buf.length = sizeofFmt ∧ length < sizeofFmt then some ⟨buf, length, h.1, h.2⟩ else none

/-- An argument of `operator<<`. A C string is what it holds before its NUL. -/
inductive Piece
  | bool (v : Bool)
  | short (v : short.Val)
  | unsignedShort (v : unsignedShort.Val)
  | int (v : int.Val)
  | unsignedInt (v : unsignedInt.Val)
  | long (v : long.Val)
  | unsignedLong (v : unsignedLong.Val)
  | longLong (v : longLong.Val)
  | unsignedLongLong (v : unsignedLongLong.Val)
  | pointer (p : uintptr.Val)
  /-- What `"%.12g"` prints. -/
  | double (text : List Byte)
  | char (v : Byte)
  | cstr (v : List Byte)
  | T (v : T)
  | string (v : List Byte)
  | fmt (v : Fmt)
deriving DecidableEq

def kMaxNumericSize : Nat := 32

def formatInteger {t : IntType} (b : FixedBuffer) (v : t.Val) : Option FixedBuffer :=
  if kMaxNumericSize ≤ b.avail then do
    let (data, len) ← convert b.data b.cur v
    return { b with data }.add len
  else some b

def insertPointer (b : FixedBuffer) (v : uintptr.Val) : Option FixedBuffer :=
  if kMaxNumericSize ≤ b.avail then do
    let data ← store b.data b.cur (ch '0')
    let data ← store data (b.cur + 1) (ch 'x')
    let (data, len) ← convertHex data (b.cur + 2) v
    return { b with data }.add (len + 2)
  else some b

def insertDouble (b : FixedBuffer) (text : List Byte) : Option FixedBuffer :=
  if kMaxNumericSize ≤ b.avail then do
    let (len, data) ← snprintf b.data b.cur kMaxNumericSize text
    return { b with data }.add len
  else some b

/-- `operator<<`. A `float` is converted to a `double`. -/
def insert (b : FixedBuffer) : Piece → Option FixedBuffer
  | .bool v => b.append (chars (if v then "1" else "0")) 1
  | .short v => formatInteger b (v.cast (by decide) : LogStream.int.Val)
  | .unsignedShort v => formatInteger b (v.cast (by decide) : LogStream.unsignedInt.Val)
  | .int v => formatInteger b v
  | .unsignedInt v => formatInteger b v
  | .long v => formatInteger b v
  | .unsignedLong v => formatInteger b v
  | .longLong v => formatInteger b v
  | .unsignedLongLong v => formatInteger b v
  | .pointer p => insertPointer b p
  | .double text => insertDouble b text
  | .char v => b.append [v] 1
  | .cstr v => b.append v (toInt v.length)
  | .T v => b.append v.str (toInt v.len)
  | .string v => b.append v (toInt v.length)
  | .fmt v => b.append v.buf v.length

/-- A new stream. -/
def new : FixedBuffer := .new kSmallBuffer

end Cppnetool.LogStream
