import Cppnetool.Lib.Runs
import Cppnetool.Lib.Slice
/-!
# `Buffer`

`net/Buffer.h` and `net/Buffer.cc`. A buffer is a `std::vector<char>` and two
indices into it:

    0 <= readerIndex <= writerIndex <= size

Every operation that asserts, or that writes into the vector, is partial: it
is `none` where an assert fails or a write leaves the vector. `size_t` is
`Nat`, so lengths are taken to stay far below `2 ^ 64`.
-/
open Lib

namespace Cppnetool

abbrev Byte := UInt8

def kCheapPrepend : Nat := 8
def kInitialSize : Nat := 1024

/-- `sizeof extrabuf` in `readFd`. -/
def kExtraBuf : Nat := 65536

structure Buffer where
  buffer : List Byte
  readerIndex : Nat
  writerIndex : Nat
deriving DecidableEq

namespace Buffer

def new : Buffer := ⟨List.replicate (kCheapPrepend + kInitialSize) 0, kCheapPrepend, kCheapPrepend⟩

def readableBytes (b : Buffer) : Nat := b.writerIndex - b.readerIndex

def writableBytes (b : Buffer) : Nat := b.buffer.length - b.writerIndex

def prependableBytes (b : Buffer) : Nat := b.readerIndex

/-- The readable bytes: what lies between `peek()` and `beginWrite()`. -/
def readable (b : Buffer) : List Byte := slice b.buffer b.readerIndex b.writerIndex

/-- `std::copy` from outside the vector to index `i` of it. -/
def store (b : Buffer) (i : Nat) (data : List Byte) : Option Buffer :=
  if i + data.length ≤ b.buffer.length then some { b with buffer := overwrite b.buffer i data } else none

def retrieve (b : Buffer) (len : Nat) : Option Buffer := do
  assert (len ≤ b.readableBytes)
  return { b with readerIndex := b.readerIndex + len }

/-- The pointer `stop` is an index into the vector. -/
def retrieveUntil (b : Buffer) (stop : Nat) : Option Buffer := do
  assert (b.readerIndex ≤ stop)
  assert (stop ≤ b.writerIndex)
  b.retrieve (stop - b.readerIndex)

def retrieveAll (b : Buffer) : Buffer :=
  { b with readerIndex := kCheapPrepend, writerIndex := kCheapPrepend }

def retrieveAsString (b : Buffer) : List Byte × Buffer := (b.readable, b.retrieveAll)

def makeSpace (b : Buffer) (len : Nat) : Option Buffer :=
  if b.writableBytes + b.prependableBytes < len + kCheapPrepend then
    some { b with buffer := resize b.buffer (b.writerIndex + len) 0 }
  else do
    -- move readable data to the front, make space inside buffer
    assert (kCheapPrepend < b.readerIndex)
    let readable := b.readableBytes
    let b' : Buffer :=
      { buffer := moveWithin b.buffer b.readerIndex kCheapPrepend (b.writerIndex - b.readerIndex)
        readerIndex := kCheapPrepend
        writerIndex := kCheapPrepend + readable }
    assert (readable = b'.readableBytes)
    return b'

def ensureWritableBytes (b : Buffer) (len : Nat) : Option Buffer := do
  let b ← if b.writableBytes < len then b.makeSpace len else some b
  assert (len ≤ b.writableBytes)
  return b

def hasWritten (b : Buffer) (len : Nat) : Buffer := { b with writerIndex := b.writerIndex + len }

def append (b : Buffer) (data : List Byte) : Option Buffer := do
  let b ← b.ensureWritableBytes data.length
  let b ← b.store b.writerIndex data
  return b.hasWritten data.length

def prepend (b : Buffer) (data : List Byte) : Option Buffer := do
  assert (data.length ≤ b.prependableBytes)
  let b := { b with readerIndex := b.readerIndex - data.length }
  b.store b.readerIndex data

/-- The content goes to a new vector, at the offset of a new buffer; the
indices are those of the old one. -/
def shrink (b : Buffer) (reserve : Nat) : Option Buffer :=
  let buf : Buffer := { b with buffer := List.replicate (kCheapPrepend + b.readableBytes + reserve) 0 }
  buf.store kCheapPrepend b.readable

/-- `readFd`, for the result of `readv`: the saved errno, or the bytes read.
The first of them went into the vector, the others into `extrabuf`. -/
def readFd (b : Buffer) (r : Except Nat (List Byte)) : Option (Except Nat Nat × Buffer) :=
  match r with
  | .error savedErrno => some (.error savedErrno, b)
  | .ok data => do
    let writable := b.writableBytes
    let b ← b.store b.writerIndex (data.take writable)
    if data.length ≤ writable then
      return (.ok data.length, b.hasWritten data.length)
    else
      let b ← { b with writerIndex := b.buffer.length }.append (data.drop writable)
      return (.ok data.length, b)

/-! ## The representation invariant -/

structure Wf (b : Buffer) : Prop where
  reader_le : b.readerIndex ≤ b.writerIndex
  writer_le : b.writerIndex ≤ b.buffer.length
  cheap_le : kCheapPrepend ≤ b.buffer.length

theorem new_wf : new.Wf := ⟨Nat.le_refl _, by simp [new], by simp [new]⟩

@[simp] theorem new_readable : new.readable = [] := by simp [new, readable]

@[simp] theorem length_readable {b : Buffer} (h : b.Wf) : b.readable.length = b.readableBytes := by
  simp only [readable, length_slice, readableBytes]; have := h.writer_le; omega

/-! ## One spec for each operation -/

section Specs
variable {b : Buffer} {data : List Byte} {len : Nat}

theorem retrieve_spec (h : b.Wf) (hlen : len ≤ b.readable.length) :
    ∃ b', b.retrieve len = some b' ∧ b'.Wf ∧ b'.readable = b.readable.drop len := by
  rw [length_readable h] at hlen
  have := h.reader_le
  have := h.writer_le
  refine ⟨{ b with readerIndex := b.readerIndex + len }, by rw [retrieve, assert_bind hlen]; rfl,
    ⟨?_, h.writer_le, h.cheap_le⟩, ?_⟩
  · simp only [readableBytes] at hlen ⊢; omega
  · simp only [readable, drop_slice]

theorem retrieveUntil_spec (h : b.Wf) (hlen : len ≤ b.readable.length) :
    ∃ b', b.retrieveUntil (b.readerIndex + len) = some b' ∧ b'.Wf ∧ b'.readable = b.readable.drop len := by
  have hl := hlen
  rw [length_readable h, readableBytes] at hl
  rw [retrieveUntil, assert_bind (by omega), assert_bind (by have := h.reader_le; omega), Nat.add_sub_cancel_left]
  exact retrieve_spec h hlen

theorem retrieveAll_wf (h : b.Wf) : b.retrieveAll.Wf := ⟨Nat.le_refl _, h.cheap_le, h.cheap_le⟩

@[simp] theorem retrieveAll_readable : b.retrieveAll.readable = [] := by simp [retrieveAll, readable]

/-- Growing keeps the content where it is; compacting moves it to the front,
with more than the cheap prepend free before it. -/
theorem makeSpace_spec (h : b.Wf) (hlen : b.writableBytes < len) :
    ∃ b', b.makeSpace len = some b' ∧ b'.Wf ∧ b'.readable = b.readable ∧ len ≤ b'.writableBytes := by
  obtain ⟨h1, h2, h3⟩ := h
  unfold writableBytes at hlen
  by_cases hg : b.writableBytes + b.prependableBytes < len + kCheapPrepend
  · refine ⟨{ b with buffer := resize b.buffer (b.writerIndex + len) 0 }, by rw [makeSpace, if_pos hg],
      ⟨h1, ?_, ?_⟩, ?_, ?_⟩
    · simp
    · simp only [length_resize]; omega
    · exact slice_resize (by omega) h2
    · simp [writableBytes]
  · simp only [writableBytes, prependableBytes, Nat.not_lt] at hg
    -- growing was not needed, so more than the cheap prepend has been read
    have hr : kCheapPrepend < b.readerIndex := by omega
    have hd : kCheapPrepend + (slice b.buffer b.readerIndex b.writerIndex).length ≤ b.buffer.length := by
      simp only [length_slice]; omega
    have hm : moveWithin b.buffer b.readerIndex kCheapPrepend (b.writerIndex - b.readerIndex) =
        overwrite b.buffer kCheapPrepend b.readable := by
      rw [moveWithin_eq (by omega) (by omega), readable, Nat.add_sub_cancel' h1]
    have hl : (overwrite b.buffer kCheapPrepend b.readable).length = b.buffer.length := length_overwrite hd
    have hw : b.readable.length = b.readableBytes := length_readable ⟨h1, h2, h3⟩
    refine ⟨⟨overwrite b.buffer kCheapPrepend b.readable, kCheapPrepend, kCheapPrepend + b.readableBytes⟩,
      ?_, ⟨?_, ?_, ?_⟩, ?_, ?_⟩
    · rw [makeSpace, if_neg (by simp only [writableBytes, prependableBytes]; omega), assert_bind hr]
      dsimp only
      rw [assert_bind (by simp [readableBytes]), hm]; rfl
    · simp
    · simp only [hl, readableBytes]; omega
    · rw [hl]; exact h3
    · simp only [readable, readableBytes] at hw ⊢
      rw [← hw]; exact slice_overwrite_self hd
    · simp only [writableBytes, hl, readableBytes]; omega

theorem ensureWritableBytes_spec (h : b.Wf) (len : Nat) :
    ∃ b', b.ensureWritableBytes len = some b' ∧ b'.Wf ∧ b'.readable = b.readable ∧ len ≤ b'.writableBytes := by
  unfold ensureWritableBytes
  by_cases hw : b.writableBytes < len
  · obtain ⟨b', he, hb', hr, hl⟩ := makeSpace_spec h hw
    exact ⟨b', by simp [hw, he, assert, hl], hb', hr, hl⟩
  · exact ⟨b, by simp [hw, assert, Nat.not_lt.1 hw], h, rfl, Nat.not_lt.1 hw⟩

/-- Bytes stored at `beginWrite()` and declared by `hasWritten`. -/
theorem store_hasWritten_spec (h : b.Wf) (hw : data.length ≤ b.writableBytes) :
    ∃ b', b.store b.writerIndex data = some b' ∧ b'.writerIndex = b.writerIndex ∧
      b'.buffer.length = b.buffer.length ∧ b'.Wf ∧ (b'.hasWritten data.length).Wf ∧
      (b'.hasWritten data.length).readable = b.readable ++ data := by
  obtain ⟨h1, h2, h3⟩ := h
  unfold writableBytes at hw
  have hin : b.writerIndex + data.length ≤ b.buffer.length := by omega
  have hl := length_overwrite (d := data) hin
  refine ⟨{ b with buffer := overwrite b.buffer b.writerIndex data }, by rw [store, if_pos hin], rfl, hl,
    ⟨h1, ?_, ?_⟩, ⟨?_, ?_, ?_⟩, ?_⟩
  · simp only [hl]; exact h2
  · simp only [hl]; exact h3
  · simp only [hasWritten]; omega
  · simp only [hasWritten, hl]; exact hin
  · simp only [hasWritten, hl]; exact h3
  · simp only [readable, hasWritten]
    rw [← slice_append h1 (Nat.le_add_right _ _), slice_overwrite_self hin,
      slice_overwrite_of_disjoint h2 (.inl (Nat.le_refl _))]

theorem append_spec (h : b.Wf) (data : List Byte) :
    ∃ b', b.append data = some b' ∧ b'.Wf ∧ b'.readable = b.readable ++ data := by
  obtain ⟨b₁, he, hb₁, hr, hl⟩ := ensureWritableBytes_spec h data.length
  obtain ⟨b₂, hs, -, -, -, hwf, hread⟩ := store_hasWritten_spec hb₁ hl
  exact ⟨_, by simp [append, he, hs], hwf, by rw [hread, hr]⟩

theorem prepend_spec (h : b.Wf) (hlen : data.length ≤ b.prependableBytes) :
    ∃ b', b.prepend data = some b' ∧ b'.Wf ∧ b'.readable = data ++ b.readable := by
  obtain ⟨h1, h2, h3⟩ := h
  obtain ⟨m, hm⟩ : ∃ m, b.readerIndex = m + data.length := Nat.exists_eq_add_of_le' hlen
  have hin : m + data.length ≤ b.buffer.length := by omega
  have hl := length_overwrite (d := data) hin
  refine ⟨{ b with readerIndex := m, buffer := overwrite b.buffer m data }, ?_, ⟨?_, ?_, ?_⟩, ?_⟩
  · rw [prepend, assert_bind hlen]
    dsimp only [store]
    rw [hm, Nat.add_sub_cancel, if_pos hin]
  · dsimp only; omega
  · simp only [hl]; exact h2
  · simp only [hl]; exact h3
  · simp only [readable]
    rw [← slice_append (Nat.le_add_right m data.length) (by omega), slice_overwrite_self hin,
      slice_overwrite_of_disjoint (by omega) (.inr (Nat.le_refl _)), hm]

/-- With more data than room, what goes into the vector ends where it ends. -/
theorem filled {b₁ : Buffer} (h : b.Wf) (hwi : b₁.writerIndex = b.writerIndex)
    (hlen : b₁.buffer.length = b.buffer.length) (hle : ¬ data.length ≤ b.writableBytes) :
    { b₁ with writerIndex := b₁.buffer.length } = b₁.hasWritten (data.take b.writableBytes).length := by
  have := h.writer_le
  simp only [hasWritten, Buffer.mk.injEq, true_and, List.length_take, writableBytes] at hle ⊢
  omega

/-- A failed `readFd` changes nothing; a successful one adds the bytes read at
the back, however they were split between the vector and `extrabuf`. -/
theorem readFd_spec (h : b.Wf) (r : Except Nat (List Byte)) :
    ∃ n b', b.readFd r = some (n, b') ∧ b'.Wf ∧
      match r with
      | .error e => n = .error e ∧ b' = b
      | .ok data => n = .ok data.length ∧ b'.readable = b.readable ++ data := by
  cases r with
  | error e => exact ⟨_, b, rfl, h, rfl, rfl⟩
  | ok data =>
    have htake : (data.take b.writableBytes).length ≤ b.writableBytes := by
      rw [List.length_take]; exact Nat.min_le_left _ _
    obtain ⟨b₁, hs, hwi, hlen, hwf₁, hwf₂, hread⟩ := store_hasWritten_spec h htake
    by_cases hle : data.length ≤ b.writableBytes
    · rw [List.take_of_length_le hle] at hs hwf₂ hread
      exact ⟨.ok data.length, b₁.hasWritten data.length,
        by simp [readFd, List.take_of_length_le hle, hs, hle], hwf₂, rfl, hread⟩
    -- the vector is full, and the rest of the data is in `extrabuf`
    · have hfull := filled h hwi hlen hle
      obtain ⟨b₂, ha, hwf, hr⟩ := append_spec hwf₂ (data.drop b.writableBytes)
      refine ⟨.ok data.length, b₂, ?_, hwf, rfl, ?_⟩
      · simp only [readFd, hs, Option.bind_eq_bind, Option.bind_some, if_neg hle]
        rw [hfull, ha]; rfl
      · rw [hr, hread, List.append_assoc, List.take_append_drop]

end Specs

end Buffer

end Cppnetool
