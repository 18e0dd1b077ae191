import Cppnetool.BufferQueue
/-!
# Shrinking a buffer

`shrink` puts the content at the offset of a new buffer, but leaves the indices
where they were. The two agree in a buffer that has neither been read from nor
been prepended to since its content was last moved to the front.
-/
open Lib

namespace Cppnetool.Buffer

variable {b b' : Buffer} {reserve : Nat}

/-- What `shrink(reserve)` is for. -/
structure Shrunk (b b' : Buffer) (reserve : Nat) : Prop where
  readable : b'.readable = b.readable
  reader_le : b'.readerIndex ≤ b'.writerIndex
  writer_le : b'.writerIndex ≤ b'.buffer.length
  writable : reserve ≤ b'.writableBytes

/-- The content starts at the offset of a new buffer, or before it and holds
nothing but zeros. -/
def Fits (b : Buffer) : Prop :=
  b.readerIndex = kCheapPrepend ∨ b.readerIndex < kCheapPrepend ∧ ∀ x ∈ b.readable, x = 0

instance (b : Buffer) : Decidable b.Fits := inferInstanceAs (Decidable (_ ∨ _ ∧ _))

theorem shrink_spec (h : b.Wf) (reserve : Nat) :
    ∃ b', b.shrink reserve = some b' ∧ b'.readerIndex = b.readerIndex ∧ b'.writerIndex = b.writerIndex ∧
      b'.buffer.length = kCheapPrepend + b.readableBytes + reserve ∧
      ∀ k, b'.buffer[k]? = if k < kCheapPrepend then some 0
        else if k < kCheapPrepend + b.readableBytes then b.readable[k - kCheapPrepend]?
        else (List.replicate (kCheapPrepend + b.readableBytes + reserve) 0)[k]? := by
  have hl := length_readable h
  have hin : kCheapPrepend + b.readable.length ≤
      (List.replicate (kCheapPrepend + b.readableBytes + reserve) (0 : Byte)).length := by
    rw [List.length_replicate, hl]
    omega
  refine ⟨{ b with buffer := overwrite _ kCheapPrepend b.readable }, if_pos hin, rfl, rfl, ?_, ?_⟩
  · rw [length_overwrite hin, List.length_replicate]
  · intro k
    rw [getElem?_overwrite (by simp only [List.length_replicate]; omega), hl]
    split
    · rw [List.getElem?_replicate, if_pos (by omega)]
    · rfl

/-- With the reader before the offset, the content has moved back against the indices. -/
theorem shrink_readable (h : b.Wf) (hx : b.shrink reserve = some b') (hr : b.readerIndex ≤ kCheapPrepend) :
    b'.readable = b.readable ↔ b.Fits := by
  obtain ⟨_, hx', hri, hwi, hlen, hget⟩ := shrink_spec h reserve
  cases hx'.symm.trans hx
  have hl := length_readable h
  have hle := h.reader_le
  obtain ⟨d, hd⟩ := Nat.exists_eq_add_of_le hr
  have hrb : b.readableBytes = b.writerIndex - b.readerIndex := rfl
  have hl' : b'.readable.length = b.readable.length := by
    rw [readable, length_slice, hri, hwi, hlen, hl]
    omega
  -- what is read at `m` lies `d` places further on in the content
  have hm : ∀ m < b.readable.length, b'.readable[m]? = if m < d then some 0 else b.readable[m - d]? := by
    intro m hm
    rw [readable, getElem?_slice, if_pos (by omega), hget, hri]
    by_cases hmd : m < d
    · rw [if_pos (by omega), if_pos hmd]
    · rw [if_neg (by omega), if_pos (by omega), if_neg hmd]
      congr 1
      omega
  constructor
  · intro he
    rcases Nat.eq_zero_or_pos d with rfl | hpos
    · exact .inl (by omega)
    · refine .inr ⟨by omega, eq_of_shift hpos ?_⟩
      intro m hlt
      rw [← hm m hlt, he]
  · intro hf
    apply List.ext_getElem?
    intro m
    by_cases hlt : m < b.readable.length
    · rw [hm m hlt]
      rcases hf with hf | ⟨-, hzero⟩
      · rw [if_neg (by omega), show m - d = m by omega]
      · have hz : ∀ k < b.readable.length, b.readable[k]? = some 0 := fun k hk => by
          rw [List.getElem?_eq_getElem hk, hzero _ (List.getElem_mem hk)]
        rw [hz m hlt]
        split
        · rfl
        · exact hz _ (by omega)
    · rw [List.getElem?_eq_none (by omega), List.getElem?_eq_none (by omega)]

theorem shrunk_iff (h : b.Wf) (hx : b.shrink reserve = some b') : Shrunk b b' reserve ↔ b.Fits := by
  obtain ⟨_, hx', hri, hwi, hlen, -⟩ := shrink_spec h reserve
  cases hx'.symm.trans hx
  have hle := h.reader_le
  have hrb : b.readableBytes = b.writerIndex - b.readerIndex := rfl
  constructor
  · rintro ⟨hread, -, hw, hres⟩
    -- the room behind the writer is there only if the reader is not behind the offset
    refine (shrink_readable h hx ?_).1 hread
    rw [writableBytes, hlen, hwi] at hres
    rw [hlen, hwi] at hw
    omega
  · intro hf
    have hr : b.readerIndex ≤ kCheapPrepend := hf.elim Nat.le_of_eq fun h => Nat.le_of_lt h.1
    refine ⟨(shrink_readable h hx hr).2 hf, by rw [hri, hwi]; exact hle, ?_, ?_⟩
    · rw [hwi, hlen]
      omega
    · rw [writableBytes, hwi, hlen]
      omega

end Cppnetool.Buffer

namespace Cppnetool.BufferQueue

variable {ι : Type} [DecidableEq ι]

/-- Whatever has been done to a buffer, short of `shrink`, which is no step of
these runs: `shrink` does not fail, and it leaves the content readable, the
indices in order and the room asked for, exactly when the content starts at the
offset of a new buffer, or before it and is all zeros. The sum of
`kCheapPrepend`, the content and `reserve` is taken to be far below `2 ^ 64`. -/
theorem shrink_keeps_iff {tr : List ((ι → Buffer) × Act ι)} {s : ι → Buffer} (h : Run (machine ι) tr s) (i : ι)
    (reserve : Nat) : ∃ b', (s i).shrink reserve = some b' ∧
      (Buffer.Shrunk (s i) b' reserve ↔
        (s i).readerIndex = kCheapPrepend ∨ (s i).readerIndex < kCheapPrepend ∧ ∀ x ∈ (s i).readable, x = 0) := by
  have hwf := run_wf h i
  obtain ⟨b', hx, -⟩ := Buffer.shrink_spec hwf reserve
  exact ⟨b', hx, Buffer.shrunk_iff hwf hx⟩

/-- A buffer that was emptied and filled again. -/
theorem shrink_keeps_iff_refilled : ∃ tr s b', Run (machine Unit) tr s ∧ (s ()).readable = [3] ∧
    (s ()).shrink 3 = some b' ∧ Buffer.Shrunk (s ()) b' 3 := by
  obtain ⟨r, hr, hread, hf⟩ : ∃ r ∈ (machine Unit).play (machine Unit).init
      [.on () (.append [1, 2]), .on () (.retrieve 1), .on () .retrieveAll, .on () (.append [3])],
      (r.2 ()).readable = [3] ∧ (r.2 ()).readerIndex = kCheapPrepend := by decide +kernel
  have hrun := Machine.play_steps hr
  obtain ⟨b', hx, hiff⟩ := shrink_keeps_iff hrun () 3
  exact ⟨r.1, r.2, b', hrun, hread, hx, hiff.2 (.inl hf)⟩

/-- A byte has been retrieved: after `shrink(0)` the first of the other two is
no longer readable, and the writer is past the end of the vector. -/
theorem shrink_loses_content : ∃ tr s, ∃ b' ∈ (s ()).shrink 0, Run (machine Unit) tr s ∧
    (s ()).readable = [2, 3] ∧ b'.readable = [3] ∧ b'.buffer.length < b'.writerIndex ∧
    ¬ Buffer.Shrunk (s ()) b' 0 := by
  obtain ⟨r, hr, b', hx, hread, hread', hlt⟩ : ∃ r ∈ (machine Unit).play (machine Unit).init
      [.on () (.append [1, 2, 3]), .on () (.retrieve 1)], ∃ b' ∈ (r.2 ()).shrink 0,
      (r.2 ()).readable = [2, 3] ∧ b'.readable = [3] ∧ b'.buffer.length < b'.writerIndex := by decide +kernel
  exact ⟨r.1, r.2, b', hx, Machine.play_steps hr, hread, hread', hlt, fun h => absurd h.writer_le (by omega)⟩

end Cppnetool.BufferQueue
