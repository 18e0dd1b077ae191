import Cppnetool.BufferQueue
/-!
# What a buffer holds on to

`retrieve` never moves the indices back, so the writer drifts to the end of the
vector. The vector grows only when the room before the reader and behind the
writer together is too small for what comes in; so where it grows, its size was
less than what is then readable, and it grows by no more than that.
-/
open Lib

namespace Cppnetool.Buffer

variable {b b' : Buffer} {data : List Byte} {len i : Nat}

/-- The vector is as long as before, or less than twice as long as the content. -/
def Grown (b b' : Buffer) : Prop :=
  b'.buffer.length = b.buffer.length ∨ b'.buffer.length < 2 * b'.readableBytes + kCheapPrepend

theorem length_store (h : b.store i data = some b') : b'.buffer.length = b.buffer.length := by
  unfold store at h
  split at h
  · cases h
    exact length_overwrite (by assumption)
  · cases h

/-- The vector grows only where the free room on both sides is too small. -/
theorem length_makeSpace (h : b.Wf) (hlen : b.writableBytes < len) (hx : b.makeSpace len = some b') :
    b'.buffer.length = b.buffer.length ∨
      b'.buffer.length = b.writerIndex + len ∧ b.buffer.length < b.readableBytes + len + kCheapPrepend := by
  have hr := h.reader_le
  have hw := h.writer_le
  unfold makeSpace at hx
  split at hx
  · rename_i hg
    cases hx
    refine .inr ⟨length_resize .., ?_⟩
    simp only [writableBytes, prependableBytes] at hg
    simp only [readableBytes]
    omega
  · rename_i hg
    simp only [writableBytes, prependableBytes] at hg hlen
    obtain ⟨_, -, hx⟩ := Option.bind_eq_some_iff.1 hx
    obtain ⟨_, -, hx⟩ := Option.bind_eq_some_iff.1 hx
    cases hx
    left
    dsimp only
    rw [moveWithin_eq (by omega) (by omega), length_overwrite (by simp only [length_slice]; omega)]

theorem length_ensureWritableBytes (h : b.Wf) (hx : b.ensureWritableBytes len = some b') :
    b'.buffer.length = b.buffer.length ∨
      b'.buffer.length = b.writerIndex + len ∧ b.buffer.length < b.readableBytes + len + kCheapPrepend := by
  by_cases hw : b.writableBytes < len
  · have hm : b.makeSpace len = some b' := by
      obtain ⟨b₁, hm, -, -, hl⟩ := makeSpace_spec h hw
      simpa [ensureWritableBytes, assert, hw, hm, hl] using hx
    exact length_makeSpace h hw hm
  · have he : b = b' := by simpa [ensureWritableBytes, assert, hw, Nat.not_lt.1 hw] using hx
    exact .inl (by rw [he])

theorem append_grown (h : b.Wf) (hx : b.append data = some b') : Grown b b' := by
  obtain ⟨b₁, he, hx'⟩ := Option.bind_eq_some_iff.1 hx
  obtain ⟨b₂, hs, hx'⟩ := Option.bind_eq_some_iff.1 hx'
  have hl : b'.buffer.length = b₁.buffer.length := by
    cases hx'
    show b₂.buffer.length = _
    exact length_store hs
  have hr : b'.readableBytes = b.readableBytes + data.length := by
    obtain ⟨_, hx', hwf, hread⟩ := append_spec h data
    cases hx.symm.trans hx'
    rw [← length_readable hwf, ← length_readable h, hread, List.length_append]
  have hw := h.writer_le
  rcases length_ensureWritableBytes h he with hs | ⟨hs, hlt⟩
  · exact .inl (hl.trans hs)
  -- the room was too small, so what is readable afterwards is most of the old vector
  · right
    rw [hl, hs, hr]
    omega

/-- The part of the data that is in `extrabuf` is appended to a full vector. -/
theorem readFd_grown {r : Except Nat (List Byte)} {n : Except Nat Nat} (h : b.Wf)
    (hx : b.readFd r = some (n, b')) : Grown b b' := by
  cases r with
  | error e =>
    cases hx
    exact .inl rfl
  | ok data =>
    obtain ⟨b₁, hs, hx⟩ := Option.bind_eq_some_iff.1 hx
    have hl : b₁.buffer.length = b.buffer.length := length_store hs
    have htake : (data.take b.writableBytes).length ≤ b.writableBytes := by
      rw [List.length_take]
      exact Nat.min_le_left _ _
    obtain ⟨_, hs', hwi, -, -, hwf, -⟩ := store_hasWritten_spec h htake
    cases hs.symm.trans hs'
    split at hx
    · cases hx
      exact .inl hl
    · rename_i hle
      obtain ⟨b₂, ha, hx⟩ := Option.bind_eq_some_iff.1 hx
      cases hx
      rw [filled h hwi hl hle] at ha
      rcases append_grown hwf ha with he | hlt
      · exact .inl (he.trans hl)
      · exact .inr hlt

end Cppnetool.Buffer

namespace Cppnetool.BufferQueue

variable {ι : Type} [DecidableEq ι]

/-- Content moves in and out, and no room is asked for without being filled. -/
def Op.streams : Op → Prop
  | ensureWritableBytes _ => False
  | _ => True

instance : ∀ op : Op, Decidable op.streams
  | .ensureWritableBytes _ => inferInstanceAs (Decidable False)
  | .append _ | .prepend _ | .retrieve _ | .retrieveUntil _ | .retrieveAll | .retrieveAsString | .write _
  | .readFd _ => inferInstanceAs (Decidable True)

/-- What is done to buffer `i` streams, and it stays the same buffer. -/
def Act.streams (i : ι) : Act ι → Prop
  | on j op => j = i → op.streams
  | swap j k => j ≠ i ∧ k ≠ i

instance (i : ι) : ∀ a : Act ι, Decidable (a.streams i)
  | .on _ _ => inferInstanceAs (Decidable (_ → _))
  | .swap _ _ => inferInstanceAs (Decidable (_ ∧ _))

theorem run_grown {b b' : Buffer} (h : b.Wf) {op : Op} (ho : op.streams) (hx : op.run b = some b') :
    Buffer.Grown b b' := by
  cases op with
  | append data => exact Buffer.append_grown h hx
  | prepend data =>
    obtain ⟨_, -, hx⟩ := Option.bind_eq_some_iff.1 hx
    exact .inl (Buffer.length_store (b := { b with readerIndex := b.readerIndex - data.length }) hx)
  | retrieve len =>
    obtain ⟨_, -, hx⟩ := Option.bind_eq_some_iff.1 hx
    cases hx
    exact .inl rfl
  | retrieveUntil len =>
    obtain ⟨_, -, hx⟩ := Option.bind_eq_some_iff.1 hx
    obtain ⟨_, -, hx⟩ := Option.bind_eq_some_iff.1 hx
    obtain ⟨_, -, hx⟩ := Option.bind_eq_some_iff.1 hx
    cases hx
    exact .inl rfl
  | retrieveAll => cases hx; exact .inl rfl
  | retrieveAsString => cases hx; exact .inl rfl
  | ensureWritableBytes len => exact ho.elim
  | write data =>
    obtain ⟨b₁, hs, hx⟩ := Option.map_eq_some_iff.1 hx
    cases hx
    exact .inl (show b₁.buffer.length = _ from Buffer.length_store hs)
  | readFd r =>
    obtain ⟨⟨n, b₁⟩, hr, hx⟩ := Option.map_eq_some_iff.1 hx
    cases hx
    exact Buffer.readFd_grown h hr

theorem step_grown {s s' : ι → Buffer} {a : Act ι} {i : ι} (h : AllWf s) (ha : a.streams i)
    (hx : (machine ι).exec s a = some s') : Buffer.Grown (s i) (s' i) := by
  cases a with
  | on j op =>
    obtain ⟨b, hb, hx⟩ := Option.map_eq_some_iff.1 hx
    cases hx
    by_cases hj : i = j
    · subst hj
      rw [Function.update_self]
      exact run_grown (h i) (ha rfl) hb
    · rw [Function.update_of_ne hj]
      exact .inl rfl
  | swap j k =>
    cases hx
    rw [Function.update_of_ne ha.2.symm, Function.update_of_ne ha.1.symm]
    exact .inl rfl

/-- A buffer that content streams through never holds more than twice the
most it has had to read at once: the vector it started with is enough until
then, and retrieving without resetting the indices does not make it grow. -/
theorem storage_bounded {tr : List ((ι → Buffer) × Act ι)} {s : ι → Buffer} (h : Run (machine ι) tr s) (i : ι)
    (hops : Meets (fun _ a => a.streams i) tr) {M : Nat}
    (hM : ∀ t, Visited tr s t → (t i).readableBytes ≤ M) :
    (s i).buffer.length ≤ max (kCheapPrepend + kInitialSize) (2 * M + kCheapPrepend) := by
  have hI := h.inv_trace (I := fun tr s => AllWf s ∧ (Meets (fun _ a => Act.streams i a) tr →
    (∀ t, Visited tr s t → (t i).readableBytes ≤ M) →
      (s i).buffer.length ≤ max (kCheapPrepend + kInitialSize) (2 * M + kCheapPrepend)))
    ⟨init_wf, fun _ _ => Nat.le_trans (Nat.le_of_eq (by simp [machine, Buffer.new])) (Nat.le_max_left _ _)⟩ ?_
  · exact hI.2 hops hM
  · rintro tr t a u - ⟨hwf, ih⟩ he hx
    refine ⟨(exec_spec t a u hwf he hx).1, ?_⟩
    intro hops hM
    have ht : (t i).buffer.length ≤ max (kCheapPrepend + kInitialSize) (2 * M + kCheapPrepend) := by
      refine ih (fun p hp => hops p (by simp [hp])) ?_
      intro v hv
      refine hM v (.inl ?_)
      rcases hv with hv | rfl
      · simp [hv]
      · simp
    rcases step_grown hwf (hops (t, a) (by simp)) hx with hg | hg
    · rw [hg]
      exact ht
    · have := hM u (.inr rfl)
      omega

set_option maxRecDepth 20000 in
/-- A vector that has grown: 1100 bytes to read, after 400 that were retrieved. -/
theorem storage_bounded_grown : ∃ tr s, Run (machine Unit) tr s ∧ (s ()).readableBytes = 1100 ∧
    (s ()).buffer.length = 1508 ∧
    (s ()).buffer.length ≤ max (kCheapPrepend + kInitialSize) (2 * 1100 + kCheapPrepend) := by
  obtain ⟨r, hr, hread, hlen, hops, hM⟩ : ∃ r ∈ (machine Unit).play (machine Unit).init
      [.on () (.append (List.replicate 1000 1)), .on () (.retrieve 400), .on () (.append (List.replicate 500 2))],
      (r.2 ()).readableBytes = 1100 ∧ (r.2 ()).buffer.length = 1508 ∧ Meets (fun _ a => a.streams ()) r.1 ∧
        ∀ t ∈ r.1.map Prod.fst, (t ()).readableBytes ≤ 1100 := by decide +kernel
  have hrun := Machine.play_steps hr
  refine ⟨r.1, r.2, hrun, hread, hlen, storage_bounded hrun () hops ?_⟩
  rintro t (ht | rfl)
  · exact hM t ht
  · exact Nat.le_of_eq hread

end Cppnetool.BufferQueue
