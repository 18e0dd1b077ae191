import Mathlib.Logic.Function.Basic
import Cppnetool.Buffer
/-!
# A buffer is a byte queue

Any number of buffers, any sequence of operations on them. `Op.run` is what
the code does to one buffer, `Op.abs` what the operation is for: at most one
change to a queue of bytes. No operation used within its contract fails an
assert, and the readable bytes always are the content of the queue.
-/
open Lib

namespace Cppnetool.BufferQueue

/-! ## Queues -/

/-- The changes to a queue: at the back, at the front, or all of it. -/
inductive QueueOp (α : Type)
  | keep
  | pushBack (xs : List α)
  | pushFront (xs : List α)
  | dropFront (n : Nat)
  | clear

def QueueOp.apply {α : Type} (q : List α) : QueueOp α → List α
  | keep => q
  | pushBack xs => q ++ xs
  | pushFront xs => xs ++ q
  | dropFront n => q.drop n
  | clear => []

/-! ## Operations on one buffer -/

inductive Op
  | append (data : List Byte)
  | prepend (data : List Byte)
  | retrieve (len : Nat)
  /-- `retrieveUntil(peek() + len)` -/
  | retrieveUntil (len : Nat)
  | retrieveAll
  | retrieveAsString
  | ensureWritableBytes (len : Nat)
  /-- `data` stored at `beginWrite()`, then `hasWritten`. -/
  | write (data : List Byte)
  | readFd (r : Except Nat (List Byte))

/-- The contract: `readv` fills at most the writable bytes and `extrabuf`. -/
def Op.allowed (b : Buffer) : Op → Prop
  | prepend data => data.length ≤ b.prependableBytes
  | retrieve len => len ≤ b.readableBytes
  | retrieveUntil len => len ≤ b.readableBytes
  | write data => data.length ≤ b.writableBytes
  | readFd (.ok data) => data.length ≤ b.writableBytes + kExtraBuf
  | _ => True

def Op.run (b : Buffer) : Op → Option Buffer
  | append data => b.append data
  | prepend data => b.prepend data
  | retrieve len => b.retrieve len
  | retrieveUntil len => b.retrieveUntil (b.readerIndex + len)
  | retrieveAll => some b.retrieveAll
  | retrieveAsString => some b.retrieveAsString.2
  | ensureWritableBytes len => b.ensureWritableBytes len
  | write data => (b.store b.writerIndex data).map (·.hasWritten data.length)
  | readFd r => (b.readFd r).map (·.2)

/-- The change to the queue. -/
def Op.abs : Op → QueueOp Byte
  | append data => .pushBack data
  | prepend data => .pushFront data
  | retrieve len => .dropFront len
  | retrieveUntil len => .dropFront len
  | retrieveAll => .clear
  | retrieveAsString => .clear
  | ensureWritableBytes _ => .keep
  | write data => .pushBack data
  | readFd (.ok data) => .pushBack data
  | readFd (.error _) => .keep

theorem run_spec {b : Buffer} (h : b.Wf) (op : Op) (ha : op.allowed b) :
    ∃ b', op.run b = some b' ∧ b'.Wf ∧ b'.readable = op.abs.apply b.readable := by
  cases op with
  | append data => exact Buffer.append_spec h data
  | prepend data => exact Buffer.prepend_spec h ha
  | retrieve len => exact Buffer.retrieve_spec h (by rw [Buffer.length_readable h]; exact ha)
  | retrieveUntil len => exact Buffer.retrieveUntil_spec h (by rw [Buffer.length_readable h]; exact ha)
  | retrieveAll => exact ⟨_, rfl, Buffer.retrieveAll_wf h, Buffer.retrieveAll_readable⟩
  | retrieveAsString => exact ⟨_, rfl, Buffer.retrieveAll_wf h, Buffer.retrieveAll_readable⟩
  | ensureWritableBytes len =>
    obtain ⟨b', he, hwf, hr, -⟩ := Buffer.ensureWritableBytes_spec h len
    exact ⟨b', he, hwf, hr⟩
  | write data =>
    obtain ⟨b', hs, -, -, -, hwf, hr⟩ := Buffer.store_hasWritten_spec h ha
    exact ⟨_, by simp [Op.run, hs], hwf, hr⟩
  | readFd r =>
    obtain ⟨n, b', hx, hwf, hr⟩ := Buffer.readFd_spec h r
    refine ⟨b', by simp [Op.run, hx], hwf, ?_⟩
    cases r with
    | error e => rw [hr.2]; rfl
    | ok data => exact hr.2

/-! ## Any number of buffers -/

inductive Act (ι : Type)
  | on (i : ι) (op : Op)
  | swap (i j : ι)

variable {ι : Type} [DecidableEq ι]

/-- Buffers named by `ι`, all new at the start. -/
def machine (ι : Type) [DecidableEq ι] : Machine (ι → Buffer) (Act ι) where
  init := fun _ => .new
  enabled s
    | .on i op => op.allowed (s i)
    | .swap _ _ => True
  exec s
    | .on i op => (op.run (s i)).map (Function.update s i)
    | .swap i j => some (Function.update (Function.update s i (s j)) j (s i))

instance (b : Buffer) : ∀ op : Op, Decidable (op.allowed b)
  | .prepend _ => inferInstanceAs (Decidable (_ ≤ _))
  | .retrieve _ => inferInstanceAs (Decidable (_ ≤ _))
  | .retrieveUntil _ => inferInstanceAs (Decidable (_ ≤ _))
  | .write _ => inferInstanceAs (Decidable (_ ≤ _))
  | .readFd (.ok _) => inferInstanceAs (Decidable (_ ≤ _))
  | .readFd (.error _) => inferInstanceAs (Decidable True)
  | .append _ => inferInstanceAs (Decidable True)
  | .retrieveAll => inferInstanceAs (Decidable True)
  | .retrieveAsString => inferInstanceAs (Decidable True)
  | .ensureWritableBytes _ => inferInstanceAs (Decidable True)

instance (s : ι → Buffer) : ∀ a : Act ι, Decidable ((machine ι).enabled s a)
  | .on i op => inferInstanceAs (Decidable (op.allowed (s i)))
  | .swap _ _ => inferInstanceAs (Decidable True)

/-- The queues after an action. -/
def specStep (q : ι → List Byte) : Act ι → ι → List Byte
  | .on i op => Function.update q i (op.abs.apply (q i))
  | .swap i j => Function.update (Function.update q i (q j)) j (q i)

/-- What the queues hold after a sequence of actions on empty ones. -/
def contents (as : List (Act ι)) : ι → List Byte := as.foldl specStep fun _ => []

def AllWf (s : ι → Buffer) : Prop := ∀ i, (s i).Wf

theorem allWf_update {s : ι → Buffer} (h : AllWf s) {i : ι} {b : Buffer} (hb : b.Wf) :
    AllWf (Function.update s i b) := by
  intro j
  by_cases hj : j = i
  · subst hj; simpa using hb
  · simpa [hj] using h j

theorem step_spec (s : ι → Buffer) (a : Act ι) (h : AllWf s) (ha : (machine ι).enabled s a) :
    ∃ s', (machine ι).exec s a = some s' ∧ AllWf s' ∧
      (fun i => (s' i).readable) = specStep (fun i => (s i).readable) a := by
  cases a with
  | on i op =>
    obtain ⟨b', hb, hwf, hr⟩ := run_spec (h i) op ha
    refine ⟨Function.update s i b', by simp [machine, hb], allWf_update h hwf, ?_⟩
    funext j
    by_cases hj : j = i
    · subst hj; simpa [specStep] using hr
    · simp [specStep, hj]
  | swap i j =>
    refine ⟨_, rfl, allWf_update (allWf_update h (h j)) (h i), ?_⟩
    funext k
    by_cases hj : k = j
    · subst hj; simp [specStep]
    · by_cases hi : k = i
      · subst hi; simp [specStep, hj]
      · simp [specStep, hj, hi]

theorem init_wf : AllWf (machine ι).init := fun _ => Buffer.new_wf

theorem exec_spec (s : ι → Buffer) (a : Act ι) (s' : ι → Buffer) (h : AllWf s)
    (ha : (machine ι).enabled s a) (hx : (machine ι).exec s a = some s') :
    AllWf s' ∧ (fun i => (s' i).readable) = specStep (fun i => (s i).readable) a := by
  obtain ⟨s'', hx', hs⟩ := step_spec s a h ha
  rw [hx] at hx'; cases hx'; exact hs

theorem run_wf {tr : List ((ι → Buffer) × Act ι)} {s : ι → Buffer} (h : Run (machine ι) tr s) : AllWf s :=
  h.inv AllWf init_wf fun s a s' h ha hx => (exec_spec s a s' h ha hx).1

/-- No operation within its contract fails an assert or writes outside its
vector; the indices stay in order; and the readable bytes, which are also what
`retrieveAsString` returns, are the content of the queue. -/
theorem buffer_refines_queue : (machine ι).Safe ∧
    ∀ tr s, Run (machine ι) tr s → ∀ i,
      (s i).readerIndex ≤ (s i).writerIndex ∧ (s i).writerIndex ≤ (s i).buffer.length ∧
      (s i).readable = contents (tr.map Prod.snd) i ∧
      (s i).retrieveAsString.1 = contents (tr.map Prod.snd) i := by
  refine ⟨Machine.safe_of_inv AllWf init_wf ?_, ?_⟩
  · intro s a h ha
    obtain ⟨s', hx, hwf, -⟩ := step_spec s a h ha
    exact ⟨s', hx, hwf⟩
  · intro tr s hr i
    have hwf := run_wf hr
    have hq := hr.refines AllWf (fun s i => (s i).readable) specStep init_wf exec_spec
    have hi : (s i).readable = contents (tr.map Prod.snd) i := by
      rw [congrFun hq i, contents]; simp [machine]
    exact ⟨(hwf i).reader_le, (hwf i).writer_le, hi, hi⟩

set_option maxRecDepth 20000 in
/-- A run over two buffers: bytes go in at both ends and by `readFd`, and the
buffers are swapped. -/
theorem buffer_refines_queue_run : ∃ tr s, Run (machine Bool) tr s ∧
    (s true).readable = [9, 2, 3, 4, 5] ∧ (s true).retrieveAsString.1 = contents (tr.map Prod.snd) true := by
  let as : List (Act Bool) :=
    [.on false (.append [1, 2, 3]), .on false (.retrieve 1), .on false (.prepend [9]), .swap false true,
      .on true (.readFd (.ok [4, 5]))]
  obtain ⟨r, hr⟩ : ∃ r, (machine Bool).play (machine Bool).init as = some r := ⟨_, rfl⟩
  have hrun : Run (machine Bool) r.1 r.2 := Machine.play_steps hr
  have h := (buffer_refines_queue.2 r.1 r.2 hrun true).2.2
  refine ⟨r.1, r.2, hrun, h.1.trans ?_, h.2⟩
  cases hr; rfl

end Cppnetool.BufferQueue
