import Cppnetool.LoggingThreads
import Cppnetool.LoggingRecord
/-!
# The text of a record

The front of a record, which the constructor streams, always has room. The time
in it is the one that the thread has kept, if it is still the same second.
Behind the front stand whole pieces of the message and of the end: all of them,
if there is room (`records_text`).
-/
open Lib

namespace Cppnetool.Logger
open LogStream

/-! ## What is to be printed -/

/-- The time, to the microsecond. -/
def timestamp (now : Int) : List Byte :=
  timeText (gmtime (now / 1000000)) ++ (chars "." ++ decimal0 6 (now % 1000000) ++ chars "Z ")

def Ctor.logLevel : Ctor → LogLevel
  | .fileLine _ _ => .INFO
  | .func _ _ lvl _ | .level _ _ lvl => lvl
  | .toAbort _ _ aborts => if aborts then .FATAL else .ERROR

def errnoText (strerror : uintptr.Val) (savedErrno : int.Val) : List Byte :=
  if savedErrno.val ≠ 0 then
    chars "0x" ++ hexText strerror.val.natAbs ++ chars " (errno= " ++ decimalText savedErrno.val ++ chars ") "
  else []

/-- What a constructor prints behind the level: the function's name and the text
of `errno` go out as addresses. -/
def Ctor.context (env : Env) : Ctor → List Byte
  | .fileLine _ _ | .level _ _ _ => []
  | .func _ _ _ name => ptrText name ++ chars " "
  | .toAbort _ _ _ => errnoText env.strerror env.errno

def front (env : Env) (ctor : Ctor) : List Byte :=
  timestamp env.now.val ++ (chars "tid:" ++ decimal 5 env.tid.val ++ chars " ") ++ LogLevelName ctor.logLevel ++
    ctor.context env

/-- The pieces of `finish`. -/
def Ctor.ending (ctor : Ctor) : List Piece :=
  [.cstr (chars " - "), .pointer (basename ctor.file).ptr, .char (ch ':'), .int ctor.line, .char (ch '\n')]

/-- The texts of the pieces, one after the other. -/
def texts (pieces : List Piece) : List Byte := pieces.flatMap Piece.text

/-- A record has its front and whole pieces, and all of them if there is room
with 32 bytes to spare, which is what a number asks of the buffer. -/
structure RecordOf (env : Env) (ctor : Ctor) (pieces : List Piece) (msg : List Byte) : Prop where
  kept : ∃ kept, kept.Sublist (pieces ++ ctor.ending) ∧ msg = front env ctor ++ texts kept
  whole : (front env ctor ++ texts (pieces ++ ctor.ending)).length + 32 ≤ kSmallBuffer →
    msg = front env ctor ++ texts (pieces ++ ctor.ending)

variable {env : Env} {l l' : Locals} {ctor : Ctor} {i i' : Impl} {pieces : List Piece} {b b' : FixedBuffer}
  {text : List Byte} {n : Nat}

@[simp] theorem texts_nil : texts [] = [] := rfl

@[simp] theorem texts_cons (p : Piece) (ps : List Piece) : texts (p :: ps) = p.text ++ texts ps := List.flatMap_cons

@[simp] theorem texts_append (ps qs : List Piece) : texts (ps ++ qs) = texts ps ++ texts qs := List.flatMap_append

/-! ## Several pieces -/

/-- Whole pieces have gone into the buffer, and all of them if there was room
with 32 bytes to spare. -/
structure Filled (pieces : List Piece) (b b' : FixedBuffer) : Prop where
  length : b'.data.length = b.data.length
  wf : b'.Wf
  kept : ∃ kept, kept.Sublist pieces ∧ b'.asString = b.asString ++ texts kept
  whole : (texts pieces).length + 32 ≤ b.avail → b'.asString = b.asString ++ texts pieces

theorem accepts_of_room {p : Piece} (h : (p.text.length : Int) + 32 ≤ b.avail) : Accepts b p := by
  unfold Accepts kMaxNumericSize
  split <;> omega

theorem insertAll_filled (h : b.Wf) (hp : ∀ p ∈ pieces, p.Fits) (hx : insertAll b pieces = some b') :
    Filled pieces b b' := by
  induction pieces generalizing b with
  | nil =>
    cases hx
    exact ⟨rfl, h, ⟨[], .slnil, (List.append_nil _).symm⟩, fun _ => (List.append_nil _).symm⟩
  | cons p ps ih =>
    obtain ⟨c, hc, hi⟩ := insert_spec h (hp p List.mem_cons_self)
    rw [insertAll_cons, hc, some_bind] at hx
    obtain ⟨hlen, hwf, ⟨kept, hsub, he⟩, hwhole⟩ := ih hi.wf (fun q hq => hp q (List.mem_cons_of_mem _ hq)) hx
    refine ⟨hlen.trans hi.length, hwf, ?_, fun hroom => ?_⟩
    · by_cases ha : Accepts b p
      · exact ⟨p :: kept, hsub.cons_cons p, by rw [he, hi.accepted ha, List.append_assoc, texts_cons]⟩
      · exact ⟨kept, hsub.cons p, by rw [he, hi.rejected ha]⟩
    · rw [texts_cons, List.length_append] at hroom
      have ha : Accepts b p := accepts_of_room (by omega)
      rw [hwhole (by rw [hi.avail h ha]; omega), hi.accepted ha, List.append_assoc, texts_cons]

/-! ## Texts that go through an array -/

theorem overwrite_zero (mem text : List Byte) :
    overwrite mem 0 (text ++ [0]) = text ++ 0 :: mem.drop (text.length + 1) := by
  simp [overwrite]

theorem T_str {rest : List Byte} {t : T} (h0 : 0 ∉ text) (ht : T.new (text ++ 0 :: rest) n = some t) :
    t.str = text ∧ t.len = n := by
  rw [T.new, strlen_append h0, some_bind] at ht
  split at ht
  · cases ht
    exact ⟨List.take_left, rfl⟩
  · cases ht

theorem snprintf_length {mem mem' : List Byte} {p size : Nat} (hx : snprintf mem p size text = some (n, mem')) :
    n = text.length := by
  rw [snprintf] at hx
  obtain ⟨_, -, hx⟩ := Option.bind_eq_some_iff.1 hx
  dsimp only at hx
  obtain ⟨_, -, hx⟩ := Option.bind_eq_some_iff.1 hx
  cases hx
  rfl

theorem snprintf_eq {mem mem' : List Byte} {size : Nat} (h : text.length < size)
    (hx : snprintf mem 0 size text = some (n, mem')) :
    n = text.length ∧ mem' = text ++ 0 :: mem.drop (text.length + 1) := by
  have hcut : text.take (size - 1) = text := List.take_of_length_le (Nat.le_pred_of_lt h)
  rw [snprintf, assert_bind (Nat.zero_lt_of_lt h), hcut] at hx
  dsimp only at hx
  obtain ⟨_, -, hx⟩ := Option.bind_eq_some_iff.1 hx
  cases hx
  exact ⟨rfl, overwrite_zero mem text⟩

theorem Fmt_T_str {f : Fmt} {t : T} (h0 : 0 ∉ text) (hf : Fmt.new text = some f) (ht : T.new f.buf n = some t) :
    t.str = text ∧ t.len = n := by
  have hlt : text.length < sizeofFmt := Fmt_length hf ▸ f.length_lt
  obtain ⟨⟨m, buf⟩, hx, hf⟩ := Option.bind_eq_some_iff.1 hf
  obtain ⟨rfl, rfl⟩ := snprintf_eq hlt hx
  dsimp only at hf
  split at hf
  · cases hf
    exact T_str h0 ht
  · cases hf

/-! ## The time that a thread has kept -/

/-- The text in `t_time` is that of `t_lastSecond`, unless there has been none. -/
def Locals.Shows (l : Locals) : Prop :=
  l.lastSecond ≠ 0 → ∃ rest, l.time = timeText (gmtime l.lastSecond) ++ 0 :: rest

theorem Locals.new_shows : Locals.new.Shows := fun h => absurd rfl h

theorem formatSecond_shows {seconds : Int} (h : l.Shows) (hx : formatSecond l seconds = some l') :
    l'.Shows ∧ l'.lastSecond = seconds := by
  unfold formatSecond at hx
  split at hx
  · obtain ⟨⟨len, time⟩, hp, hx⟩ := Option.bind_eq_some_iff.1 hx
    obtain ⟨_, h17, hx⟩ := Option.bind_eq_some_iff.1 hx
    cases hx
    have h17 : len = 17 := assert_eq_some.1 h17
    have hlt : (timeText (gmtime seconds)).length < 32 := by
      rw [snprintf_length hp] at h17
      omega
    exact ⟨fun _ => ⟨_, (snprintf_eq hlt hp).2⟩, rfl⟩
  · rename_i he
    cases hx
    exact ⟨h, (not_not.1 he).symm⟩

/-! ## The front -/

/-- A stream of full size that holds this text. -/
structure Holds (b : FixedBuffer) (text : List Byte) : Prop where
  length : b.data.length = kSmallBuffer
  wf : b.Wf
  content : b.asString = text

theorem holds_new : Holds LogStream.new [] := ⟨List.length_replicate, new_wf, rfl⟩

theorem Holds.avail (h : Holds b text) : b.avail = kSmallBuffer - text.length := by
  have := h.wf.length_asString
  rw [h.content] at this
  rw [FixedBuffer.avail, h.length, this]

theorem Holds.insertAll (h : Holds b text) (hp : ∀ p ∈ pieces, p.Fits)
    (hroom : text.length + (texts pieces).length + 32 ≤ kSmallBuffer) (hx : insertAll b pieces = some b') :
    Holds b' (text ++ texts pieces) := by
  obtain ⟨hlen, hwf, -, hwhole⟩ := insertAll_filled h.wf hp hx
  refine ⟨hlen.trans h.length, hwf, ?_⟩
  rw [hwhole (by rw [h.avail]; omega), h.content]

theorem formatTime_text {now : long.Val} (hnow : 1000000 ≤ now.val) (h : l.Shows)
    (hx : formatTime l LogStream.new now = some (l', b)) :
    l'.Shows ∧ Holds b (timestamp now.val) ∧ (timestamp now.val).length = 26 := by
  obtain ⟨l1, h1, hx⟩ := Option.bind_eq_some_iff.1 hx
  obtain ⟨us, h2, hx⟩ := Option.bind_eq_some_iff.1 hx
  obtain ⟨_, -, hx⟩ := Option.bind_eq_some_iff.1 hx
  obtain ⟨t1, h3, hx⟩ := Option.bind_eq_some_iff.1 hx
  obtain ⟨t2, h4, hx⟩ := Option.bind_eq_some_iff.1 hx
  obtain ⟨c, h5, hx⟩ := Option.bind_eq_some_iff.1 hx
  cases hx
  have hsec := seconds_eq hnow
  have hmicro : now.val.tmod 1000000 = now.val % 1000000 := Int.tmod_eq_emod_of_nonneg (by omega)
  obtain ⟨hl, hlast⟩ := formatSecond_shows h h1
  obtain ⟨rest, htime⟩ := hl (by rw [hlast, hsec]; omega)
  rw [hlast, hsec] at htime
  rw [htime] at h3
  rw [hmicro] at h2
  obtain ⟨e1, n1⟩ := T_str (timeText_no_nul _) h3
  have h0 : 0 ∉ chars "." ++ decimal0 6 (now.val % 1000000) ++ chars "Z " := by
    have hdot : 0 ∉ chars "." := by decide
    have hz : 0 ∉ chars "Z " := by decide
    simp [hdot, hz, decimal0_no_nul]
  obtain ⟨e2, n2⟩ := Fmt_T_str h0 h2 h4
  have htext : texts [.T t1, .T t2] = timestamp now.val := by
    simp only [texts_cons, texts_nil, Piece.text, e1, e2, timestamp, List.append_nil]
  have hlen : (timestamp now.val).length = 26 := by
    rw [← htext]
    simp [Piece.text, t1.strlen_eq, t2.strlen_eq, n1, n2]
  refine ⟨hl, ?_, hlen⟩
  have hb := holds_new.insertAll (by simp [Piece.Fits, n1, n2]) (by rw [htext, hlen]; decide) h5
  rwa [List.nil_append, htext] at hb

theorem length_errnoText (p : uintptr.Val) (e : int.Val) : (errnoText p e).length ≤ 50 := by
  have h1 := length_hexText p
  have h2 := length_decimalText (by decide) e
  unfold errnoText
  split
  · simp only [List.length_append, chars, List.length_map]
    simp
    omega
  · simp

theorem insertErrno_text {p : uintptr.Val} {e : int.Val} (h : Holds b text) (hroom : text.length ≤ 1000)
    (hx : insertErrno b p e = some b') : Holds b' (text ++ errnoText p e) := by
  have hlen := length_errnoText p e
  unfold insertErrno at hx
  unfold errnoText at hlen ⊢
  split at hx
  · rename_i he
    rw [if_pos he] at hlen ⊢
    have htext : texts [.pointer p, .cstr (chars " (errno= "), .int e, .cstr (chars ") ")] =
        chars "0x" ++ hexText p.val.natAbs ++ chars " (errno= " ++ decimalText e.val ++ chars ") " := by
      simp [Piece.text]
    rw [← htext] at hlen ⊢
    exact h.insertAll (by simp [Piece.Fits]; decide) (by unfold kSmallBuffer; omega) hx
  · rename_i he
    cases hx
    rwa [if_neg he, List.append_nil]

theorem Impl.new_text {level : LogLevel} {savedErrno line : int.Val} {file : CString} (hu : env.Usual) (h : l.Shows)
    (hx : Impl.new env l level savedErrno file line = some (l', i)) :
    l'.Shows ∧ i.level = level ∧ ∃ tid : List Byte, tid = chars "tid:" ++ decimal 5 env.tid.val ++ chars " " ∧
      tid.length = 10 ∧ (timestamp env.now.val).length = 26 ∧
      Holds i.stream (timestamp env.now.val ++ tid ++ LogLevelName level ++ errnoText env.strerror savedErrno) := by
  obtain ⟨⟨l1, b1⟩, h1, hx⟩ := Option.bind_eq_some_iff.1 hx
  obtain ⟨tid, h2, hx⟩ := Option.bind_eq_some_iff.1 hx
  obtain ⟨_, -, hx⟩ := Option.bind_eq_some_iff.1 hx
  obtain ⟨t, h3, hx⟩ := Option.bind_eq_some_iff.1 hx
  obtain ⟨b2, h4, hx⟩ := Option.bind_eq_some_iff.1 hx
  obtain ⟨name, h5, hx⟩ := Option.bind_eq_some_iff.1 hx
  obtain ⟨b3, h6, hx⟩ := Option.bind_eq_some_iff.1 hx
  obtain ⟨b4, h7, hx⟩ := Option.bind_eq_some_iff.1 hx
  cases hx
  have hno : 0 ∉ chars "tid:" ++ decimal 5 env.tid.val ++ chars " " := by
    have htid : 0 ∉ chars "tid:" := by decide
    have hblank : 0 ∉ chars " " := by decide
    simp [htid, hblank, decimal_no_nul]
  obtain ⟨hl, w1, hlen⟩ := formatTime_text hu.now h h1
  obtain ⟨e1, n1⟩ := Fmt_T_str hno h2 h3
  have hname : 0 ∉ LogLevelName level := by cases level <;> decide
  obtain ⟨e2, n2⟩ := T_str hname h5
  generalize chars "tid:" ++ decimal 5 env.tid.val ++ chars " " = tidText at e1
  have ht : tidText.length = 10 := by rw [← e1, t.strlen_eq, n1]
  have hn : (LogLevelName level).length = 6 := by rw [← e2, name.strlen_eq, n2]
  have w2 := w1.insertAll (by simp [Piece.Fits, n1]) (by simp [Piece.text, e1, ht, hlen]; decide) h4
  have w3 := w2.insertAll (by simp [Piece.Fits, n2]) (by simp [Piece.text, e1, e2, ht, hn, hlen]; decide) h6
  simp only [texts_cons, texts_nil, Piece.text, List.append_nil, e1, e2] at w3
  exact ⟨hl, rfl, tidText, rfl, ht, hlen, insertErrno_text w3 (by simp [hlen, ht, hn]) h7⟩

theorem LogLevelName_length (level : LogLevel) : (LogLevelName level).length = 6 := by
  cases level <;> rfl

/-- The front of a record is complete, and its time is that of the record. -/
theorem new_text (hu : env.Usual) (h : l.Shows) (hx : new env l ctor = some (l', i)) :
    l'.Shows ∧ Holds i.stream (front env ctor) := by
  have hnoError : errnoText env.strerror noError = [] := rfl
  cases ctor with
  | fileLine file line | level file line level =>
    obtain ⟨hl, -, -, rfl, -, -, hi⟩ := Impl.new_text hu h hx
    exact ⟨hl, hi⟩
  | toAbort file line toAbort =>
    obtain ⟨hl, -, -, rfl, -, -, hi⟩ := Impl.new_text hu h hx
    exact ⟨hl, hi⟩
  | func file line level func =>
    obtain ⟨⟨l1, i1⟩, h1, hx⟩ := Option.bind_eq_some_iff.1 hx
    obtain ⟨i2, h2, hx⟩ := Option.bind_eq_some_iff.1 hx
    cases hx
    obtain ⟨c, hc, h2⟩ := Option.bind_eq_some_iff.1 h2
    cases h2
    obtain ⟨hl, -, tid, htid, ht, hlen, hi⟩ := Impl.new_text hu h h1
    have hname := LogLevelName_length level
    have htext : texts [.pointer func.ptr, .char (ch ' ')] = ptrText func ++ chars " " := by
      simp [Piece.text, ptrText, CString.ptr, chars]
    have hroom := length_ptrText func
    rw [hnoError, List.append_nil] at hi
    have hc := hi.insertAll (by simp [Piece.Fits])
      (by rw [htext]; simp [hlen, ht, hname, kSmallBuffer, chars]; omega) hc
    rw [htext, htid] at hc
    exact ⟨hl, hc⟩

/-! ## Records -/

theorem insertAll_append (b : FixedBuffer) (ps qs : List Piece) :
    insertAll b (ps ++ qs) = insertAll b ps >>= fun b => insertAll b qs :=
  List.foldlM_append

theorem record_text {msg : List Byte} (h : Holds i.stream (front env ctor)) (hb : i.basename = basename ctor.file)
    (hl : i.line = ctor.line) (hp : ∀ p ∈ pieces, p.Fits) (hi : i.insert pieces = some i')
    (hr : i'.record = some msg) : RecordOf env ctor pieces msg := by
  obtain ⟨c, hc, hi⟩ := Option.bind_eq_some_iff.1 hi
  cases hi
  obtain ⟨j, hj, hr⟩ := Option.bind_eq_some_iff.1 hr
  cases hr
  obtain ⟨d, hd, hj⟩ := Option.bind_eq_some_iff.1 hj
  cases hj
  have hall : insertAll i.stream (pieces ++ ctor.ending) = some d := by
    rw [insertAll_append, hc, some_bind, Ctor.ending, ← hb, ← hl]
    exact hd
  have hfit : ∀ p ∈ pieces ++ ctor.ending, p.Fits := by
    intro p hm
    rcases List.mem_append.1 hm with hm | hm
    · exact hp p hm
    · simp only [Ctor.ending, List.mem_cons, List.not_mem_nil, or_false] at hm
      rcases hm with rfl | rfl | rfl | rfl | rfl
      all_goals trivial
  obtain ⟨-, -, ⟨kept, hsub, he⟩, hwhole⟩ := insertAll_filled h.wf hfit hall
  refine ⟨⟨kept, hsub, by rw [he, h.content]⟩, fun hroom => ?_⟩
  rw [hwhole (by rw [h.avail]; rw [List.length_append] at hroom; omega), h.content]

theorem pidOutput_written {pid : int.Val} {opens : Bool} {o o' : Output} {msg : List Byte}
    (hx : pidOutput pid opens o msg = some o') : ∃ fd, o'.written = o.written ++ [(fd, msg)] := by
  obtain ⟨_, -, hx⟩ := Option.bind_eq_some_iff.1 hx
  obtain ⟨_, -, hx⟩ := Option.bind_eq_some_iff.1 hx
  obtain ⟨fd, -, hx⟩ := Option.bind_eq_some_iff.1 hx
  cases hx
  exact ⟨fd, rfl⟩

/-- A `Logger`, from its constructor to its destructor. -/
structure Call where
  env : Env
  ctor : Ctor
  pieces : List Piece

def Act.call : Act → Option Call
  | .start _ => none
  | .log env _ ctor pieces => some ⟨env, ctor, pieces⟩

/-- What has been logged, in the order of the run. -/
def calls (tr : List (St × Act)) : List Call := tr.filterMap fun p => p.2.call

theorem calls_start (tr : List (St × Act)) (s : St) (tid : int.Val) : calls (tr ++ [(s, .start tid)]) = calls tr := by
  simp [calls, Act.call]

theorem calls_log (tr : List (St × Act)) (s : St) (env : Env) (opens : Bool) (ctor : Ctor) (pieces : List Piece) :
    calls (tr ++ [(s, .log env opens ctor pieces)]) = calls tr ++ [⟨env, ctor, pieces⟩] := by
  simp [calls, Act.call]

section Runs
variable {s s' : St} {opens : Bool} {tr : List (St × Act)}

theorem update_shows {locals : int.Val → Locals} (hl : ∀ tid, (locals tid).Shows) (h : l.Shows) (tid t : int.Val) :
    (Function.update locals tid l t).Shows := by
  by_cases ht : t = tid
  · rw [ht, Function.update_self]
    exact h
  · rw [Function.update_of_ne ht]
    exact hl t

theorem log_text (hl : ∀ tid, (s.locals tid).Shows) (hu : (Act.log env opens ctor pieces).Usual)
    (hx : s.exec (.log env opens ctor pieces) = some s') :
    (∀ tid, (s'.locals tid).Shows) ∧
      ∃ fd msg, s'.output.written = s.output.written ++ [(fd, msg)] ∧ RecordOf env ctor pieces msg := by
  obtain ⟨⟨l, i⟩, h1, hx⟩ := Option.bind_eq_some_iff.1 hx
  obtain ⟨i', h2, hx⟩ := Option.bind_eq_some_iff.1 hx
  obtain ⟨msg, h3, hx⟩ := Option.bind_eq_some_iff.1 hx
  obtain ⟨o, h4, hx⟩ := Option.bind_eq_some_iff.1 hx
  cases hx
  obtain ⟨hshow, hi⟩ := new_text hu.1 (hl env.tid) h1
  obtain ⟨-, hb, hline⟩ := new_spec h1
  obtain ⟨fd, hw⟩ := pidOutput_written h4
  exact ⟨update_shows hl hshow env.tid, fd, msg, hw, record_text hi hb hline hu.2 h2 h3⟩

theorem run_text (h : Run machine tr s) :
    List.Forall₂ (fun c w => RecordOf c.env c.ctor c.pieces w.2) (calls tr) s.output.written := by
  refine (h.inv_trace (I := fun tr s => (∀ tid, (s.locals tid).Shows) ∧
    List.Forall₂ (fun c w => RecordOf c.env c.ctor c.pieces w.2) (calls tr) s.output.written)
    ⟨fun _ => Locals.new_shows, .nil⟩ ?_).2
  rintro tr u a v - ⟨hl, hw⟩ he hx
  cases a with
  | start tid =>
    cases hx
    exact ⟨update_shows hl Locals.new_shows tid, (calls_start tr u tid).symm ▸ hw⟩
  | log env opens ctor pieces =>
    obtain ⟨hl', fd, msg, hwritten, hmsg⟩ := log_text hl he.2 hx
    rw [calls_log, hwritten]
    exact ⟨hl', List.rel_append hw (.cons hmsg .nil)⟩

/-- Whatever the threads have logged before: each call has put out one record,
which has the time of the call, and behind its front whole pieces of the message
and of the end, and all of them if there is room with 32 bytes to spare. The
names of file and function and the text of `errno` are in it by address. -/
theorem records_text (h : Run machine tr s) :
    List.Forall₂ (fun c w => RecordOf c.env c.ctor c.pieces w.2) (calls tr) s.output.written :=
  run_text h

/-- A thread logs twice in one second, and another one between in another. -/
theorem records_text_cached : ∃ tr s, Run machine tr s ∧
    s.output.written.map Prod.snd = [chars "20231114 22:13:20.000000Z tid:   79 INFO   - 0x1000:7\n",
      chars "19700101 00:00:01.000002Z tid: 4711 WARN  0xFF late - 0x1000:7\n",
      chars "20231114 22:13:20.999999Z tid:   79 ERROR 0x0 (errno= 11) again - 0x1000:7\n"] ∧
    List.Forall₂ (fun c w => RecordOf c.env c.ctor c.pieces w.2) (calls tr) s.output.written := by
  let call (t : int.Val) (now : long.Val) : Env := ⟨t, now, ⟨11, by decide, by decide⟩, ⟨0, by decide, by decide⟩⟩
  let first := call ⟨79, by decide, by decide⟩ ⟨1700000000000000, by decide, by decide⟩
  let other := call ⟨4711, by decide, by decide⟩ ⟨1000002, by decide, by decide⟩
  let again := call ⟨79, by decide, by decide⟩ ⟨1700000000999999, by decide, by decide⟩
  let file : CString := ⟨4096, chars "a.cc", by decide, by decide⟩
  let func : CString := ⟨255, chars "f", by decide, by decide⟩
  let line : int.Val := ⟨7, by decide, by decide⟩
  obtain ⟨r, hr, hw⟩ : ∃ r ∈ machine.play machine.init
      [.start first.tid, .start other.tid, .log first true (.fileLine file line) [],
        .log other true (.func file line .WARN func) [.cstr (chars "late")],
        .log again true (.toAbort file line false) [.cstr (chars "again")]],
      r.2.output.written.map Prod.snd = [chars "20231114 22:13:20.000000Z tid:   79 INFO   - 0x1000:7\n",
        chars "19700101 00:00:01.000002Z tid: 4711 WARN  0xFF late - 0x1000:7\n",
        chars "20231114 22:13:20.999999Z tid:   79 ERROR 0x0 (errno= 11) again - 0x1000:7\n"] := by decide +kernel
  have hrun := Machine.play_steps hr
  exact ⟨r.1, r.2, hrun, hw, records_text hrun⟩

end Runs

end Cppnetool.Logger
