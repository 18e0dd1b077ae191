import Cppnetool.Lib.Calendar
import Cppnetool.LogStreamPieces
/-!
# `Logger`

`base/Logging.h` and `base/Logging.cc`, with `pidOutput` as the output
function. An operation is `none` where an assert fails and where memory outside
an array would be read or written. The system gives the thread's id, the time,
`errno`, the address of the text of an error, and whether a file can be opened.

A `const char *` that is streamed, the base name, `func` or the text of an
error, takes the overload for `const void *`; a string literal takes that for
`char *`.
-/
open Lib

namespace Cppnetool.Logger
open LogStream

/-! ## `printf` -/

/-- `"%<width>d"`. -/
def decimal (width : Nat) (v : Int) : List Byte :=
  List.replicate (width - (decimalText v).length) (ch ' ') ++ decimalText v

/-- `"%0<width>d"`. -/
def decimal0 (width : Nat) (v : Int) : List Byte :=
  minus v ++ List.replicate (width - (decimalText v).length) (ch '0') ++ (numeral 10 v.natAbs).map decimalDigit

/-- `sprintf` to the start of an array, for what it prints. -/
def sprintf (mem : List Byte) (text : List Byte) : Option (List Byte) := do
  assert (text.length + 1 ≤ mem.length)
  return overwrite mem 0 (text ++ [0])

/-! ## C strings -/

/-- A C string somewhere in memory, without its NUL. -/
structure CString where
  addr : Nat
  bytes : List Byte
  no_nul : 0 ∉ bytes
  addr_lt : addr + bytes.length < 2 ^ 64

def CString.ptr (s : CString) : uintptr.Val where
  val := s.addr
  min_le := Int.natCast_nonneg s.addr
  le_max := by
    have := s.addr_lt
    show (s.addr : Int) ≤ 2 ^ 64 - 1
    omega

/-- `s + n`. -/
def CString.advance (s : CString) (n : Nat) (h : n ≤ s.bytes.length) : CString where
  addr := s.addr + n
  bytes := s.bytes.drop n
  no_nul hm := s.no_nul (List.mem_of_mem_drop hm)
  addr_lt := by
    have := s.addr_lt
    rw [List.length_drop]
    omega

@[simp] theorem CString.bytes_advance (s : CString) (n : Nat) (h : n ≤ s.bytes.length) :
    (s.advance n h).bytes = s.bytes.drop n := rfl

/-- Where the last `c` is. -/
def strrchr (c : Byte) : List Byte → Option Nat
  | [] => none
  | x :: xs =>
    match strrchr c xs with
    | some i => some (i + 1)
    | none => if x = c then some 0 else none

theorem strrchr_none {c : Byte} {l : List Byte} (h : strrchr c l = none) : c ∉ l := by
  induction l with
  | nil => simp
  | cons x xs ih =>
    rw [strrchr] at h
    split at h
    · cases h
    · rename_i hn
      split at h
      · cases h
      · rename_i hx
        simp [Ne.symm hx, ih hn]

theorem strrchr_some {c : Byte} {l : List Byte} {i : Nat} (h : strrchr c l = some i) :
    ∃ pre post, l = pre ++ c :: post ∧ pre.length = i ∧ c ∉ post := by
  induction l generalizing i with
  | nil => cases h
  | cons x xs ih =>
    rw [strrchr] at h
    split at h
    · rename_i j hj
      cases h
      obtain ⟨pre, post, rfl, rfl, hp⟩ := ih hj
      exact ⟨x :: pre, post, rfl, rfl, hp⟩
    · rename_i hn
      split at h
      · rename_i hx
        cases h
        exact ⟨[], xs, by rw [hx, List.nil_append], rfl, strrchr_none hn⟩
      · cases h

theorem strrchr_lt {c : Byte} {l : List Byte} {i : Nat} (h : strrchr c l = some i) : i < l.length := by
  obtain ⟨pre, post, rfl, rfl, -⟩ := strrchr_some h
  simp

/-- What stands behind the last slash. -/
def basename (fullname : CString) : CString :=
  match h : strrchr (ch '/') fullname.bytes with
  | some i => fullname.advance (i + 1) (strrchr_lt h)
  | none => fullname

/-! ## Pieces -/

/-- `stream << p << …`. -/
def insertAll (stream : FixedBuffer) (pieces : List Piece) : Option FixedBuffer := pieces.foldlM insert stream

section Pieces
variable {b b' : FixedBuffer} {pieces : List Piece}

theorem insertAll_cons (b : FixedBuffer) (p : Piece) (ps : List Piece) :
    insertAll b (p :: ps) = insert b p >>= fun b => insertAll b ps :=
  List.foldlM_cons

theorem insertAll_keeps (h : b.Wf) (hp : ∀ p ∈ pieces, p.Printed) (hx : insertAll b pieces = some b') : b'.Wf := by
  induction pieces generalizing b with
  | nil =>
    cases hx
    exact h
  | cons p ps ih =>
    rw [insertAll_cons] at hx
    obtain ⟨c, hc, hx⟩ := Option.bind_eq_some_iff.1 hx
    exact ih (insert_keeps h (hp p (by simp)) hc).2 (fun q hq => hp q (by simp [hq])) hx

theorem insertAll_fits (pieces : List Piece) (h : b.Wf) (hp : ∀ p ∈ pieces, p.Fits) :
    ∃ b', insertAll b pieces = some b' ∧ b'.Wf := by
  induction pieces generalizing b with
  | nil => exact ⟨b, rfl, h⟩
  | cons p ps ih =>
    obtain ⟨c, hc, hi⟩ := insert_spec h (hp p (by simp))
    rw [insertAll_cons, hc]
    exact ih hi.wf fun q hq => hp q (by simp [hq])

end Pieces

/-! ## The time of a record -/

/-- `struct tm`, with the year and the month as they are printed. -/
structure Tm where
  year : Int
  mon : Int
  mday : Int
  hour : Int
  min : Int
  sec : Int

/-- `gmtime_r`. -/
def gmtime (seconds : Int) : Tm :=
  let date := Lib.date (seconds / 86400)
  let rest := seconds % 86400
  { year := date.year, mon := date.month + 1, mday := date.day + 1,
    hour := rest / 3600, min := rest % 3600 / 60, sec := rest % 60 }

/-- `"%4d%02d%02d %02d:%02d:%02d"`. -/
def timeText (tm : Tm) : List Byte :=
  decimal 4 tm.year ++ decimal0 2 tm.mon ++ decimal0 2 tm.mday ++ chars " " ++
    decimal0 2 tm.hour ++ chars ":" ++ decimal0 2 tm.min ++ chars ":" ++ decimal0 2 tm.sec

/-- `t_time` and `t_lastSecond`. -/
structure Locals where
  time : List Byte
  lastSecond : Int
deriving DecidableEq

/-- Those of a new thread. -/
def Locals.new : Locals := ⟨List.replicate 32 0, 0⟩

/-- `formatTime`, up to the text of the second. -/
def formatSecond (l : Locals) (seconds : Int) : Option Locals :=
  if seconds ≠ l.lastSecond then do
    let (len, time) ← snprintf l.time 0 32 (timeText (gmtime seconds))
    assert (len = 17)
    return ⟨time, seconds⟩
  else some l

def formatTime (l : Locals) (stream : FixedBuffer) (now : long.Val) : Option (Locals × FixedBuffer) := do
  let l ← formatSecond l (now.val.tdiv 1000000)
  let us ← Fmt.new (chars "." ++ decimal0 6 (now.val.tmod 1000000) ++ chars "Z ")
  assert (us.length = 9)
  let time ← T.new l.time 17
  let us ← T.new us.buf 9
  let stream ← insertAll stream [.T time, .T us]
  return (l, stream)

/-! ## `Logger::Impl` -/

inductive LogLevel
  | TRACE
  | DEBUG
  | INFO
  | WARN
  | ERROR
  | FATAL
deriving DecidableEq

def LogLevelName : LogLevel → List Byte
  | .TRACE => chars "TRACE "
  | .DEBUG => chars "DEBUG "
  | .INFO => chars "INFO  "
  | .WARN => chars "WARN  "
  | .ERROR => chars "ERROR "
  | .FATAL => chars "FATAL "

/-- What a thread gets from the system. -/
structure Env where
  tid : int.Val
  now : long.Val
  errno : int.Val
  /-- Where `strerror_tl` has put its text. -/
  strerror : uintptr.Val

structure Impl where
  time : long.Val
  stream : FixedBuffer
  level : LogLevel
  line : int.Val
  fullname : CString
  basename : CString

def Impl.insert (i : Impl) (pieces : List Piece) : Option Impl := do
  let stream ← insertAll i.stream pieces
  return { i with stream }

/-- `Impl::Impl`, the part about an error. -/
def insertErrno (stream : FixedBuffer) (strerror : uintptr.Val) (savedErrno : int.Val) : Option FixedBuffer :=
  if savedErrno.val ≠ 0 then
    insertAll stream [.pointer strerror, .cstr (chars " (errno= "), .int savedErrno, .cstr (chars ") ")]
  else some stream

/-- `Impl::Impl`. -/
def Impl.new (env : Env) (l : Locals) (level : LogLevel) (savedErrno : int.Val) (file : CString) (line : int.Val) :
    Option (Locals × Impl) := do
  let (l, stream) ← formatTime l LogStream.new env.now
  let tid ← Fmt.new (chars "tid:" ++ decimal 5 env.tid.val ++ chars " ")
  assert (tid.length = 10)
  let tid ← T.new tid.buf 10
  let stream ← insertAll stream [.T tid]
  let name ← T.new (LogLevelName level ++ [0]) 6
  let stream ← insertAll stream [.T name]
  let stream ← insertErrno stream env.strerror savedErrno
  return (l, ⟨env.now, stream, level, line, file, Logger.basename file⟩)

def Impl.finish (i : Impl) : Option Impl :=
  i.insert [.cstr (chars " - "), .pointer i.basename.ptr, .char (ch ':'), .int i.line, .char (ch '\n')]

/-! ## `Logger` -/

/-- The arguments of a constructor. -/
inductive Ctor
  | fileLine (file : CString) (line : int.Val)
  | func (file : CString) (line : int.Val) (level : LogLevel) (func : CString)
  | level (file : CString) (line : int.Val) (level : LogLevel)
  | toAbort (file : CString) (line : int.Val) (toAbort : Bool)

def noError : int.Val := ⟨0, by decide, by decide⟩

def Ctor.file : Ctor → CString
  | .fileLine file _ | .func file _ _ _ | .level file _ _ | .toAbort file _ _ => file

def Ctor.line : Ctor → int.Val
  | .fileLine _ line | .func _ line _ _ | .level _ line _ | .toAbort _ line _ => line

/-- `Logger::Logger`. -/
def new (env : Env) (l : Locals) : Ctor → Option (Locals × Impl)
  | .fileLine file line => Impl.new env l .INFO noError file line
  | .func file line level func => do
    let (l, i) ← Impl.new env l level noError file line
    let i ← i.insert [.pointer func.ptr, .char (ch ' ')]
    return (l, i)
  | .level file line level => Impl.new env l level noError file line
  | .toAbort file line toAbort => Impl.new env l (if toAbort then .FATAL else .ERROR) env.errno file line

/-- What `~Logger` hands to the output function. -/
def Impl.record (i : Impl) : Option (List Byte) := do
  let i ← i.finish
  return i.stream.asString

/-! ## `pidOutput` -/

def PIDS : Nat := 20

inductive File
  | stdout
  | named (name : List Byte)
deriving DecidableEq

/-- `file_fd`, and what has been written, in order. -/
structure Output where
  fileFd : List (Option File)
  written : List (File × List Byte)
deriving DecidableEq

def Output.new : Output := ⟨List.replicate PIDS none, []⟩

/-- The file that is opened for a thread, or `stdout` where it cannot be. -/
def openFile (pid : int.Val) (opens : Bool) : Option File := do
  let pids ← sprintf (List.replicate 6 0) (decimalText pid.val)
  let len ← strlen pids
  return if opens then .named (chars "thread_" ++ pids.take len ++ chars "_log.txt") else .stdout

def pidOutput (pid : int.Val) (opens : Bool) (o : Output) (msg : List Byte) : Option Output := do
  let i := pid.val.tmod PIDS
  assert (0 ≤ i)
  let fd ← o.fileFd[i.toNat]?
  let fd ← fd <|> openFile pid opens
  return ⟨o.fileFd.set i.toNat (some fd), o.written ++ [(fd, msg)]⟩

end Cppnetool.Logger
