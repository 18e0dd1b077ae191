import Cppnetool.Logging
/-!
# Logging in every thread

The prefix of a record and the array for the name of a file have room for five
digits of a thread's id, and the time for four digits of the year, where `printf`
only has a least width.
-/
open Lib

namespace Cppnetool.Logger
open LogStream

variable {v : Int} {w k n : Nat} {text mem : List Byte} {l : Locals} {b : FixedBuffer}

/-! ## Widths -/

theorem length_decimal : (decimal w v).length = max w (decimalText v).length := by
  rw [decimal, List.length_append, List.length_replicate]
  omega

theorem length_decimal0 : (decimal0 w v).length = max w (decimalText v).length := by
  have h : (decimalText v).length = (minus v).length + ((numeral 10 v.natAbs).map decimalDigit).length :=
    List.length_append
  rw [decimal0, List.length_append, List.length_append, List.length_replicate]
  omega

theorem length_decimalText_le_iff (hv : 0 ≤ v) (hk : 0 < k) : (decimalText v).length ≤ k ↔ v < 10 ^ k := by
  obtain ⟨n, rfl⟩ := Int.eq_ofNat_of_zero_le hv
  rw [decimalText, minus, if_neg (by omega), List.nil_append, List.length_map, length_numeral,
    length_revNumeral_le_iff (by decide) hk, Int.natAbs_natCast]
  norm_cast

theorem decimalText_no_nul : 0 ∉ decimalText v := by
  have hdigit : ∀ d < 10, decimalDigit d ≠ 0 := by decide
  rw [decimalText, List.mem_append]
  rintro (h | h)
  · unfold minus at h
    split at h
    · exact absurd h (by decide)
    · simp at h
  · obtain ⟨d, hd, he⟩ := List.mem_map.1 h
    exact hdigit d (numeral_lt (by decide) hd) he

theorem decimal_no_nul : 0 ∉ decimal w v := by
  rw [decimal, List.mem_append]
  rintro (h | h)
  · exact absurd (List.eq_of_mem_replicate h) (by decide)
  · exact decimalText_no_nul h

theorem decimal0_no_nul : 0 ∉ decimal0 w v := by
  rw [decimal0, List.mem_append, List.mem_append]
  rintro ((h | h) | h)
  · exact decimalText_no_nul (List.mem_append_left _ h)
  · exact absurd (List.eq_of_mem_replicate h) (by decide)
  · exact decimalText_no_nul (List.mem_append_right _ h)

/-- A field that is wide enough is as wide as it should be. -/
theorem length_decimal0_eq (hv : 0 ≤ v) (hk : 0 < w) (h : v < 10 ^ w) : (decimal0 w v).length = w := by
  rw [length_decimal0]
  exact Nat.max_eq_left ((length_decimalText_le_iff hv hk).2 h)

theorem length_timeText (seconds : Int) :
    (timeText (gmtime seconds)).length = 13 + max 4 (decimalText (gmtime seconds).year).length := by
  have hmon := date_month (seconds / 86400)
  have hday := date_day (seconds / 86400)
  have h1 : (decimal0 2 (gmtime seconds).mon).length = 2 :=
    length_decimal0_eq (by simp only [gmtime]; omega) (by decide) (by simp only [gmtime]; omega)
  have h2 : (decimal0 2 (gmtime seconds).mday).length = 2 :=
    length_decimal0_eq (by simp only [gmtime]; omega) (by decide) (by simp only [gmtime]; omega)
  have h3 : (decimal0 2 (gmtime seconds).hour).length = 2 :=
    length_decimal0_eq (by simp only [gmtime]; omega) (by decide) (by simp only [gmtime]; omega)
  have h4 : (decimal0 2 (gmtime seconds).min).length = 2 :=
    length_decimal0_eq (by simp only [gmtime]; omega) (by decide) (by simp only [gmtime]; omega)
  have h5 : (decimal0 2 (gmtime seconds).sec).length = 2 :=
    length_decimal0_eq (by simp only [gmtime]; omega) (by decide) (by simp only [gmtime]; omega)
  have hblank : (chars " ").length = 1 := rfl
  have hcolon : (chars ":").length = 1 := rfl
  simp only [timeText, List.length_append, length_decimal, h1, h2, h3, h4, h5, hblank, hcolon]
  omega

theorem timeText_no_nul (tm : Tm) : 0 ∉ timeText tm := by
  have hblank : 0 ∉ chars " " := by decide
  have hcolon : 0 ∉ chars ":" := by decide
  simp [timeText, decimal_no_nul, decimal0_no_nul, hblank, hcolon]

/-- The first second of the year 10000. -/
def year10000 : Int := 253402300800

theorem year_lt_iff {seconds : Int} : (gmtime seconds).year < 10000 ↔ seconds < year10000 := by
  have h30 : spans yearLength 1970 30 = 10957 := by decide +kernel
  have h := date_year_lt (seconds / 86400) 20 (j := 30) (by decide)
  rw [h30] at h
  simp only [gmtime, year10000]
  omega

theorem year_nonneg {seconds : Int} (hs : 0 ≤ seconds) : 0 ≤ (gmtime seconds).year := by
  have h := date_year_lt (seconds / 86400) 0 (j := 0) (by decide)
  simp only [gmtime, spans] at h ⊢
  omega

/-- The time has the width that is asserted in the years with four digits. -/
theorem length_timeText_iff {seconds : Int} (hs : 0 ≤ seconds) :
    (timeText (gmtime seconds)).length = 17 ↔ seconds < year10000 := by
  rw [length_timeText, ← year_lt_iff, show (10000 : Int) = 10 ^ 4 from rfl,
    ← length_decimalText_le_iff (year_nonneg hs) (by decide)]
  omega

/-! ## Texts with their NUL -/

theorem strlen_append {rest : List Byte} (h : 0 ∉ text) : strlen (text ++ 0 :: rest) = some text.length := by
  induction text with
  | nil => rfl
  | cons c text ih =>
    have hc : c ≠ 0 := fun hc => h (by simp [hc])
    have ih := ih fun hm => h (List.mem_cons_of_mem _ hm)
    unfold strlen at ih ⊢
    rw [List.cons_append, List.findIdx?_cons, ih]
    simp [hc]

theorem strlen_written (h : 0 ∉ text) : strlen (overwrite mem 0 (text ++ [0])) = some text.length := by
  rw [overwrite, List.take_zero, List.nil_append, List.append_assoc, List.singleton_append]
  exact strlen_append h

theorem T_new_eq (h : strlen mem = some n) : ∃ t, T.new mem n = some t ∧ t.len = n := by
  have hlt : n ≤ mem.length := Nat.le_of_lt (List.findIdx?_eq_some_iff_findIdx_eq.1 h).1
  refine ⟨⟨mem.take n, n, List.length_take_of_le hlt⟩, ?_, rfl⟩
  rw [T.new, h, some_bind, dif_pos (List.length_take_of_le hlt)]

/-- A text of the length that is asserted goes through `Fmt` into a `T`. -/
theorem Fmt_T_eq (h0 : 0 ∉ text) (h : text.length = n) (hn : n < 32) : ∃ f t, Fmt.new text = some f ∧
    f.length = n ∧ T.new f.buf n = some t ∧ t.len = n := by
  have hcut : text.take (sizeofFmt - 1) = text := List.take_of_length_le (by rw [h]; exact Nat.le_of_lt_succ hn)
  have hl : (overwrite (List.replicate sizeofFmt (0 : Byte)) 0 (text ++ [0])).length = sizeofFmt := by
    rw [length_overwrite (by simp [sizeofFmt]; omega), List.length_replicate]
  have hs : strlen (overwrite (List.replicate sizeofFmt 0) 0 (text ++ [0])) = some n := h ▸ strlen_written h0
  obtain ⟨t, ht, hlen⟩ := T_new_eq hs
  refine ⟨⟨overwrite (List.replicate sizeofFmt 0) 0 (text ++ [0]), text.length, hl, h ▸ hn⟩, t, ?_, h, ht, hlen⟩
  rw [Fmt.new, snprintf, assert_bind (by decide), hcut]
  dsimp only
  rw [assert_bind (by simp [sizeofFmt]; omega)]
  exact dif_pos ⟨hl, h ▸ hn⟩

theorem Fmt_length {f : Fmt} (h : Fmt.new text = some f) : f.length = text.length := by
  rw [Fmt.new, snprintf, assert_bind (by decide)] at h
  obtain ⟨⟨n, buf⟩, hx, h⟩ := Option.bind_eq_some_iff.1 h
  obtain ⟨_, -, hx⟩ := Option.bind_eq_some_iff.1 hx
  cases hx
  dsimp only at h
  split at h
  · cases h
    rfl
  · cases h

/-! ## One record -/

/-- The text of the last second is there, unless there has been none. -/
structure Locals.Ok (l : Locals) : Prop where
  length : l.time.length = 32
  text : l.lastSecond ≠ 0 → strlen l.time = some 17 ∧ l.lastSecond < year10000

theorem Locals.new_ok : Locals.new.Ok where
  length := List.length_replicate
  text h := absurd rfl h

theorem snprintf_time (seconds : Int) (h : l.Ok) : ∃ time, time.length = 32 ∧
    snprintf l.time 0 32 (timeText (gmtime seconds)) = some ((timeText (gmtime seconds)).length, time) ∧
    ((timeText (gmtime seconds)).length = 17 → strlen time = some 17) := by
  have hle : ((timeText (gmtime seconds)).take (32 - 1) ++ [0]).length ≤ 32 := by simp
  refine ⟨overwrite l.time 0 ((timeText (gmtime seconds)).take (32 - 1) ++ [0]), ?_, ?_, fun h17 => ?_⟩
  · rw [length_overwrite (by rw [h.length]; omega), h.length]
  · rw [snprintf, assert_bind (by decide)]
    dsimp only
    rw [assert_bind (by rw [h.length]; omega)]
    rfl
  · rw [List.take_of_length_le (by omega), strlen_written (timeText_no_nul _), h17]

theorem formatSecond_ok {seconds : Int} (h : l.Ok) (hs : 0 < seconds) (hy : seconds < year10000) :
    ∃ l', formatSecond l seconds = some l' ∧ l'.Ok ∧ strlen l'.time = some 17 := by
  by_cases he : seconds ≠ l.lastSecond
  · obtain ⟨time, hl, hx, ht⟩ := snprintf_time seconds h
    have h17 := (length_timeText_iff (Int.le_of_lt hs)).2 hy
    refine ⟨⟨time, seconds⟩, ?_, ⟨hl, fun _ => ⟨ht h17, hy⟩⟩, ht h17⟩
    rw [formatSecond, if_pos he, hx, some_bind]
    dsimp only
    rw [assert_bind h17]
    rfl
  · have heq : seconds = l.lastSecond := not_not.1 he
    exact ⟨l, if_neg he, h, (h.text (by omega)).1⟩

theorem formatSecond_late {seconds : Int} (h : l.Ok) (hs : 0 < seconds) (hy : ¬ seconds < year10000) :
    formatSecond l seconds = none := by
  have he : seconds ≠ l.lastSecond := by
    intro he
    exact hy (he ▸ (h.text (by omega)).2)
  obtain ⟨time, -, hx, -⟩ := snprintf_time seconds h
  rw [formatSecond, if_pos he, hx, some_bind]
  dsimp only
  rw [assert, if_neg (mt (length_timeText_iff (Int.le_of_lt hs)).1 hy)]
  rfl

section Time
variable {now : long.Val} (hnow : 1000000 ≤ now.val)
include hnow

theorem seconds_eq : now.val.tdiv 1000000 = now.val / 1000000 :=
  Int.tdiv_eq_ediv_of_nonneg (by omega)

theorem formatTime_ok (h : l.Ok) (hw : b.Wf) (hy : now.val < year10000 * 1000000) :
    ∃ l' b', formatTime l b now = some (l', b') ∧ l'.Ok ∧ b'.Wf := by
  have hmicro : now.val.tmod 1000000 = now.val % 1000000 := Int.tmod_eq_emod_of_nonneg (by omega)
  have hdot : 0 ∉ chars "." := by decide
  have hz : 0 ∉ chars "Z " := by decide
  have h9 : (chars "." ++ decimal0 6 (now.val.tmod 1000000) ++ chars "Z ").length = 9 := by
    rw [List.length_append, List.length_append,
      length_decimal0_eq (by omega) (by decide) (by rw [hmicro]; omega)]
    rfl
  obtain ⟨l', hx, hl', ht⟩ := formatSecond_ok h (show 0 < now.val.tdiv 1000000 by rw [seconds_eq hnow]; omega)
    (by rw [seconds_eq hnow]; omega)
  obtain ⟨us, t2, hus, hlen, h2, hl2⟩ := Fmt_T_eq (by simp [hdot, hz, decimal0_no_nul]) h9 (by decide)
  obtain ⟨t1, h1, hl1⟩ := T_new_eq ht
  obtain ⟨b', hb, hw'⟩ := insertAll_fits [.T t1, .T t2] hw (by simp [Piece.Fits, hl1, hl2])
  refine ⟨l', b', ?_, hl', hw'⟩
  rw [formatTime, hx, some_bind, hus, some_bind, assert_bind hlen, h1, some_bind, h2, some_bind, hb]
  rfl

theorem formatTime_late (h : l.Ok) (hy : ¬ now.val < year10000 * 1000000) : formatTime l b now = none := by
  rw [formatTime, formatSecond_late h (by rw [seconds_eq hnow]; omega) (by rw [seconds_eq hnow]; omega)]
  rfl

end Time

/-- A thread's id has at most five digits, and the year four. -/
def Env.Narrow (env : Env) : Prop := env.tid.val ≤ 99999 ∧ env.now.val < year10000 * 1000000

/-- An id that the kernel gives, and a time after the first second. -/
structure Env.Usual (env : Env) : Prop where
  tid : 0 < env.tid.val
  now : 1000000 ≤ env.now.val

instance (env : Env) : Decidable env.Usual := decidable_of_iff (0 < env.tid.val ∧ 1000000 ≤ env.now.val)
  ⟨fun h => ⟨h.1, h.2⟩, fun h => ⟨h.tid, h.now⟩⟩

section Ctor
variable {env : Env} {level : LogLevel} {savedErrno line : int.Val} {file : CString} {ctor : Ctor}

theorem length_tid (ht : 0 < env.tid.val) :
    (chars "tid:" ++ decimal 5 env.tid.val ++ chars " ").length = 10 ↔ env.tid.val ≤ 99999 := by
  have h1 : (chars "tid:").length = 4 := rfl
  have h2 : (chars " ").length = 1 := rfl
  have h5 := length_decimalText_le_iff (v := env.tid.val) (k := 5) (by omega) (by decide)
  rw [List.length_append, List.length_append, length_decimal, h1, h2]
  omega

theorem levelName_eq (level : LogLevel) : ∃ t, T.new (LogLevelName level ++ [0]) 6 = some t ∧ t.len = 6 := by
  cases level <;> exact T_new_eq rfl

theorem insertErrno_ok (hw : b.Wf) (p : uintptr.Val) (e : int.Val) :
    ∃ b', insertErrno b p e = some b' ∧ b'.Wf := by
  unfold insertErrno
  split
  · exact insertAll_fits _ hw (by simp [Piece.Fits]; decide)
  · exact ⟨b, rfl, hw⟩

theorem Impl.new_ok (h : l.Ok) (hu : env.Usual) (hn : env.Narrow) (level : LogLevel) (savedErrno line : int.Val)
    (file : CString) : ∃ l' i, Impl.new env l level savedErrno file line = some (l', i) ∧ l'.Ok ∧ i.stream.Wf := by
  have hno : 0 ∉ chars "tid:" := by decide
  have hblank : 0 ∉ chars " " := by decide
  obtain ⟨l', b1, hx, hl', w1⟩ := formatTime_ok hu.now h new_wf hn.2
  obtain ⟨tid, t, htid, hlen, ht, htl⟩ := Fmt_T_eq (by simp [hno, hblank, decimal_no_nul])
    ((length_tid hu.tid).2 hn.1) (by decide)
  obtain ⟨b2, x2, w2⟩ := insertAll_fits [.T t] w1 (by simp [Piece.Fits, htl])
  obtain ⟨name, hname, hnl⟩ := levelName_eq level
  obtain ⟨b3, x3, w3⟩ := insertAll_fits [.T name] w2 (by simp [Piece.Fits, hnl])
  obtain ⟨b4, x4, w4⟩ := insertErrno_ok w3 env.strerror savedErrno
  refine ⟨l', ⟨env.now, b4, level, line, file, Logger.basename file⟩, ?_, hl', w4⟩
  rw [Impl.new, hx, some_bind]
  dsimp only
  rw [htid, some_bind, assert_bind hlen, ht, some_bind, x2, some_bind, hname, some_bind, x3, some_bind, x4]
  rfl

theorem Impl.new_wide (h : l.Ok) (hu : env.Usual) (hn : ¬ env.Narrow) :
    Impl.new env l level savedErrno file line = none := by
  by_cases hy : env.now.val < year10000 * 1000000
  · obtain ⟨l', b1, hx, -, -⟩ := formatTime_ok hu.now h new_wf hy
    rw [Impl.new, hx, some_bind]
    dsimp only
    cases hf : Fmt.new (chars "tid:" ++ decimal 5 env.tid.val ++ chars " ") with
    | none => rfl
    | some f =>
      have hne : f.length ≠ 10 := by
        rw [Fmt_length hf]
        exact mt (length_tid hu.tid).1 fun ht => hn ⟨ht, hy⟩
      rw [some_bind, assert, if_neg hne]
      rfl
  · rw [Impl.new, formatTime_late hu.now h hy]
    rfl

theorem new_ok (h : l.Ok) (hu : env.Usual) (hn : env.Narrow) (ctor : Ctor) :
    ∃ l' i, new env l ctor = some (l', i) ∧ l'.Ok ∧ i.stream.Wf := by
  cases ctor with
  | fileLine | level | toAbort => exact Impl.new_ok h hu hn ..
  | func file line level func =>
    obtain ⟨l', i, hx, hl', hw⟩ := Impl.new_ok h hu hn level noError line file
    obtain ⟨b', hb, hw'⟩ := insertAll_fits [.pointer func.ptr, .char (ch ' ')] hw (by simp [Piece.Fits])
    refine ⟨l', { i with stream := b' }, ?_, hl', hw'⟩
    rw [new, hx, some_bind]
    dsimp only
    rw [Impl.insert, hb]
    rfl

theorem new_wide (h : l.Ok) (hu : env.Usual) (hn : ¬ env.Narrow) : new env l ctor = none := by
  cases ctor with
  | fileLine | level | toAbort => exact Impl.new_wide h hu hn
  | func =>
    rw [new, Impl.new_wide h hu hn]
    rfl

end Ctor

/-! ## `pidOutput` -/

/-- The array has room for the digits of an id, and for its NUL, exactly if there are five at most. -/
theorem openFile_ne_none_iff {pid : int.Val} (hp : 0 < pid.val) (opens : Bool) :
    openFile pid opens ≠ none ↔ pid.val ≤ 99999 := by
  have h5 := length_decimalText_le_iff (v := pid.val) (k := 5) (by omega) (by decide)
  unfold openFile sprintf
  rw [List.length_replicate]
  by_cases h : pid.val ≤ 99999
  · rw [assert_bind (by omega)]
    show ((strlen _).bind _ ≠ none) ↔ _
    rw [strlen_written decimalText_no_nul]
    simp [h]
  · rw [assert, if_neg (by omega)]
    simp [h]

theorem pidOutput_ok {pid : int.Val} {o : Output} (ho : o.fileFd.length = PIDS) (hp : 0 < pid.val)
    (h : pid.val ≤ 99999) (opens : Bool) (msg : List Byte) :
    ∃ o', pidOutput pid opens o msg = some o' ∧ o'.fileFd.length = PIDS := by
  obtain ⟨f, hf⟩ := Option.ne_none_iff_exists'.1 ((openFile_ne_none_iff hp opens).2 h)
  have hmod : pid.val.tmod (PIDS : Nat) = pid.val % (PIDS : Nat) := Int.tmod_eq_emod_of_nonneg (by omega)
  have hlt : (pid.val.tmod (PIDS : Nat)).toNat < o.fileFd.length := by
    rw [ho, hmod]
    unfold PIDS
    omega
  have hfd : ∃ fd, (o.fileFd[(pid.val.tmod (PIDS : Nat)).toNat] <|> openFile pid opens) = some fd := by
    cases o.fileFd[(pid.val.tmod (PIDS : Nat)).toNat] with
    | none => exact ⟨f, by rw [hf]; rfl⟩
    | some fd => exact ⟨fd, rfl⟩
  obtain ⟨fd, hfd⟩ := hfd
  refine ⟨⟨o.fileFd.set (pid.val.tmod (PIDS : Nat)).toNat (some fd), o.written ++ [(fd, msg)]⟩, ?_, ?_⟩
  · unfold pidOutput
    dsimp only
    rw [assert_bind (by rw [hmod]; unfold PIDS; omega), List.getElem?_eq_getElem hlt, some_bind, hfd]
    rfl
  · rw [List.length_set, ho]

theorem Impl.record_ok {i : Impl} (hw : i.stream.Wf) : ∃ r, i.record = some r := by
  obtain ⟨b', hb, -⟩ := insertAll_fits [.cstr (chars " - "), .pointer i.basename.ptr, .char (ch ':'),
    .int i.line, .char (ch '\n')] hw (by simp [Piece.Fits]; decide)
  exact ⟨b'.asString, by rw [Impl.record, Impl.finish, Impl.insert, hb]; rfl⟩

/-! ## Threads -/

structure St where
  locals : int.Val → Locals
  output : Output
  aborted : Bool

inductive Act
  /-- A thread starts. -/
  | start (tid : int.Val)
  /-- A thread logs, from the constructor to the destructor of a `Logger`. -/
  | log (env : Env) (opens : Bool) (ctor : Ctor) (pieces : List Piece)

def Act.Usual : Act → Prop
  | .start _ => True
  | .log env _ _ pieces => env.Usual ∧ ∀ p ∈ pieces, p.Fits

instance : ∀ a : Act, Decidable a.Usual
  | .start _ => inferInstanceAs (Decidable True)
  | .log _ _ _ _ => inferInstanceAs (Decidable (_ ∧ _))

def St.exec (s : St) : Act → Option St
  | .start tid => some { s with locals := Function.update s.locals tid .new }
  | .log env opens ctor pieces => do
    let (l, i) ← new env (s.locals env.tid) ctor
    let i ← i.insert pieces
    let msg ← i.record
    let output ← pidOutput env.tid opens s.output msg
    return ⟨Function.update s.locals env.tid l, output, i.level = .FATAL⟩

def machine : Machine St Act where
  init := ⟨fun _ => .new, .new, false⟩
  enabled s a := ¬ s.aborted ∧ a.Usual
  exec := St.exec

instance (s : St) (a : Act) : Decidable (machine.enabled s a) := inferInstanceAs (Decidable (_ ∧ _))

theorem machine_exec (s : St) (a : Act) : machine.exec s a = s.exec a := rfl

structure St.Inv (s : St) : Prop where
  locals : ∀ tid, (s.locals tid).Ok
  fileFd : s.output.fileFd.length = PIDS

section Runs
variable {s s' : St} {env : Env} {opens : Bool} {ctor : Ctor} {pieces : List Piece} {tr : List (St × Act)}

theorem init_inv : machine.init.Inv where
  locals _ := Locals.new_ok
  fileFd := List.length_replicate

theorem update_ok (h : s.Inv) {tid : int.Val} (hl : l.Ok) (t : int.Val) : (Function.update s.locals tid l t).Ok := by
  by_cases ht : t = tid
  · rw [ht, Function.update_self]
    exact hl
  · rw [Function.update_of_ne ht]
    exact h.locals t

theorem log_narrow (h : s.Inv) (hu : (Act.log env opens ctor pieces).Usual) (hn : env.Narrow) :
    ∃ s', s.exec (.log env opens ctor pieces) = some s' ∧ s'.Inv := by
  obtain ⟨l, i, hx, hl, hw⟩ := new_ok (h.locals env.tid) hu.1 hn ctor
  obtain ⟨b', hb, hw'⟩ := insertAll_fits _ hw hu.2
  obtain ⟨r, hr⟩ := Impl.record_ok (i := { i with stream := b' }) hw'
  obtain ⟨o, ho, hlen⟩ := pidOutput_ok h.fileFd hu.1.tid hn.1 opens r
  refine ⟨⟨Function.update s.locals env.tid l, o, i.level = .FATAL⟩, ?_, update_ok h hl, hlen⟩
  rw [St.exec, hx, some_bind]
  dsimp only
  rw [Impl.insert, hb, some_bind]
  show (Impl.record { i with stream := b' }).bind _ = _
  rw [hr, Option.bind_some, ho]
  rfl

theorem log_wide (h : s.Inv) (hu : (Act.log env opens ctor pieces).Usual) (hn : ¬ env.Narrow) :
    s.exec (.log env opens ctor pieces) = none := by
  rw [St.exec, new_wide (h.locals env.tid) hu.1 hn]
  rfl

theorem run_inv (h : Run machine tr s) : s.Inv := by
  refine h.inv St.Inv init_inv fun s a s' hi he hx => ?_
  cases a with
  | start tid =>
    cases hx
    exact ⟨update_ok hi Locals.new_ok, hi.fileFd⟩
  | log env opens ctor pieces =>
    by_cases hn : env.Narrow
    · obtain ⟨s'', hx', hi'⟩ := log_narrow hi he.2 hn
      rw [machine_exec, hx'] at hx
      cases hx
      exact hi'
    · rw [machine_exec, log_wide hi he.2 hn] at hx
      cases hx

/-- Whatever all threads have logged before: a record is made and written
without a failure exactly if the thread's id has at most five digits and the year
has four; and by itself the array for the name of the file holds exactly these ids. -/
theorem log_safe_iff (h : Run machine tr s) (he : machine.enabled s (.log env opens ctor pieces)) :
    (machine.exec s (.log env opens ctor pieces) ≠ none ↔
      env.tid.val ≤ 99999 ∧ env.now.val < year10000 * 1000000) ∧
    (openFile env.tid opens ≠ none ↔ env.tid.val ≤ 99999) := by
  have hi := run_inv h
  refine ⟨?_, openFile_ne_none_iff he.2.1.tid opens⟩
  by_cases hn : env.Narrow
  · obtain ⟨s', hx, -⟩ := log_narrow hi he.2 hn
    rw [machine_exec, hx]
    exact iff_of_true (Option.some_ne_none s') hn
  · rw [machine_exec, log_wide hi he.2 hn]
    exact iff_of_false (fun h => h rfl) hn

/-- Two threads whose ids have a place in common, the widest id among them. -/
theorem log_safe_iff_widest : ∃ (tr : List (St × Act)) (s : St) (env : Env) (ctor : Ctor), Run machine tr s ∧
    s.output.written.map Prod.fst = [.named (chars "thread_79_log.txt"), .named (chars "thread_79_log.txt")] ∧
    env.tid.val = 99999 ∧ machine.exec s (.log env true ctor []) ≠ none := by
  let call (t : int.Val) (now : long.Val) : Env := ⟨t, now, noError, ⟨0, by decide, by decide⟩⟩
  let first := call ⟨79, by decide, by decide⟩ ⟨1000000, by decide, by decide⟩
  let again := call ⟨79, by decide, by decide⟩ ⟨1999999, by decide, by decide⟩
  let widest := call ⟨99999, by decide, by decide⟩ ⟨1000000, by decide, by decide⟩
  let ctor : Ctor := .fileLine ⟨4096, chars "a.cc", by decide, by decide⟩ ⟨7, by decide, by decide⟩
  obtain ⟨r, hr, hw, he⟩ : ∃ r ∈ machine.play machine.init
      [.start first.tid, .log first true ctor [], .log again true ctor [.cstr (chars "again")], .start widest.tid],
      r.2.output.written.map Prod.fst = [.named (chars "thread_79_log.txt"), .named (chars "thread_79_log.txt")] ∧
      machine.enabled r.2 (.log widest true ctor []) := by decide +kernel
  have hrun := Machine.play_steps hr
  exact ⟨r.1, r.2, widest, ctor, hrun, hw, rfl, (log_safe_iff hrun he).1.2 (by decide)⟩

/-- A thread's id of six digits, and the first second of the year 10000. -/
theorem log_unsafe : ∃ (wide late : Env) (ctor : Ctor), wide.tid.val = 100000 ∧ late.tid.val = 4711 ∧
    late.now.val = year10000 * 1000000 ∧
    machine.enabled machine.init (.log wide true ctor []) ∧ machine.exec machine.init (.log wide true ctor []) = none ∧
    openFile wide.tid true = none ∧
    machine.enabled machine.init (.log late true ctor []) ∧ machine.exec machine.init (.log late true ctor []) = none :=
  ⟨⟨⟨100000, by decide, by decide⟩, ⟨1700000000000000, by decide, by decide⟩, noError, ⟨0, by decide, by decide⟩⟩,
    ⟨⟨4711, by decide, by decide⟩, ⟨253402300800000000, by decide, by decide⟩, noError, ⟨0, by decide, by decide⟩⟩,
    .fileLine ⟨4096, chars "a.cc", by decide, by decide⟩ ⟨7, by decide, by decide⟩, rfl, rfl, rfl, by decide +kernel⟩

end Runs

end Cppnetool.Logger
