import Cppnetool.Lib.TextOrder
import Cppnetool.LoggingText
/-!
# The order of records

Every field of the time has its width filled up, so that records compare as
texts first by their times (`records_lt_iff`): the lines of all threads, sorted
as texts, are in the order of time.
-/
open Lib

namespace Cppnetool.Logger
open LogStream

variable {v u m n : Int} {w : Nat}

/-! ## The fields -/

theorem digits_decimalDigit : Digits decimalDigit 10 where
  pos := by decide
  lt := by decide
  eq := by decide

theorem decimalText_nonneg (hv : 0 ≤ v) : decimalText v = (numeral 10 v.toNat).map decimalDigit := by
  have hminus : minus v = [] := if_neg (Int.not_lt.2 hv)
  have habs : v.natAbs = v.toNat := by omega
  rw [decimalText, hminus, habs, List.nil_append]

theorem toNat_lt (hv : 0 ≤ v) (h : v < 10 ^ w) : v.toNat < 10 ^ w := by
  obtain ⟨k, rfl⟩ := Int.eq_ofNat_of_zero_le hv
  rw [Int.toNat_natCast]
  exact_mod_cast h

theorem decimal0_eq (hv : 0 ≤ v) (hw : 0 < w) (h : v < 10 ^ w) : decimal0 w v = fixed decimalDigit 10 w v.toNat := by
  have hminus : minus v = [] := if_neg (Int.not_lt.2 hv)
  have habs : v.natAbs = v.toNat := by omega
  rw [decimal0, hminus, habs, List.nil_append, decimalText_nonneg hv, List.length_map,
    fixed_eq (by decide) hw (toNat_lt hv h)]
  rfl

/-- A year of four digits needs no blanks in front. -/
theorem decimal_year (hv : 1000 ≤ v) (h : v < 10000) : decimal 4 v = fixed decimalDigit 10 4 v.toNat := by
  have h3 := length_decimalText_le_iff (v := v) (k := 3) (by omega) (by decide)
  have hlen : 4 ≤ (decimalText v).length := by omega
  rw [← decimal0_eq (by omega) (by decide) (by omega), decimal, decimal0, Nat.sub_eq_zero_of_le hlen, decimalText]
  simp

theorem compares_toNat (hv : 0 ≤ v) (hu : 0 ≤ u) (h : v < 10 ^ w) (h' : u < 10 ^ w) :
    Compares (fixed decimalDigit 10 w v.toNat) (fixed decimalDigit 10 w u.toNat) (v < u) (v = u) :=
  (compares_fixed digits_decimalDigit (toNat_lt hv h) (toNat_lt hu h')).imp (by omega) (by omega)

theorem compares_decimal0 (hw : 0 < w) (hv : 0 ≤ v) (hu : 0 ≤ u) (h : v < 10 ^ w) (h' : u < 10 ^ w) :
    Compares (decimal0 w v) (decimal0 w u) (v < u) (v = u) := by
  rw [decimal0_eq hv hw h, decimal0_eq hu hw h']
  exact compares_toNat hv hu h h'

/-! ## The time -/

/-- Times with a year of four digits. -/
def InEra (seconds : Int) : Prop := 0 ≤ seconds ∧ seconds < year10000

theorem compares_date (hm : InEra m) (hn : InEra n) :
    Compares (decimal 4 (gmtime m).year ++ decimal0 2 (gmtime m).mon ++ decimal0 2 (gmtime m).mday)
      (decimal 4 (gmtime n).year ++ decimal0 2 (gmtime n).mon ++ decimal0 2 (gmtime n).mday)
      (m / 86400 < n / 86400) (m / 86400 = n / 86400) := by
  have year (s : Int) (h : InEra s) : 1000 ≤ (gmtime s).year ∧ (gmtime s).year < 10000 := by
    refine ⟨?_, year_lt_iff.2 h.2⟩
    have h0 := date_year_lt (s / 86400) 0 (j := 0) (by decide)
    have := h.1
    simp only [gmtime, spans] at h0 ⊢
    omega
  have mon (s : Int) := date_month (s / 86400)
  have mday (s : Int) := date_day (s / 86400)
  have hy : Compares (decimal 4 (gmtime m).year) (decimal 4 (gmtime n).year) ((gmtime m).year < (gmtime n).year)
      ((gmtime m).year = (gmtime n).year) := by
    rw [decimal_year (year m hm).1 (year m hm).2, decimal_year (year n hn).1 (year n hn).2]
    have := year m hm
    have := year n hn
    exact compares_toNat (by omega) (by omega) (by omega) (by omega)
  have hmon := compares_decimal0 (w := 2) (v := (gmtime m).mon) (u := (gmtime n).mon) (by decide)
    (by simp only [gmtime]; omega) (by simp only [gmtime]; omega) (by have := mon m; simp only [gmtime]; omega)
    (by have := mon n; simp only [gmtime]; omega)
  have hmday := compares_decimal0 (w := 2) (v := (gmtime m).mday) (u := (gmtime n).mday) (by decide)
    (by simp only [gmtime]; omega) (by simp only [gmtime]; omega) (by have := mday m; simp only [gmtime]; omega)
    (by have := mday n; simp only [gmtime]; omega)
  have hlt := date_lt_iff (m / 86400) (n / 86400)
  have hgt := date_lt_iff (n / 86400) (m / 86400)
  refine ((hy.append hmon).append hmday).imp ?_ ?_
  · simp only [gmtime] at *
    omega
  · have heq : m / 86400 = n / 86400 → date (m / 86400) = date (n / 86400) := congrArg date
    simp only [gmtime] at *
    constructor
    · omega
    · intro h
      rw [h]
      simp

theorem compares_timeText (hm : InEra m) (hn : InEra n) :
    Compares (timeText (gmtime m)) (timeText (gmtime n)) (m < n) (m = n) := by
  have two {f : Tm → Int} (h : ∀ s, 0 ≤ f (gmtime s) ∧ f (gmtime s) < 100) :
      Compares (decimal0 2 (f (gmtime m))) (decimal0 2 (f (gmtime n))) (f (gmtime m) < f (gmtime n))
        (f (gmtime m) = f (gmtime n)) :=
    compares_decimal0 (by decide) (h m).1 (h n).1 (h m).2 (h n).2
  have hhour := two (f := Tm.hour) fun s => by simp only [gmtime]; omega
  have hmin := two (f := Tm.min) fun s => by simp only [gmtime]; omega
  have hsec := two (f := Tm.sec) fun s => by simp only [gmtime]; omega
  have h := (((((compares_date hm hn).literal (chars " ")).append hhour).literal (chars ":")).append hmin).literal
    (chars ":") |>.append hsec
  refine h.imp ?_ ?_
  · simp only [gmtime]
    omega
  · simp only [gmtime]
    omega

/-- Times compare as texts as they do as numbers. -/
theorem compares_timestamp (hm : InEra (m / 1000000)) (hn : InEra (n / 1000000)) :
    Compares (timestamp m) (timestamp n) (m < n) (m = n) := by
  have hmicro := compares_decimal0 (w := 6) (v := m % 1000000) (u := n % 1000000) (by decide) (by omega) (by omega)
    (by omega) (by omega)
  have hdot : Compares (chars ".") (chars ".") False True :=
    ⟨rfl, iff_of_false (List.lt_irrefl _) id, iff_of_true rfl trivial⟩
  refine ((compares_timeText hm hn).append ((hdot.append hmicro).literal (chars "Z "))).imp ?_ ?_
  · simp only [false_or, true_and]
    omega
  · simp only [true_and]
    omega

theorem length_timestamp (hm : InEra (m / 1000000)) : (timestamp m).length = 26 := by
  have h17 := (length_timeText_iff hm.1).2 hm.2
  have h6 : (decimal0 6 (m % 1000000)).length = 6 := length_decimal0_eq (by omega) (by decide) (by omega)
  simp only [timestamp, List.length_append, h17, h6]
  rfl

/-! ## The records of a run -/

section Runs
variable {s : St} {tr : List (St × Act)} {c c' : Call} {r r' : File × List Byte}

/-- A record is only put out in the years that can be printed. -/
theorem calls_time (h : Run machine tr s) : ∀ c ∈ calls tr, InEra (c.env.now.val / 1000000) := by
  refine (h.inv_trace (I := fun tr s => s.Inv ∧ ∀ c ∈ calls tr, InEra (c.env.now.val / 1000000))
    ⟨init_inv, by simp [calls]⟩ ?_).2
  rintro tr u a v hrun ⟨-, hc⟩ he hx
  have hinv : v.Inv := run_inv (.snoc hrun he hx)
  cases a with
  | start tid => exact ⟨hinv, (calls_start tr u tid).symm ▸ hc⟩
  | log env opens ctor pieces =>
    refine ⟨hinv, fun c hm => ?_⟩
    rw [calls_log, List.mem_append, List.mem_singleton] at hm
    rcases hm with hm | rfl
    · exact hc c hm
    · have hn : env.Narrow := by
        by_contra hn
        cases (log_wide (run_inv hrun) he.2 hn).symm.trans hx
      have := hn.2
      have := he.2.1.now
      unfold InEra
      dsimp only
      omega

/-- Records of any threads compare as texts as their times do, and only within
one microsecond by what stands behind the time. -/
theorem records_lt_iff (h : Run machine tr s) (hr : (c, r) ∈ (calls tr).zip s.output.written)
    (hr' : (c', r') ∈ (calls tr).zip s.output.written) :
    (r.2 < r'.2 ↔ c.env.now.val < c'.env.now.val ∨
      c.env.now.val = c'.env.now.val ∧ r.2.drop 26 < r'.2.drop 26) := by
  have front (c : Call) (r : File × List Byte) (hr : (c, r) ∈ (calls tr).zip s.output.written) :
      InEra (c.env.now.val / 1000000) ∧ r.2 = timestamp c.env.now.val ++ r.2.drop 26 := by
    have hera := calls_time h c (List.of_mem_zip hr).1
    have hrec := (List.forall₂_zip (run_text h)) hr
    obtain ⟨⟨kept, -, he⟩, -⟩ := hrec
    refine ⟨hera, ?_⟩
    rw [he, Logger.front, List.append_assoc, List.append_assoc, List.append_assoc, List.append_assoc,
      List.append_assoc, ← length_timestamp hera, List.drop_left]
  obtain ⟨hera, he⟩ := front c r hr
  obtain ⟨hera', he'⟩ := front c' r' hr'
  have hcmp := compares_timestamp hera hera'
  rw [he, he', append_lt_append_iff hcmp.length, hcmp.lt, hcmp.eq, ← he, ← he']

/-- A record of the last second of a year, and one of the next year with an
earlier date in it. -/
theorem records_lt_iff_new_year : ∃ tr s c c' r r', Run machine tr s ∧ (c, r) ∈ (calls tr).zip s.output.written ∧
    (c', r') ∈ (calls tr).zip s.output.written ∧ r.2 = chars "20001231 23:59:59.999999Z tid: 4711 INFO   - 0x1000:7\n" ∧
    r'.2 = chars "20010101 00:00:00.000000Z tid:   79 INFO   - 0x1000:7\n" ∧ r.2 < r'.2 := by
  let call (t : int.Val) (now : long.Val) : Env := ⟨t, now, noError, ⟨0, by decide, by decide⟩⟩
  let late := call ⟨4711, by decide, by decide⟩ ⟨978307199999999, by decide, by decide⟩
  let early := call ⟨79, by decide, by decide⟩ ⟨978307200000000, by decide, by decide⟩
  let ctor : Ctor := .fileLine ⟨4096, chars "a.cc", by decide, by decide⟩ ⟨7, by decide, by decide⟩
  obtain ⟨p, hp, he⟩ : ∃ p ∈ machine.play machine.init
      [.start early.tid, .log early true ctor [], .start late.tid, .log late true ctor []],
      ((calls p.1).zip p.2.output.written).map (fun q => (q.1.env.now.val, q.2.2)) =
        [(978307200000000, chars "20010101 00:00:00.000000Z tid:   79 INFO   - 0x1000:7\n"),
          (978307199999999, chars "20001231 23:59:59.999999Z tid: 4711 INFO   - 0x1000:7\n")] := by decide +kernel
  have hrun := Machine.play_steps hp
  obtain ⟨⟨c', r'⟩, hr', he'⟩ := List.mem_map.1 (he ▸ List.mem_cons_self)
  obtain ⟨⟨c, r⟩, hr, he⟩ := List.mem_map.1 (he ▸ List.mem_cons_of_mem _ List.mem_cons_self)
  obtain ⟨hnow', htext'⟩ := Prod.mk.inj he'
  obtain ⟨hnow, htext⟩ := Prod.mk.inj he
  exact ⟨p.1, p.2, c, c', r, r', hrun, hr, hr', htext, htext',
    (records_lt_iff hrun hr hr').2 (.inl (by rw [hnow, hnow']; decide))⟩

end Runs

end Cppnetool.Logger
