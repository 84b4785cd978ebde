import Mathlib.Tactic.IntervalCases
import Unet4Cooja.Lib.Gregorian
import Unet4Cooja.Packet

/-!
# The calendar (`OSTime.c`)

* `OsRtc`, `CalendarSys` : `OSRtc`, with `LeapMonth`;
* `osUpdateCalendar` : the function;
* `ShowsTime` : the fields show a date and time of the proleptic Gregorian calendar;
* `ShowsTime.update` : one call shows the next second; `calendar_of_iterate` : `n` calls show the `n`-th second after.
-/

namespace Unet4Cooja
open Lib.Gregorian

structure OsRtc where
  year : U16
  month : U8
  day : U8
  hour : U8
  min : U8
  sec : U8
  deriving DecidableEq

/-- `OSRtc` and `LeapMonth`. -/
structure CalendarSys extends OsRtc where
  leapMonth : U8
  deriving DecidableEq

/-- `MonthLength`. -/
def monthLengthTable : List U8 := [0, 31, 28, 31, 30, 31, 30, 31, 31, 30, 31, 30, 31]

namespace CalendarSys
variable (s : CalendarSys)

def leapMonthOf : U8 :=
  if s.month = 2 then
    if s.year &&& 0x0003 = 0 then
      if s.year % 100 = 0 then
        if s.year % 400 = 0 then 1 else 0
      else 1
    else 0
  else 0

def checkMonth : CalendarSys :=
  let s := { s with leapMonth := s.leapMonthOf }
  if (monthLengthTable.getD s.month.toNat 0).toNat + s.leapMonth.toNat < s.day.toNat then
    let s := { s with day := 1, month := s.month + 1 }
    if 12 < s.month then { s with month := 1, year := s.year + 1 } else s
  else s

def osUpdateCalendar : CalendarSys :=
  let s := { s with sec := s.sec + 1 }
  if s.sec = 60 then
    let s := { s with sec := 0, min := s.min + 1 }
    if 59 < s.min then
      let s := { s with min := 0, hour := s.hour + 1 }
      if 23 < s.hour then { s with hour := 0, day := s.day + 1 }.checkMonth else s
    else s
  else s

end CalendarSys

structure ShowsDate (s : OsRtc) (d : Date) : Prop where
  year : s.year.toNat = d.year
  month : s.month.toNat = d.month
  day : s.day.toNat = d.day

/-- The fields show the date and time `t`. -/
structure ShowsTime (s : OsRtc) (t : DateTime) : Prop extends ShowsDate s t.toDate where
  hour : s.hour.toNat = t.hour
  min : s.min.toNat = t.min
  sec : s.sec.toNat = t.sec

section
variable {s : CalendarSys} {d : Date} {t : DateTime}

/-! ## The next day -/

theorem and_three_eq_zero (y : U16) : y &&& 0x0003 = 0 ↔ y.toNat % 4 = 0 := by
  rw [← BitVec.toNat_inj, BitVec.toNat_and]
  show y.toNat &&& (2 ^ 2 - 1) = 0 ↔ _
  rw [Nat.and_two_pow_sub_one_eq_mod]

theorem umod_eq_zero (y k : U16) : y % k = 0 ↔ y.toNat % k.toNat = 0 := by
  rw [← BitVec.toNat_inj, BitVec.toNat_umod]
  rfl

theorem leapMonthOf_eq (s : CalendarSys) :
    s.leapMonthOf = if s.month.toNat = 2 ∧ IsLeap s.year.toNat then 1 else 0 := by
  have hmonth : s.month = 2 ↔ s.month.toNat = 2 := BitVec.toNat_inj.symm
  have hcentury : s.year % 100 = 0 ↔ s.year.toNat % 100 = 0 := umod_eq_zero s.year 100
  have hfourth : s.year % 400 = 0 ↔ s.year.toNat % 400 = 0 := umod_eq_zero s.year 400
  unfold CalendarSys.leapMonthOf
  simp only [hmonth, and_three_eq_zero, hcentury, hfourth, IsLeap]
  by_cases h : s.month.toNat = 2 <;> by_cases h4 : s.year.toNat % 4 = 0 <;>
    by_cases h100 : s.year.toNat % 100 = 0 <;> simp [h, h4, h100]

theorem monthLength_eq (h : 1 ≤ s.month.toNat) (h' : s.month.toNat ≤ 12) :
    (monthLengthTable.getD s.month.toNat 0).toNat + s.leapMonthOf.toNat = monthLength s.year.toNat s.month.toNat := by
  rw [leapMonthOf_eq]
  unfold monthLength
  generalize s.month.toNat = m at h h'
  by_cases hl : IsLeap s.year.toNat
  · simp only [hl, and_true, if_true]
    interval_cases m <;> rfl
  · simp only [hl, and_false, if_false]
    interval_cases m <;> rfl

theorem checkMonth_time (s : CalendarSys) :
    s.checkMonth.hour = s.hour ∧ s.checkMonth.min = s.min ∧ s.checkMonth.sec = s.sec := by
  unfold CalendarSys.checkMonth
  dsimp only
  split_ifs <;> exact ⟨rfl, rfl, rfl⟩

theorem showsDate_checkMonth (hyear : s.year.toNat = d.year) (hmonth : s.month.toNat = d.month)
    (hday : s.day.toNat = d.day + 1) (hlimit : d.year < 65535) : ShowsDate s.checkMonth.toOsRtc d.next := by
  have hpos := d.month_pos
  have hle := d.month_le
  have hlength := monthLength_eq (s := s) (by omega) (by omega)
  rw [hyear, hmonth] at hlength
  have hend : (monthLengthTable.getD s.month.toNat 0).toNat + s.leapMonthOf.toNat < s.day.toNat ↔
      ¬ d.day < monthLength d.year d.month := by
    rw [hmonth, hlength, hday]
    omega
  have hdecember : 12 < s.month + 1 ↔ ¬ d.month < 12 := by
    rw [BitVec.lt_def, BitVec.toNat_add, hmonth]
    show 12 < (d.month + 1) % 256 ↔ _
    omega
  unfold CalendarSys.checkMonth Date.next
  dsimp only
  by_cases h : d.day < monthLength d.year d.month
  · rw [if_neg (not_not_intro h ∘ hend.mp), dif_pos h]
    exact ⟨hyear, hmonth, hday⟩
  · rw [if_pos (hend.mpr h), dif_neg h]
    by_cases hlast : d.month < 12
    · rw [if_neg (not_not_intro hlast ∘ hdecember.mp), dif_pos hlast]
      refine ⟨hyear, ?_, rfl⟩
      show (s.month + 1).toNat = d.month + 1
      rw [BitVec.toNat_add, hmonth]
      show (d.month + 1) % 256 = _
      omega
    · rw [if_pos (hdecember.mpr hlast), dif_neg hlast]
      refine ⟨?_, rfl, rfl⟩
      show (s.year + 1).toNat = d.year + 1
      rw [BitVec.toNat_add, hyear]
      show (d.year + 1) % 65536 = _
      omega

/-! ## The next second -/

theorem monthLength_le (year month : Nat) : monthLength year month ≤ 31 := by
  unfold monthLength
  split_ifs <;> omega

theorem toNat_succ {x : U8} {n k : Nat} (h : x.toNat = n) (hn : n < k) (hk : k ≤ 255) : (x + 1).toNat = n + 1 := by
  rw [BitVec.toNat_add, h]
  show (n + 1) % 256 = _
  omega

theorem ShowsTime.update (h : ShowsTime s.toOsRtc t) (hlimit : t.year < 65535) :
    ShowsTime s.osUpdateCalendar.toOsRtc t.next := by
  have hsec := toNat_succ h.sec t.sec_lt (by decide)
  have hmin := toNat_succ h.min t.min_lt (by decide)
  have hhour := toNat_succ h.hour t.hour_lt (by decide)
  have hday : (s.day + 1).toNat = t.day + 1 :=
    toNat_succ (k := 32) h.day (Nat.lt_succ_of_le (t.day_le.trans (monthLength_le _ _))) (by decide)
  have hminute : s.sec + 1 = 60 ↔ ¬ t.sec + 1 < 60 := by
    have := t.sec_lt
    rw [← BitVec.toNat_inj, hsec]
    show t.sec + 1 = 60 ↔ _
    omega
  have hfull : 59 < s.min + 1 ↔ ¬ t.min + 1 < 60 := by
    rw [BitVec.lt_def, hmin]
    show 59 < t.min + 1 ↔ _
    omega
  have hmidnight : 23 < s.hour + 1 ↔ ¬ t.hour + 1 < 24 := by
    rw [BitVec.lt_def, hhour]
    show 23 < t.hour + 1 ↔ _
    omega
  unfold CalendarSys.osUpdateCalendar DateTime.next
  dsimp only
  by_cases h1 : t.sec + 1 < 60
  · rw [if_neg (not_not_intro h1 ∘ hminute.mp), dif_pos h1]
    exact { h with sec := hsec }
  · rw [if_pos (hminute.mpr h1), dif_neg h1]
    by_cases h2 : t.min + 1 < 60
    · rw [if_neg (not_not_intro h2 ∘ hfull.mp), dif_pos h2]
      exact { h with min := hmin, sec := rfl }
    · rw [if_pos (hfull.mpr h2), dif_neg h2]
      by_cases h3 : t.hour + 1 < 24
      · rw [if_neg (not_not_intro h3 ∘ hmidnight.mp), dif_pos h3]
        exact { h with hour := hhour, min := rfl, sec := rfl }
      · rw [if_pos (hmidnight.mpr h3), dif_neg h3]
        obtain ⟨hh, hm, hs⟩ := checkMonth_time
          { s with sec := 0, min := 0, hour := 0, day := s.day + 1 }
        refine ⟨showsDate_checkMonth h.year h.month hday hlimit, ?_, ?_, ?_⟩
        · rw [hh]
          rfl
        · rw [hm]
          rfl
        · rw [hs]
          rfl

/-! ## Any number of seconds -/

/-- After each of `n` calls the calendar shows the date and time that many seconds later, and no other date and time
is that many seconds later. -/
theorem calendar_of_iterate (s : CalendarSys) (t : DateTime) (h : ShowsTime s.toOsRtc t) (n : Nat)
    (hlimit : (t.after n).year < 65535) :
    ∀ k ≤ n, ∃ u, ShowsTime (CalendarSys.osUpdateCalendar^[k] s).toOsRtc u ∧
      ∀ v : DateTime, v.seconds = t.seconds + k ↔ v = u := by
  intro k hk
  rw [DateTime.year_lt_iff, DateTime.seconds_after] at hlimit
  refine ⟨t.after k, ?_, fun v => DateTime.eq_after_iff.symm⟩
  induction k with
  | zero => exact h
  | succ k ih =>
    have hyear : (t.after k).year < 65535 := by
      rw [DateTime.year_lt_iff, DateTime.seconds_after]
      omega
    rw [Function.iterate_succ_apply', DateTime.after_succ]
    exact (ih (by omega)).update hyear

end

/-- One second before the end of a day in February of a leap year. -/
def beforeLeapDay : DateTime where
  year := 2000
  month := 2
  day := 28
  month_pos := by decide
  month_le := by decide
  day_pos := by decide
  day_le := by decide
  hour := 23
  min := 59
  sec := 59
  hour_lt := by decide
  min_lt := by decide
  sec_lt := by decide

theorem calendar_of_iterate_beforeLeapDay :
    (CalendarSys.osUpdateCalendar ⟨⟨2000, 2, 28, 23, 59, 59⟩, 0⟩).toOsRtc = ⟨2000, 2, 29, 0, 0, 0⟩ ∧
      ∀ k ≤ 1, ∃ u, ShowsTime (CalendarSys.osUpdateCalendar^[k] ⟨⟨2000, 2, 28, 23, 59, 59⟩, 0⟩).toOsRtc u ∧
        ∀ v : DateTime, v.seconds = beforeLeapDay.seconds + k ↔ v = u :=
  ⟨by decide, calendar_of_iterate ⟨⟨2000, 2, 28, 23, 59, 59⟩, 0⟩ beforeLeapDay ⟨⟨rfl, rfl, rfl⟩, rfl, rfl, rfl⟩ 1
    (by decide)⟩

end Unet4Cooja
