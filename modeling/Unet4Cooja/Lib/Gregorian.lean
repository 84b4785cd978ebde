import Mathlib.Algebra.BigOperators.Intervals
import Mathlib.Order.Monotone.Basic

/-!
# The proleptic Gregorian calendar

* `IsLeap`, `yearLength`, `monthLength` : the rule of 4, 100 and 400, and the lengths in days;
* `Date`, `DateTime` : what the calendar has, by construction;
* `Date.number`, `DateTime.seconds` : the days and the seconds since the beginning of the year 0;
* `Date.next`, `DateTime.next` : the next day and the next second; `seconds_next` : the one after;
* `DateTime.ext_seconds` : the seconds determine the date and time;
* `DateTime.after` : the date and time some seconds later.
-/

namespace Lib.Gregorian

/-- Every fourth year, but of the last years of the centuries only every fourth. -/
def IsLeap (year : Nat) : Prop := year % 4 = 0 ∧ (year % 100 = 0 → year % 400 = 0)

instance (year : Nat) : Decidable (IsLeap year) := inferInstanceAs (Decidable (_ ∧ _))

/-- The days of a month from 1 to 12. -/
def monthLength (year month : Nat) : Nat :=
  if month = 2 then if IsLeap year then 29 else 28
  else if month ∈ [4, 6, 9, 11] then 30
  else if 1 ≤ month ∧ month ≤ 12 then 31
  else 0

/-- The days of a year. -/
def yearLength (year : Nat) : Nat := if IsLeap year then 366 else 365

def daysBeforeYear (year : Nat) : Nat := ∑ y ∈ Finset.range year, yearLength y

/-- The days of a year before a month. -/
def daysBeforeMonth (year month : Nat) : Nat := ∑ m ∈ Finset.range month, monthLength year m

/-- A date that the calendar has. -/
@[ext]
structure Date where
  year : Nat
  month : Nat
  day : Nat
  month_pos : 1 ≤ month
  month_le : month ≤ 12
  day_pos : 1 ≤ day
  day_le : day ≤ monthLength year month

/-- A date with a time of the day. -/
@[ext]
structure DateTime extends Date where
  hour : Nat
  min : Nat
  sec : Nat
  hour_lt : hour < 24
  min_lt : min < 60
  sec_lt : sec < 60

/-- The days since the beginning of the year 0. -/
def Date.number (d : Date) : Nat := daysBeforeYear d.year + daysBeforeMonth d.year d.month + (d.day - 1)

/-- The seconds since the beginning of the year 0. -/
def DateTime.seconds (t : DateTime) : Nat := ((t.toDate.number * 24 + t.hour) * 60 + t.min) * 60 + t.sec

/-! ## Lengths -/

theorem monthLength_pos {year month : Nat} (h : 1 ≤ month) (h' : month ≤ 12) : 1 ≤ monthLength year month := by
  unfold monthLength
  split_ifs <;> omega

theorem daysBeforeYear_succ (year : Nat) : daysBeforeYear (year + 1) = daysBeforeYear year + yearLength year :=
  Finset.sum_range_succ _ _

theorem daysBeforeMonth_succ (year month : Nat) :
    daysBeforeMonth year (month + 1) = daysBeforeMonth year month + monthLength year month :=
  Finset.sum_range_succ _ _

theorem daysBeforeMonth_thirteen (year : Nat) : daysBeforeMonth year 13 = yearLength year := by
  unfold daysBeforeMonth yearLength monthLength
  by_cases h : IsLeap year
  · simp only [if_pos h]
    rfl
  · simp only [if_neg h]
    rfl

theorem daysBeforeYear_mono : Monotone daysBeforeYear := by
  apply monotone_nat_of_le_succ
  intro year
  rw [daysBeforeYear_succ]
  exact Nat.le_add_right _ _

theorem daysBeforeMonth_mono (year : Nat) : Monotone (daysBeforeMonth year) := by
  apply monotone_nat_of_le_succ
  intro month
  rw [daysBeforeMonth_succ]
  exact Nat.le_add_right _ _

/-! ## The next day -/

namespace Date
variable (d : Date)

/-- The day after, or the first day of the next month or year. -/
def next : Date :=
  if h : d.day < monthLength d.year d.month then
    { d with day := d.day + 1, day_pos := Nat.succ_pos _, day_le := h }
  else if h : d.month < 12 then
    { year := d.year, month := d.month + 1, day := 1, month_pos := Nat.succ_pos _, month_le := h,
      day_pos := Nat.le_refl 1, day_le := monthLength_pos (Nat.succ_pos _) h }
  else
    { year := d.year + 1, month := 1, day := 1, month_pos := Nat.le_refl 1, month_le := by decide,
      day_pos := Nat.le_refl 1, day_le := monthLength_pos (Nat.le_refl 1) (by decide) }

theorem day_lt_month : daysBeforeMonth d.year d.month + (d.day - 1) < daysBeforeMonth d.year (d.month + 1) := by
  have h := d.day_pos
  have h' := d.day_le
  rw [daysBeforeMonth_succ]
  omega

theorem number_lt : d.number < daysBeforeYear (d.year + 1) := by
  have hmonth := d.day_lt_month
  have hyear := daysBeforeMonth_mono d.year (show d.month + 1 ≤ 13 from Nat.succ_le_succ d.month_le)
  rw [daysBeforeMonth_thirteen] at hyear
  unfold number
  rw [daysBeforeYear_succ]
  omega

theorem daysBeforeYear_le : daysBeforeYear d.year ≤ d.number := by
  unfold number
  omega

theorem number_next : d.next.number = d.number + 1 := by
  have hpos := d.day_pos
  have hle := d.day_le
  have hmonth := d.month_le
  unfold next
  split_ifs with hday hlast
  · unfold number
    dsimp only
    omega
  · -- the last day of a month
    have hend : d.day = monthLength d.year d.month := by omega
    unfold number
    dsimp only
    rw [daysBeforeMonth_succ]
    omega
  · -- the last day of the year
    have hend : d.day = monthLength d.year d.month := by omega
    have hdecember : d.month = 12 := by omega
    have hyear := daysBeforeMonth_thirteen d.year
    rw [daysBeforeMonth_succ, ← hdecember] at hyear
    have hjanuary : daysBeforeMonth (d.year + 1) 1 = 0 := by
      rw [daysBeforeMonth_succ]
      rfl
    unfold number
    dsimp only
    rw [daysBeforeYear_succ, hjanuary]
    omega

end Date

/-! ## The next second -/

theorem place_inj {a a' b c c' : Nat} (hc : c < b) (hc' : c' < b) (h : a * b + c = a' * b + c') : a = a' ∧ c = c' := by
  have hb : 0 < b := Nat.lt_of_le_of_lt (Nat.zero_le c) hc
  have hdiv := congrArg (· / b) h
  have hmod := congrArg (· % b) h
  simp only [Nat.mul_comm _ b, Nat.mul_add_div hb, Nat.div_eq_of_lt hc, Nat.div_eq_of_lt hc', Nat.add_zero] at hdiv
  simp only [Nat.mul_comm _ b, Nat.mul_add_mod, Nat.mod_eq_of_lt hc, Nat.mod_eq_of_lt hc'] at hmod
  exact ⟨hdiv, hmod⟩

namespace DateTime

variable (t : DateTime)

/-- The second after. -/
def next : DateTime :=
  if h : t.sec + 1 < 60 then { t with sec := t.sec + 1, sec_lt := h }
  else if h : t.min + 1 < 60 then { t with min := t.min + 1, min_lt := h, sec := 0, sec_lt := by decide }
  else if h : t.hour + 1 < 24 then
    { t with hour := t.hour + 1, hour_lt := h, min := 0, min_lt := by decide, sec := 0, sec_lt := by decide }
  else
    { toDate := t.toDate.next, hour := 0, hour_lt := by decide, min := 0, min_lt := by decide, sec := 0,
      sec_lt := by decide }

theorem seconds_next : t.next.seconds = t.seconds + 1 := by
  have hhour := t.hour_lt
  have hmin := t.min_lt
  have hsec := t.sec_lt
  unfold next
  split_ifs
  · unfold seconds
    dsimp only
    omega
  · unfold seconds
    dsimp only
    omega
  · unfold seconds
    dsimp only
    omega
  · unfold seconds
    dsimp only
    rw [Date.number_next]
    omega

theorem year_lt_iff {year : Nat} : t.year < year ↔ t.seconds < daysBeforeYear year * 86400 := by
  have hhour := t.hour_lt
  have hmin := t.min_lt
  have hsec := t.sec_lt
  have hle := t.toDate.daysBeforeYear_le
  have hlt := t.toDate.number_lt
  unfold seconds
  constructor
  · intro h
    have hmono := daysBeforeYear_mono (show t.year + 1 ≤ year from h)
    omega
  · intro h
    by_contra hno
    have hmono := daysBeforeYear_mono (show year ≤ t.year from Nat.le_of_not_lt hno)
    omega

/-- The date and time `n` seconds later. -/
def after (n : Nat) : DateTime := next^[n] t

theorem after_succ (n : Nat) : t.after (n + 1) = (t.after n).next := Function.iterate_succ_apply' _ _ _

theorem seconds_after (n : Nat) : (t.after n).seconds = t.seconds + n := by
  induction n with
  | zero => rfl
  | succ n ih => rw [after_succ, seconds_next, ih, Nat.add_assoc]

end DateTime

/-! ## The number determines the date -/

theorem step_inj {f : Nat → Nat} (hf : Monotone f) {a b x : Nat} (ha : f a ≤ x) (ha' : x < f (a + 1)) (hb : f b ≤ x)
    (hb' : x < f (b + 1)) : a = b := by
  rcases Nat.lt_trichotomy a b with h | h | h
  · have := hf (show a + 1 ≤ b from h)
    omega
  · exact h
  · have := hf (show b + 1 ≤ a from h)
    omega

theorem Date.ext_number {d e : Date} (h : d.number = e.number) : d = e := by
  have hyear : d.year = e.year :=
    step_inj daysBeforeYear_mono d.daysBeforeYear_le d.number_lt (h ▸ e.daysBeforeYear_le) (h ▸ e.number_lt)
  have hd := d.day_lt_month
  have he := e.day_lt_month
  have hdpos := d.day_pos
  have hepos := e.day_pos
  unfold Date.number at h
  rw [← hyear] at h he
  have hmonth : d.month = e.month :=
    step_inj (daysBeforeMonth_mono d.year) (x := daysBeforeMonth d.year d.month + (d.day - 1)) (Nat.le_add_right _ _) hd
      (by omega) (by omega)
  rw [← hmonth] at h
  exact Date.ext hyear hmonth (by omega)

theorem DateTime.ext_seconds {t u : DateTime} (h : t.seconds = u.seconds) : t = u := by
  unfold DateTime.seconds at h
  obtain ⟨h, hsec⟩ := place_inj t.sec_lt u.sec_lt h
  obtain ⟨h, hmin⟩ := place_inj t.min_lt u.min_lt h
  obtain ⟨h, hhour⟩ := place_inj t.hour_lt u.hour_lt h
  have hdate := Date.ext_number h
  ext
  · rw [hdate]
  · rw [hdate]
  · rw [hdate]
  · exact hhour
  · exact hmin
  · exact hsec

theorem DateTime.eq_after_iff {t u : DateTime} {n : Nat} : u = t.after n ↔ u.seconds = t.seconds + n := by
  rw [← t.seconds_after n]
  exact ⟨fun h => by rw [h], DateTime.ext_seconds⟩

end Lib.Gregorian
