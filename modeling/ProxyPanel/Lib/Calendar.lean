import Mathlib.Tactic.Common

/-!
# Instants and calendar dates

An instant carries the offset it is written in.  A date is its number of days
since 1970-01-01; `civil` and `isoWeek` compute year and month, and ISO year and
week, from that number in the proleptic Gregorian calendar.  Years, months and weeks
have no gaps (`year_of_between` and its companions).
-/

namespace ProxyPanel

/-- An instant (nanoseconds since 1970-01-01 UTC) with an offset in seconds. -/
structure DateTime where
  nanos : Int
  offset : Int
  deriving DecidableEq, Repr, Inhabited

namespace DateTime

/-- Whole seconds since 1970-01-01 UTC. -/
def timestamp (t : DateTime) : Int := t.nanos / 1000000000

/-- The local date. -/
def dateNaive (t : DateTime) : Int := (t.timestamp + t.offset) / 86400

/-- Whether one instant is before another. -/
def before (t u : DateTime) : Bool := t.nanos < u.nanos

def addSeconds (t : DateTime) (secs : Int) : DateTime := ⟨t.nanos + secs * 1000000000, t.offset⟩

end DateTime

namespace Calendar

/-- Year and month of a date. -/
def civil (date : Int) : Int × Int :=
  let z := date + 719468
  let era := z / 146097
  let doe := z - era * 146097
  let yoe := (doe - doe / 1460 + doe / 36524 - doe / 146096) / 365
  let doy := doe - (365 * yoe + yoe / 4 - yoe / 100)
  let mp := (5 * doy + 2) / 153
  let month := if mp < 10 then mp + 3 else mp - 9
  (yoe + era * 400 + (if month ≤ 2 then 1 else 0), month)

def year (date : Int) : Int := (civil date).1
def month (date : Int) : Int := (civil date).2

/-- The first of January of a year. -/
def newYear (y : Int) : Int :=
  let p := y - 1
  365 * p + p / 4 - p / 100 + p / 400 - 719162

/-- ISO year and week: those of the Thursday of the same week. -/
def isoWeek (date : Int) : Int × Int :=
  let thursday := date - (date + 3) % 7 + 3
  (year thursday, (thursday - newYear (year thursday)) / 7 + 1)

/-- The instant of a Unix timestamp, within the years an instant can have. -/
def fromTimestamp (secs : Int) : Option DateTime :=
  if newYear (-262143) * 86400 ≤ secs ∧ secs < newYear 262143 * 86400 then
    some ⟨secs * 1000000000, 0⟩
  else none

/-- The longest duration, in seconds. -/
def maxSeconds : Int := 9223372036854775

/-- A later instant.  A duration that is too long and a sum outside the years an instant can
have give none. -/
def checkedAddSeconds (t : DateTime) (secs : Int) : Option DateTime :=
  let sum := t.addSeconds secs
  if -maxSeconds ≤ secs ∧ secs ≤ maxSeconds ∧
      newYear (-262143) * 86400 ≤ sum.timestamp ∧ sum.timestamp < newYear 262143 * 86400 then
    some sum
  else none

theorem eq_of_checkedAddSeconds {t u : DateTime} {secs : Int}
    (h : checkedAddSeconds t secs = some u) : t.addSeconds secs = u := by
  rw [checkedAddSeconds] at h
  split at h
  · exact Option.some.inj h
  · cases h

example : civil 0 = (1970, 1) ∧ civil 19782 = (2024, 2) := by decide
example : newYear 1970 = 0 ∧ isoWeek 19357 = (2022, 52) := by decide

/-! ### Months since March -/

/-- The year of a day in a 400-year era that begins in March. -/
def yearOfEra (doe : Int) : Int := (doe - doe / 1460 + doe / 36524 - doe / 146096) / 365

/-- The first day of a year of an era. -/
def yearStart (y : Int) : Int := 365 * y + y / 4 - y / 100

theorem yearOfEra_le_succ (d : Int) : yearOfEra d ≤ yearOfEra (d + 1) := by
  have hdays : d - d / 1460 + d / 36524 - d / 146096 ≤
      d + 1 - (d + 1) / 1460 + (d + 1) / 36524 - (d + 1) / 146096 := by omega
  exact Int.ediv_le_ediv (by decide) hdays

theorem yearOfEra_mono {d d' : Int} (h : d ≤ d') : yearOfEra d ≤ yearOfEra d' := by
  obtain ⟨n, rfl⟩ := Int.le.dest h
  clear h
  induction n with
  | zero => exact Int.le_of_eq (congrArg yearOfEra (Int.add_zero d).symm)
  | succ n ih =>
    rw [show d + ((n + 1 : Nat) : Int) = d + n + 1 by omega]
    exact Int.le_trans ih (yearOfEra_le_succ _)

theorem yearOfEra_bounds {doe : Int} (hlo : 0 ≤ doe) (hhi : doe < 146097) :
    0 ≤ yearOfEra doe ∧ yearOfEra doe ≤ 399 := by
  rw [yearOfEra]
  omega

theorem yearOfEra_yearStart : ∀ y < 400,
    yearOfEra (yearStart (y : Nat)) = y ∧ (y = 0 ∨ yearOfEra (yearStart (y : Nat) - 1) < y) := by
  decide +kernel

/-- A day lies in its year. -/
theorem yearStart_le {doe : Int} (hlo : 0 ≤ doe) (hhi : doe < 146097) :
    yearStart (yearOfEra doe) ≤ doe ∧ doe ≤ yearStart (yearOfEra doe) + 365 := by
  obtain ⟨hy0, hy399⟩ := yearOfEra_bounds hlo hhi
  generalize hy : yearOfEra doe = y at hy0 hy399 ⊢
  obtain ⟨n, rfl⟩ := Int.eq_ofNat_of_zero_le hy0
  constructor
  · by_contra hlt
    rcases (yearOfEra_yearStart n (by omega)).2 with rfl | hbefore
    · exact hlt hlo
    · have hle := yearOfEra_mono (show doe ≤ yearStart n - 1 by omega)
      omega
  · by_contra hgt
    by_cases hlast : n = 399
    · subst hlast
      have : yearStart ((399 : Nat) : Int) = 145731 := by decide
      omega
    · have hnext := (yearOfEra_yearStart (n + 1) (by omega)).1
      have hlen : yearStart ((n + 1 : Nat) : Int) ≤ yearStart n + 366 := by
        rw [yearStart, yearStart]
        omega
      have hle := yearOfEra_mono (show yearStart ((n + 1 : Nat) : Int) ≤ doe by omega)
      omega


/-- The months since March of year 0. -/
def marchIndex (date : Int) : Int :=
  let z := date + 719468
  let era := z / 146097
  let doe := z - era * 146097
  let yoe := yearOfEra doe
  12 * (yoe + era * 400) + (5 * (doe - yearStart yoe) + 2) / 153

theorem marchIndex_mono {d d' : Int} (h : d ≤ d') : marchIndex d ≤ marchIndex d' := by
  rw [marchIndex, marchIndex]
  generalize hera : (d + 719468) / 146097 = era
  generalize hera' : (d' + 719468) / 146097 = era'
  have hdoe : 0 ≤ d + 719468 - era * 146097 ∧ d + 719468 - era * 146097 < 146097 := by omega
  have hdoe' : 0 ≤ d' + 719468 - era' * 146097 ∧ d' + 719468 - era' * 146097 < 146097 := by omega
  have hle : era = era' ∧ d + 719468 - era * 146097 ≤ d' + 719468 - era' * 146097 ∨ era < era' := by
    omega
  generalize d + 719468 - era * 146097 = doe at hdoe hle ⊢
  generalize d' + 719468 - era' * 146097 = doe' at hdoe' hle ⊢
  have hyear := yearOfEra_bounds hdoe.1 hdoe.2
  have hyear' := yearOfEra_bounds hdoe'.1 hdoe'.2
  have hday := yearStart_le hdoe.1 hdoe.2
  have hday' := yearStart_le hdoe'.1 hdoe'.2
  rcases hle with ⟨rfl, hle⟩ | hlt
  · have hmono := yearOfEra_mono hle
    rcases Int.lt_or_eq_of_le hmono with hlt | heq
    · omega
    · rw [heq] at hday ⊢
      omega
  · omega

/-- Year and month in terms of the months since March. -/
theorem civil_spec (date : Int) : 12 * (civil date).1 + (civil date).2 = marchIndex date + 3 ∧
    1 ≤ (civil date).2 ∧ (civil date).2 ≤ 12 := by
  have hera : 0 ≤ date + 719468 - (date + 719468) / 146097 * 146097 ∧
      date + 719468 - (date + 719468) / 146097 * 146097 < 146097 := by omega
  obtain ⟨hlo, hhi⟩ := yearStart_le hera.1 hera.2
  rw [marchIndex, civil]
  simp only [yearOfEra, yearStart] at hlo hhi ⊢
  generalize (date + 719468) / 146097 = era at hlo hhi ⊢
  generalize date + 719468 - era * 146097 = doe at hlo hhi ⊢
  generalize (doe - doe / 1460 + doe / 36524 - doe / 146096) / 365 = yoe at hlo hhi ⊢
  have hmonth : 0 ≤ (5 * (doe - (365 * yoe + yoe / 4 - yoe / 100)) + 2) / 153 ∧
      (5 * (doe - (365 * yoe + yoe / 4 - yoe / 100)) + 2) / 153 ≤ 11 := by omega
  generalize (5 * (doe - (365 * yoe + yoe / 4 - yoe / 100)) + 2) / 153 = mp at hmonth ⊢
  by_cases hmp : mp < 10
  · rw [if_pos hmp, if_neg (show ¬ mp + 3 ≤ 2 by omega)]
    omega
  · rw [if_neg hmp, if_pos (show mp - 9 ≤ 2 by omega)]
    omega

/-! ### Periods have no gaps -/

theorem year_mono {d d' : Int} (h : d ≤ d') : year d ≤ year d' := by
  have hmono := marchIndex_mono h
  have hd := civil_spec d
  have hd' := civil_spec d'
  rw [year, year]
  omega

/-- A date between two of a year is of that year. -/
theorem year_of_between {a b d : Int} (ha : a ≤ d) (hb : d ≤ b) (h : year a = year b) :
    year d = year a := by
  have hlo := year_mono ha
  have hhi := year_mono hb
  omega

/-- A date between two of a month is of that month. -/
theorem civil_of_between {a b d : Int} (ha : a ≤ d) (hb : d ≤ b) (h : civil a = civil b) :
    civil d = civil a := by
  have hlo := marchIndex_mono ha
  have hhi := marchIndex_mono hb
  have hspec := civil_spec a
  have hspec' := civil_spec b
  have hd := civil_spec d
  rw [← h] at hspec'
  refine Prod.ext ?_ ?_
  · omega
  · omega

/-- The ISO year and week determine the week. -/
theorem isoWeek_eq_iff {a b : Int} : isoWeek a = isoWeek b ↔ (a + 3) / 7 = (b + 3) / 7 := by
  have hthursday : ∀ d : Int, d - (d + 3) % 7 + 3 = 7 * ((d + 3) / 7) := fun d => by omega
  simp only [isoWeek, hthursday]
  generalize (a + 3) / 7 = p
  generalize (b + 3) / 7 = q
  constructor
  · intro h
    obtain ⟨hyear, hweek⟩ := Prod.mk.inj h
    rw [hyear] at hweek
    omega
  · rintro rfl
    rfl

/-- A date between two of an ISO week is of that week. -/
theorem isoWeek_of_between {a b d : Int} (ha : a ≤ d) (hb : d ≤ b) (h : isoWeek a = isoWeek b) :
    isoWeek d = isoWeek a := by
  rw [isoWeek_eq_iff] at h ⊢
  omega

end Calendar

end ProxyPanel
