import Mathlib.Data.Nat.Notation

/-! # Dates and times without a zone -/

namespace NetBBS

def isLeapYear (year : Nat) : Bool := year % 4 == 0 && (year % 100 != 0 || year % 400 == 0)

def daysInMonth (year month : Nat) : Nat :=
  match month with
  | 2 => if isLeapYear year then 29 else 28
  | 4 | 6 | 9 | 11 => 30
  | _ => 31

/-- What the constructor of `datetime.datetime` checks. -/
def IsDateTime (year month day hour minute second microsecond : Nat) : Prop :=
  (1 ≤ year ∧ year ≤ 9999) ∧ (1 ≤ month ∧ month ≤ 12) ∧ (1 ≤ day ∧ day ≤ daysInMonth year month) ∧
    hour < 24 ∧ minute < 60 ∧ second < 60 ∧ microsecond < 1000000

instance (year month day hour minute second microsecond : Nat) :
    Decidable (IsDateTime year month day hour minute second microsecond) := by
  unfold IsDateTime
  infer_instance

structure DateTime where
  year : Nat
  month : Nat
  day : Nat
  hour : Nat
  minute : Nat
  second : Nat
  microsecond : Nat := 0
  exist : IsDateTime year month day hour minute second microsecond
deriving DecidableEq

namespace DateTime

/-- `datetime.datetime(…)`; `none` where it raises `ValueError`. -/
def make (year month day hour minute second : Nat) : Option DateTime :=
  if exist : IsDateTime year month day hour minute second 0 then
    some { year, month, day, hour, minute, second, exist }
  else none

def toSecond (moment : DateTime) : DateTime where
  year := moment.year
  month := moment.month
  day := moment.day
  hour := moment.hour
  minute := moment.minute
  second := moment.second
  exist := by
    obtain ⟨hyear, hmonth, hday, hhour, hminute, hsecond, -⟩ := moment.exist
    exact ⟨hyear, hmonth, hday, hhour, hminute, hsecond, by decide⟩

theorem make_toSecond (moment : DateTime) :
    make moment.year moment.month moment.day moment.hour moment.minute moment.second =
      some moment.toSecond :=
  dif_pos moment.toSecond.exist

def onDay (moment : DateTime) (year month day : Nat) : Option DateTime :=
  if exist : IsDateTime year month day moment.hour moment.minute moment.second moment.microsecond then
    some { moment with year, month, day, exist }
  else none

def dayBefore (moment : DateTime) : Option DateTime :=
  if 1 < moment.day then moment.onDay moment.year moment.month (moment.day - 1)
  else if 1 < moment.month then
    moment.onDay moment.year (moment.month - 1) (daysInMonth moment.year (moment.month - 1))
  else moment.onDay (moment.year - 1) 12 31

/-- `moment - timedelta(days=days)`; `none` where it raises `OverflowError`. -/
def minusDays (moment : DateTime) : Nat → Option DateTime
  | 0 => some moment
  | days + 1 => moment.dayBefore.bind fun before => minusDays before days

end DateTime

end NetBBS
