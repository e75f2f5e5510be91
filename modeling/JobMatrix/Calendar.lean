set_option autoImplicit false

/-!
Dates of the proleptic Gregorian calendar, times of day, and points in time with an optional
offset from universal time.
-/

namespace JobMatrix

structure Date where
  year : Nat
  month : Nat
  day : Nat
  deriving DecidableEq, Repr

/-- A date with a time of day; `offset` is in seconds east of universal time. -/
structure Timestamp where
  date : Date
  hour : Nat
  minute : Nat
  second : Nat
  microsecond : Nat
  offset : Option Int
  deriving DecidableEq, Repr

/-- What is out of range in a date or a time. -/
inductive CalendarFault where
  | year (year : Nat)
  | month
  | day
  | hour
  | minute
  | second
  | offset (seconds : Int)
  deriving DecidableEq, Repr

namespace Date

def isLeap (year : Nat) : Bool :=
  year % 4 == 0 && (year % 100 != 0 || year % 400 == 0)

def daysInMonth (year month : Nat) : Nat :=
  if month = 2 then (if isLeap year then 29 else 28)
  else if [4, 6, 9, 11].contains month then 30
  else 31

/-- A date of the years 1 to 9999. -/
def make (year month day : Nat) : Except CalendarFault Date :=
  if year < 1 || 9999 < year then .error (.year year)
  else if month < 1 || 12 < month then .error .month
  else if day < 1 || daysInMonth year month < day then .error .day
  else .ok ⟨year, month, day⟩

/-- The number of days before the date, counted from the first day of the year 1. -/
def dayNumber (d : Date) : Nat :=
  let years := d.year - 1
  let months := (List.range (d.month - 1)).foldl (fun n k => n + daysInMonth d.year (k + 1)) 0
  years * 365 + years / 4 - years / 100 + years / 400 + months + (d.day - 1)

end Date

/-- A number with at least `width` digits. -/
def padded (width n : Nat) : String :=
  let digits := toString n
  String.ofList (List.replicate (width - digits.length) '0') ++ digits

def Date.text (d : Date) : String :=
  padded 4 d.year ++ "-" ++ padded 2 d.month ++ "-" ++ padded 2 d.day

namespace Timestamp

def daySeconds : Int := 86400

/-- An offset is less than a day. -/
def checkOffset (seconds : Int) : Except CalendarFault Int :=
  if seconds.natAbs < 86400 then .ok seconds else .error (.offset seconds)

def make (year month day hour minute second microsecond : Nat) (offset : Option Int) :
    Except CalendarFault Timestamp := do
  let offset ← offset.mapM checkOffset
  let date ← Date.make year month day
  if 23 < hour then .error .hour
  else if 59 < minute then .error .minute
  else if 59 < second then .error .second
  else .ok ⟨date, hour, minute, second, microsecond, offset⟩

def offsetText (seconds : Int) : String :=
  let minutes := seconds.natAbs / 60
  (if seconds < 0 then "-" else "+") ++ padded 2 (minutes / 60) ++ ":" ++ padded 2 (minutes % 60)

def text (t : Timestamp) : String :=
  t.date.text ++ " " ++ padded 2 t.hour ++ ":" ++ padded 2 t.minute ++ ":" ++ padded 2 t.second
    ++ (if t.microsecond = 0 then "" else "." ++ padded 6 t.microsecond)
    ++ (t.offset.map offsetText).getD ""

/-- Microseconds from the first day of the year 1, by the clock of universal time when the offset
is known and by the local clock otherwise. -/
def instant (t : Timestamp) : Int :=
  (((t.date.dayNumber : Int) * daySeconds + t.hour * 3600 + t.minute * 60 + t.second
    - t.offset.getD 0) * 1000000) + t.microsecond

/-- Two points in time are equal when both or neither have an offset and they are the same
instant. -/
def equal (t u : Timestamp) : Bool :=
  t.offset.isSome == u.offset.isSome && t.instant == u.instant

end Timestamp

end JobMatrix
