/-!
Dates of the proleptic Gregorian calendar, times of day to the nanosecond, and the two together.
A leap second is the second 59 with a billion or more nanoseconds.
-/
namespace RelMap

structure Date where
  year : Int
  month : Nat
  day : Nat
  deriving DecidableEq

namespace Date

def isLeapYear (year : Int) : Bool :=
  year % 4 = 0 && (year % 100 ≠ 0 || year % 400 = 0)

def daysInMonth (year : Int) (month : Nat) : Nat :=
  if month = 2 then if isLeapYear year then 29 else 28
  else if month = 4 || month = 6 || month = 9 || month = 11 then 30
  else 31

/-- Whether a year can be held. -/
def holdsYear (year : Int) : Bool := -262143 ≤ year && year ≤ 262142

/-- A date that exists, within the years that can be held. -/
def ofYmd? (year : Int) (month day : Nat) : Option Date :=
  if holdsYear year && 1 ≤ month && month ≤ 12 && 1 ≤ day && day ≤ daysInMonth year month then
    some ⟨year, month, day⟩
  else none

def next (d : Date) : Date :=
  if d.day < daysInMonth d.year d.month then { d with day := d.day + 1 }
  else if d.month < 12 then ⟨d.year, d.month + 1, 1⟩
  else ⟨d.year + 1, 1, 1⟩

def previous (d : Date) : Date :=
  if 1 < d.day then { d with day := d.day - 1 }
  else if 1 < d.month then ⟨d.year, d.month - 1, daysInMonth d.year (d.month - 1)⟩
  else ⟨d.year - 1, 12, 31⟩

/-- Earlier dates come first. -/
def compare (a b : Date) : Ordering :=
  (Ord.compare a.year b.year).then ((Ord.compare a.month b.month).then (Ord.compare a.day b.day))

end Date

structure TimeOfDay where
  hour : Nat
  minute : Nat
  second : Nat
  nanosecond : Nat
  deriving DecidableEq

namespace TimeOfDay

/-- A time that exists; the second 60 is a leap second. -/
def ofHms? (hour minute second nanosecond : Nat) : Option TimeOfDay :=
  if hour < 24 && minute < 60 && nanosecond < 1000000000 then
    if second < 60 then some ⟨hour, minute, second, nanosecond⟩
    else if second = 60 then some ⟨hour, minute, 59, nanosecond + 1000000000⟩
    else none
  else none

/-- Seconds since midnight. -/
def seconds (t : TimeOfDay) : Nat := t.hour * 3600 + t.minute * 60 + t.second

def ofSeconds (seconds nanosecond : Nat) : TimeOfDay :=
  ⟨seconds / 3600, seconds / 60 % 60, seconds % 60, nanosecond⟩

/-- Earlier times come first. -/
def compare (a b : TimeOfDay) : Ordering :=
  (Ord.compare a.hour b.hour).then ((Ord.compare a.minute b.minute).then
    ((Ord.compare a.second b.second).then (Ord.compare a.nanosecond b.nanosecond)))

end TimeOfDay

structure DateTime where
  date : Date
  time : TimeOfDay
  deriving DecidableEq

namespace DateTime

/-- Earlier instants come first. -/
def compare (a b : DateTime) : Ordering :=
  (a.date.compare b.date).then (a.time.compare b.time)

/-- The same instant on a clock that runs `offset` seconds behind, less than a day either way. -/
def behind (t : DateTime) (offset : Int) : DateTime :=
  let seconds : Int := t.time.seconds - offset
  let time (s : Int) := TimeOfDay.ofSeconds s.toNat t.time.nanosecond
  if seconds < 0 then ⟨t.date.previous, time (seconds + 86400)⟩
  else if seconds < 86400 then ⟨t.date, time seconds⟩
  else ⟨t.date.next, time (seconds - 86400)⟩

end DateTime
end RelMap
