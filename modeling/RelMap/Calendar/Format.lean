import RelMap.Calendar.Basic
import RelMap.Text.Basic

/-!
The text of dates and times: `2024-01-15`, `10:00:00.500`, and both around a separator. A
fraction is written in as many groups of three digits as it needs.
-/
namespace RelMap

open Text (padded)

/-- Years outside four digits carry their sign. -/
def Date.text (d : Date) : String :=
  let year :=
    if 0 ≤ d.year && d.year ≤ 9999 then padded 4 d.year.toNat
    else (if d.year < 0 then "-" else "+") ++ padded 4 d.year.natAbs
  year ++ "-" ++ padded 2 d.month ++ "-" ++ padded 2 d.day

/-- The decimal point and the nanoseconds; nothing at a whole second. -/
def fractionText (nanosecond : Nat) : String :=
  if nanosecond = 0 then ""
  else if nanosecond % 1000000 = 0 then "." ++ padded 3 (nanosecond / 1000000)
  else if nanosecond % 1000 = 0 then "." ++ padded 6 (nanosecond / 1000)
  else "." ++ padded 9 nanosecond

def TimeOfDay.text (t : TimeOfDay) : String :=
  padded 2 t.hour ++ ":" ++ padded 2 t.minute ++ ":"
    ++ padded 2 (t.second + t.nanosecond / 1000000000)
    ++ fractionText (t.nanosecond % 1000000000)

def DateTime.textWith (separator : String) (t : DateTime) : String :=
  t.date.text ++ separator ++ t.time.text

/-- The form for people, with a blank in the middle. -/
def DateTime.text (t : DateTime) : String := t.textWith " "

/-- The form for documents, with a `T` in the middle. -/
def DateTime.isoText (t : DateTime) : String := t.textWith "T"

end RelMap
