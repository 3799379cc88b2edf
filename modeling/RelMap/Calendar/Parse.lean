import RelMap.Calendar.Basic
import RelMap.Text.Basic

/-!
Reading dates and times. Numbers may be shorter than their written form and blanks may stand
around the separators; a fraction is cut after nine digits. Each reader returns the rest of the
text, and a whole text is read when nothing is left.
-/
namespace RelMap.Calendar

/-- A reader of some part at the start of a text. -/
abbrev Reader (α : Type) := List Char → Option (α × List Char)

def skipBlank (text : List Char) : List Char := text.dropWhile Text.isBlank

def digitsValue (digits : List Char) : Nat :=
  digits.foldl (fun n c => 10 * n + (c.toNat - '0'.toNat)) 0

/-- At most `width` digits, and at least one. -/
def digits (width : Nat) : Reader (List Char) := fun text =>
  match (text.take width).takeWhile Char.isDigit with
  | [] => none
  | found => some (found, text.drop found.length)

/-- A number of at most `width` digits, after blanks. -/
def number (width : Nat) : Reader Nat := fun text =>
  (digits width (skipBlank text)).map fun (found, rest) => (digitsValue found, rest)

/-- A year of up to four digits, or of any length after a sign. -/
def year : Reader Int := fun text =>
  match skipBlank text with
  | '-' :: rest => (digits rest.length rest).map fun (found, rest) => (-digitsValue found, rest)
  | '+' :: rest => (digits rest.length rest).map fun (found, rest) => (digitsValue found, rest)
  | text => (digits 4 text).map fun (found, rest) => (digitsValue found, rest)

/-- The character `c`, after blanks. -/
def separator (c : Char) : Reader Unit := fun text =>
  match skipBlank text with
  | d :: rest => if d = c then some ((), rest) else none
  | [] => none

/-- Year, month and day, not yet checked against the calendar. -/
def ymd : Reader (Int × Nat × Nat) := fun text => do
  let (year, text) ← year text
  let (_, text) ← separator '-' text
  let (month, text) ← number 2 text
  let (_, text) ← separator '-' text
  let (day, text) ← number 2 text
  return ((year, month, day), text)

/-- An optional fraction of a second, in nanoseconds. -/
def fraction : Reader Nat
  | '.' :: text => do
    let (found, _) ← digits 9 text
    return (digitsValue found * Nat.pow 10 (9 - found.length), text.dropWhile Char.isDigit)
  | text => some (0, text)

def hourMinute : Reader (Nat × Nat) := fun text => do
  let (hour, text) ← number 2 text
  let (_, text) ← separator ':' text
  let (minute, text) ← number 2 text
  return ((hour, minute), text)

def secondNanosecond : Reader (Nat × Nat) := fun text => do
  let (_, text) ← separator ':' text
  let (second, text) ← number 2 text
  let (nanosecond, text) ← fraction text
  return ((second, nanosecond), skipBlank text)

/-- The whole of a text, read by `reader`. -/
def whole {α : Type} (reader : Reader α) (text : String) : Option α :=
  match reader text.toList with
  | some (a, []) => some a
  | _ => none

/-- Two decimal digits, exactly. -/
def twoDigits : Reader Nat
  | a :: b :: rest =>
    if a.isDigit && b.isDigit then some (digitsValue [a, b], rest) else none
  | _ => none

/-- The offset of a clock in seconds: a `Z`, `UTC`, or signed hours and minutes. -/
def offset : Reader Int := fun text =>
  let utc (a b c : Char) := [a.toLower, b.toLower, c.toLower] = ['u', 't', 'c']
  let signed (sign : Int) (text : List Char) := do
    let (hours, text) ← twoDigits text
    let text := text.dropWhile fun c => c = ':' || Text.isBlank c
    let (minutes, text) ← twoDigits text
    if minutes < 60 && hours < 24 then
      return (sign * ((hours * 3600 + minutes * 60 : Nat) : Int), text)
    else none
  match text with
  | 'Z' :: rest => some (0, rest)
  | 'z' :: rest => some (0, rest)
  | '+' :: rest => signed 1 rest
  | '-' :: rest => signed (-1) rest
  | '\u2212' :: rest => signed (-1) rest
  | a :: b :: c :: rest => if utc a b c then some (0, rest) else none
  | _ => none

end Calendar

open Calendar

def Date.parse? (text : String) : Option Date := do
  let (year, month, day) ← whole (fun t => (ymd t).map fun (d, rest) => (d, skipBlank rest)) text
  Date.ofYmd? year month day

/-- Seconds may be left out. -/
def TimeOfDay.parse? (text : String) : Option TimeOfDay := do
  let ((hour, minute), rest) ← hourMinute text.toList
  let ((second, nanosecond), rest) := (secondNanosecond rest).getD ((0, 0), skipBlank rest)
  if rest.isEmpty then TimeOfDay.ofHms? hour minute second nanosecond else none

/-- A date and a time that may not leave its seconds out. -/
def DateTime.assemble? (date : Int × Nat × Nat) (hourMinute secondNanosecond : Nat × Nat) :
    Option DateTime := do
  let date ← Date.ofYmd? date.1 date.2.1 date.2.2
  let time ← TimeOfDay.ofHms? hourMinute.1 hourMinute.2 secondNanosecond.1 secondNanosecond.2
  return ⟨date, time⟩

/-- A date, a `T` and a time. -/
def DateTime.parse? (text : String) : Option DateTime := do
  let (date, rest) ← ymd text.toList
  let (_, rest) ← separator 'T' rest
  let (hm, rest) ← hourMinute rest
  let (sn, rest) ← secondNanosecond rest
  if rest.isEmpty then DateTime.assemble? date hm sn else none

/-- A date, a `T` or a blank, a time and the offset of its clock, moved to the clock of UTC, where
it still has to be in a year that can be held. -/
def DateTime.parseUtc? (text : String) : Option DateTime := do
  let (date, rest) ← ymd text.toList
  let rest ← match rest with
    | 'T' :: rest => some rest
    | 't' :: rest => some rest
    | ' ' :: rest => some rest
    | _ => none
  let (hm, rest) ← hourMinute rest
  let (sn, rest) ← secondNanosecond rest
  let (offset, rest) ← offset rest
  let instant := (← DateTime.assemble? date hm sn).behind offset
  if (skipBlank rest).isEmpty && Date.holdsYear instant.date.year then some instant else none

end RelMap
