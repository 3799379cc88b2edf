import RelMap.Calendar.Basic
import RelMap.Calendar.Format

/-!
Dates and times in TOML, given as the characters they are made of and kept as texts. They may be
written as values of their own or inside quotes, where slightly larger parts are accepted.
-/
namespace RelMap.Toml

open Text (padded)

def valueOf (radix : Nat) (digits : List Char) : Nat :=
  digits.foldl (fun n c =>
    radix * n + if c.isDigit then c.toNat - '0'.toNat else c.toLower.toNat - 'a'.toNat + 10) 0

/-- How large the parts of a moment may be. -/
structure MomentLimits where
  lastHour : Nat
  offsetFits : (hours minutes : Nat) → Bool

/-- The limits of a moment that is a value of its own. -/
def MomentLimits.bare : MomentLimits := ⟨23, fun hours minutes => hours < 24 && minutes < 60⟩

/-- The limits of a moment inside quotes. -/
def MomentLimits.quoted : MomentLimits := ⟨24, fun hours minutes => hours * 60 + minutes ≤ 24 * 60⟩

/-- A date written with all its digits. -/
def date? : List Char → Option Date
  | [y₁, y₂, y₃, y₄, '-', m₁, m₂, '-', d₁, d₂] =>
    if [y₁, y₂, y₃, y₄, m₁, m₂, d₁, d₂].all Char.isDigit then
      Date.ofYmd? (valueOf 10 [y₁, y₂, y₃, y₄]) (valueOf 10 [m₁, m₂]) (valueOf 10 [d₁, d₂])
    else none
  | _ => none

/-- The text of a fraction of a second, cut after nine digits and without zeros at its end. -/
def fractionText (digits : List Char) : String :=
  match ((digits.take 9).reverse.dropWhile (· = '0')).reverse with
  | [] => ""
  | digits => String.ofList ('.' :: digits)

namespace MomentLimits

variable (limits : MomentLimits)

/-- The text of a time written with all its digits. -/
def timeText? : List Char → Option String
  | h₁ :: h₂ :: ':' :: m₁ :: m₂ :: ':' :: s₁ :: s₂ :: rest =>
    let digits := match rest with
      | [] => some []
      | '.' :: digits => if digits.isEmpty then none else some digits
      | _ => none
    digits.bind fun digits =>
      if [h₁, h₂, m₁, m₂, s₁, s₂].all Char.isDigit && digits.all Char.isDigit
          && valueOf 10 [h₁, h₂] ≤ limits.lastHour && valueOf 10 [m₁, m₂] < 60
          && valueOf 10 [s₁, s₂] ≤ 60 then
        some (String.ofList [h₁, h₂, ':', m₁, m₂, ':', s₁, s₂] ++ fractionText digits)
      else none
  | _ => none

/-- The text of an offset: a `Z`, or signed hours and minutes; none at all is positive. -/
def offsetText? : List Char → Option String
  | [] => some ""
  | ['Z'] => some "Z"
  | ['z'] => some "Z"
  | [sign, h₁, h₂, ':', m₁, m₂] =>
    let hours := valueOf 10 [h₁, h₂]
    let minutes := valueOf 10 [m₁, m₂]
    if (sign = '+' || sign = '-') && [h₁, h₂, m₁, m₂].all Char.isDigit
        && limits.offsetFits hours minutes then
      let total := hours * 60 + minutes
      let sign := if sign = '-' && 0 < total then "-" else "+"
      some (sign ++ padded 2 (total / 60) ++ ":" ++ padded 2 (total % 60))
    else none
  | _ => none

/-- The text of a date, a time, or a date and a time with or without an offset. -/
def momentText? (text : List Char) : Option String :=
  match date? (text.take 10), text.drop 10 with
  | none, _ => limits.timeText? text
  | some d, [] => some d.text
  | some d, c :: rest =>
    let isOffset (c : Char) := c = 'Z' || c = 'z' || c = '+' || c = '-'
    if c = 'T' || c = 't' || c = ' ' then do
      let time ← limits.timeText? (rest.takeWhile fun c => !isOffset c)
      let offset ← limits.offsetText? (rest.dropWhile fun c => !isOffset c)
      return d.text ++ "T" ++ time ++ offset
    else none

end MomentLimits
end RelMap.Toml
