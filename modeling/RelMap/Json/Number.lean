import RelMap.Json.Basic

/-!
Reading JSON numbers. A number without point and exponent is a whole number if it fits 64 bits.
Any other number is the quotient or product of its leading digits, as many as fit 64 bits, and a
power of ten, each rounded on its own.
-/
namespace RelMap.Json

/-- The greatest value that the leading digits of a number may reach. -/
def maxSignificand : Nat := 0xffffffffffffffff

/-- Appends digits to a significand while it fits; the digits that did not come back. -/
def appendDigits (significand : Nat) : List Char → Nat × List Char
  | [] => (significand, [])
  | c :: rest =>
    let next := 10 * significand + (c.toNat - '0'.toNat)
    if next ≤ maxSignificand then appendDigits next rest else (significand, c :: rest)

/-- The power `10 ^ n` as a floating-point number. -/
def powerOfTen (n : Nat) : Binary64 := .ofNat (Nat.pow 10 n)

/-- Divides by `10 ^ n` in steps that are finite powers of ten. -/
def divideByPower (x : Binary64) (n : Nat) : Binary64 :=
  if n ≤ 308 then x.div (powerOfTen n)
  else if x.isZero then x
  else divideByPower (x.div (powerOfTen 308)) (n - 308)
termination_by n

/-- The floating-point number `significand * 10 ^ exponent`, unless it is too large. -/
def scaled? (significand : Nat) (exponent : Int) : Option Binary64 :=
  let x := Binary64.ofNat significand
  if exponent < 0 then some (divideByPower x exponent.natAbs)
  else if 308 < exponent then if x.isZero then some x else none
  else
    let product := x.mul (powerOfTen exponent.toNat)
    if product.isInfinite then none else some product

/-- The exponent after an `e`. One that does not fit 32 bits is reported as too large. -/
inductive Exponent where
  | given (value : Int)
  | huge (negative : Bool)

def readExponent? (text : List Char) : Option Exponent :=
  let (negative, digits) := match text with
    | '-' :: rest => (true, rest)
    | '+' :: rest => (false, rest)
    | rest => (false, rest)
  if digits.isEmpty || !digits.all Char.isDigit then none
  else
    let value := digits.foldl (fun n c => 10 * n + (c.toNat - '0'.toNat)) 0
    if value < 0x80000000 then some (.given (if negative then -value else value))
    else some (.huge negative)

/-- A number with a point or an exponent, given its digits so far and the power of ten they
stand for. -/
def readScaled? (significand : Nat) (exponent : Int) (suffix : List Char) : Option Binary64 :=
  match suffix with
  | [] => scaled? significand exponent
  | c :: rest =>
    if c = 'e' || c = 'E' then
      match readExponent? rest with
      | none => none
      | some (.given e) => scaled? significand (exponent + e)
      | some (.huge negative) =>
        if significand = 0 || negative then some (Binary64.ofNat 0) else none
    else none

/-- The number that a text denotes, sign apart. -/
def readMagnitude? (text : List Char) : Option (Nat ⊕ Binary64) :=
  let whole := text.takeWhile Char.isDigit
  let suffix := text.dropWhile Char.isDigit
  if whole.isEmpty || (whole.head? = some '0' && 1 < whole.length) then none
  else
    let (significand, dropped) := appendDigits 0 whole
    match suffix with
    | [] =>
      if dropped.isEmpty then some (.inl significand)
      else (scaled? significand dropped.length).map .inr
    | '.' :: rest =>
      let fraction := rest.takeWhile Char.isDigit
      let (extended, unused) := appendDigits significand fraction
      let used := fraction.length - unused.length
      if fraction.isEmpty then none
      else (readScaled? extended (dropped.length - used) (rest.dropWhile Char.isDigit)).map .inr
    | suffix => (readScaled? significand dropped.length suffix).map .inr

/-- The number that a text denotes. A negative zero, and a whole number below the least one of
64 bits, are floating-point numbers. -/
def readNumber? (text : List Char) : Option Json :=
  match text with
  | '-' :: text =>
    (readMagnitude? text).map fun
      | .inl n =>
        if 0 < n && n ≤ 0x8000000000000000 then .int (-n) else .float (Binary64.ofNat n).neg
      | .inr x => .float x.neg
  | text =>
    (readMagnitude? text).map fun
      | .inl n => .int n
      | .inr x => .float x

end RelMap.Json
