/-!
Binary floating-point numbers of 64 bits, held as their bits. All arithmetic is exact on integers
and rounds once, to nearest with ties to even.
-/
namespace RelMap

/-- A binary64 number, given by its sign bit, eleven exponent bits and 52 fraction bits. -/
structure Binary64 where
  bits : UInt64
  deriving DecidableEq

namespace Binary64

/-- The bit of the sign. -/
def signBit : Nat := 0x8000000000000000

/-- The bit before the fraction, which is not stored. -/
def implicitBit : Nat := 0x10000000000000

/-- The first bit of the fraction, which marks what is not a number. -/
def quietBit : Nat := 0x8000000000000

def isNegative (x : Binary64) : Bool := signBit ≤ x.bits.toNat

/-- The bits other than the sign, as a number. -/
def magnitude (x : Binary64) : Nat := x.bits.toNat % signBit

/-- The magnitude of both infinities; greater magnitudes are not numbers. -/
def infiniteMagnitude : Nat := 2047 * implicitBit

def isNaN (x : Binary64) : Bool := infiniteMagnitude < x.magnitude

def isInfinite (x : Binary64) : Bool := x.magnitude = infiniteMagnitude

def isFinite (x : Binary64) : Bool := x.magnitude < infiniteMagnitude

def isZero (x : Binary64) : Bool := x.magnitude = 0

def ofMagnitude (negative : Bool) (magnitude : Nat) : Binary64 :=
  ⟨UInt64.ofNat (if negative then signBit + magnitude else magnitude)⟩

def infinity (negative : Bool) : Binary64 := ofMagnitude negative infiniteMagnitude

def nan (negative : Bool) : Binary64 := ofMagnitude negative (infiniteMagnitude + quietBit)

def neg (x : Binary64) : Binary64 := ofMagnitude (!x.isNegative) x.magnitude

/-- The integer `m` in the value `m * 2 ^ q` of a finite number. -/
def significand (x : Binary64) : Nat :=
  let fraction := x.magnitude % implicitBit
  if x.magnitude < implicitBit then fraction else implicitBit + fraction

/-- The exponent `q` in the value `m * 2 ^ q` of a finite number. -/
def scale (x : Binary64) : Int :=
  (max (x.magnitude / implicitBit) 1 : Nat) - 1075

/-- The quotient rounded to the nearest integer, a half to the even neighbour. -/
def divNearest (num den : Nat) : Nat :=
  let q := num / den
  let r := num % den
  if 2 * r < den then q else if den < 2 * r then q + 1 else q + q % 2

/-- The pair of integers whose quotient is `m * 2 ^ q`. -/
def ratioOf (m : Nat) (q : Int) : Nat × Nat :=
  (m * Nat.pow 2 q.toNat, Nat.pow 2 (-q).toNat)

/-- The number nearest to `num / den`; one too large to be finite is infinite. -/
def ofRatio (negative : Bool) (num den : Nat) : Binary64 :=
  if num = 0 then ofMagnitude negative 0
  else
    let units (q : Int) := (num * Nat.pow 2 (-q).toNat, den * Nat.pow 2 q.toNat)
    let guess : Int := num.log2 - den.log2 - 52
    let (n, d) := units guess
    let q := max (-1074) (if n < implicitBit * d then guess - 1 else guess)
    let (n, d) := units q
    ofMagnitude negative (min infiniteMagnitude ((q + 1074).toNat * implicitBit + divNearest n d))

def ofNat (n : Nat) : Binary64 := ofRatio false n 1

def ofInt (n : Int) : Binary64 := ofRatio (n < 0) n.natAbs 1

/-- The product of two finite numbers. -/
def mul (x y : Binary64) : Binary64 :=
  let (a, b) := ratioOf x.significand x.scale
  let (c, d) := ratioOf y.significand y.scale
  ofRatio (x.isNegative != y.isNegative) (a * c) (b * d)

/-- The quotient of two finite numbers, the second one not zero. -/
def div (x y : Binary64) : Binary64 :=
  let (a, b) := ratioOf x.significand x.scale
  let (c, d) := ratioOf y.significand y.scale
  ofRatio (x.isNegative != y.isNegative) (a * d) (b * c)

/-- The place of a number on a line of integers that both zeros share. -/
def rank (x : Binary64) : Int :=
  if x.isNegative then -(x.magnitude : Int) else x.magnitude

/-- The order of two numbers; none when one of them is not a number. -/
def compare? (x y : Binary64) : Option Ordering :=
  if x.isNaN || y.isNaN then none else some (compare x.rank y.rank)

/-- The bits in sixteen hexadecimal digits; what is not a number is always written as one and the
same. -/
def hex (x : Binary64) : String :=
  let digits := Nat.toDigits 16 (if x.isNaN then infiniteMagnitude + quietBit else x.bits.toNat)
  String.ofList (List.replicate (16 - digits.length) '0' ++ digits)

/-- Numeric equality: both zeros are equal and what is not a number equals nothing. -/
def equal (x y : Binary64) : Bool := compare? x y == some .eq

end Binary64
end RelMap
