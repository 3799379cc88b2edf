import RelMap.Toml.Item

/-!
Numbers, truth values, dates and times in TOML, each given as the characters it is made of.
-/
namespace RelMap.Toml

/-- Digits without the underscores that stand singly between them. -/
def digits? (isDigit : Char → Bool) (text : List Char) : Option (List Char) :=
  let groups := text.splitOn '_'
  if groups.all fun g => !g.isEmpty && g.all isDigit then some groups.flatten else none

/-- Digits of a decimal number that does not begin with a zero too many. -/
def decimalDigits? (text : List Char) : Option (List Char) := do
  let digits ← digits? Char.isDigit text
  if digits.head? = some '0' && 1 < digits.length then none else some digits

def integer (n : Int) : Option Int :=
  if -0x8000000000000000 ≤ n && n ≤ 0x7fffffffffffffff then some n else none

def signed (text : List Char) : Bool × List Char :=
  match text with
  | '-' :: rest => (true, rest)
  | '+' :: rest => (false, rest)
  | rest => (false, rest)

/-- A whole number: decimal with a sign, or hexadecimal, octal or binary without one. -/
def integer? (text : List Char) : Option Int :=
  let radix (r : Nat) (isDigit : Char → Bool) (digits : List Char) :=
    (digits? isDigit digits).bind fun d => integer (valueOf r d)
  match text with
  | '0' :: 'x' :: rest =>
    radix 16 (fun c => c.isDigit || ('a' ≤ c.toLower && c.toLower ≤ 'f')) rest
  | '0' :: 'o' :: rest => radix 8 (fun c => '0' ≤ c && c ≤ '7') rest
  | '0' :: 'b' :: rest => radix 2 (fun c => c = '0' || c = '1') rest
  | text =>
    let (negative, digits) := signed text
    (decimalDigits? digits).bind fun d =>
      integer (if negative then -(valueOf 10 d : Int) else valueOf 10 d)

/-- A decimal with a point, an exponent or both. -/
def decimal? (text : List Char) : Option Binary64 := do
  let (negative, text) := signed text
  let isMark (c : Char) := c = 'e' || c = 'E'
  let mantissa := text.takeWhile fun c => !isMark c
  let exponent := text.dropWhile fun c => !isMark c
  let whole := mantissa.takeWhile (· ≠ '.')
  let fraction := mantissa.dropWhile (· ≠ '.')
  if exponent.isEmpty && fraction.isEmpty then none
  let whole ← decimalDigits? whole
  let fraction ← if fraction.isEmpty then some [] else digits? Char.isDigit fraction.tail
  let (down, exponent) := signed exponent.tail
  let exponent ← if text.all fun c => !isMark c then some [] else digits? Char.isDigit exponent
  let e : Int := (if down then -1 else 1) * (valueOf 10 exponent : Int) - fraction.length
  let digits := whole ++ fraction
  let n := valueOf 10 digits
  if n = 0 || e + digits.length < -400 then return .ofRatio negative 0 1
  if 400 < e then return .ofRatio negative (Nat.pow 2 1024) 1
  return .ofRatio negative (n * Nat.pow 10 e.toNat) (Nat.pow 10 (-e).toNat)

/-- A value that is neither a text nor made of others. A decimal above all numbers is not a value;
one below all of them is an infinity. -/
def scalar? (text : List Char) : Option Item :=
  let (negative, unsigned) := signed text
  match String.ofList unsigned with
  | "inf" => some (.float (.infinity negative))
  | "nan" => some (.float (.nan negative))
  | _ =>
    match String.ofList text with
    | "true" => some (.boolean true)
    | "false" => some (.boolean false)
    | _ =>
      match integer? text, decimal? text with
      | some n, _ => some (.integer n)
      | none, some x => if x.isFinite || negative then some (.float x) else none
      | none, none => (MomentLimits.bare.momentText? text).map .moment

end RelMap.Toml
