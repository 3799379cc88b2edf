import RelMap.Numeric.Shortest

/-!
How floating-point numbers are written. One record holds the decisions of a notation; three
notations are in use: for people, for diagnostics and for documents.
-/
namespace RelMap

/-- The decisions that fix the text of a floating-point number. -/
structure FloatNotation where
  /-- The exponents of the leading digit that are written without an exponent; all of them when
  there are no bounds. -/
  positional : Option (Int × Int)
  /-- Whether a whole number written without an exponent ends in `.0`. -/
  keepsPoint : Bool
  /-- Whether an exponent that is not negative has a sign too. -/
  signsExponent : Bool
  tie : Decimal.Tie

namespace FloatNotation

/-- Text for people: never an exponent, and no point in a whole number. -/
def plain : FloatNotation := ⟨none, false, false, .up⟩

/-- Text in diagnostics: an exponent below `1e-4` and from `1e16` on. -/
def diagnostic : FloatNotation := ⟨some (-4, 15), true, false, .up⟩

/-- Text in documents: an exponent, always with its sign, below `1e-5` and from `1e+16` on. -/
def document : FloatNotation := ⟨some (-5, 15), true, true, .toEven⟩

/-- The digits of a positive decimal with the point where it belongs. -/
def positionalText (keepsPoint : Bool) (d : Decimal) : String :=
  let digits := (toString d.digits).toList
  let zeros (n : Nat) := List.replicate n '0'
  if 0 ≤ d.exponent then
    String.ofList (digits ++ zeros d.exponent.toNat) ++ if keepsPoint then ".0" else ""
  else
    let places := (-d.exponent).toNat
    let whole := digits.length - places
    if 0 < whole then
      String.ofList (digits.take whole ++ '.' :: digits.drop whole)
    else
      String.ofList ('0' :: '.' :: zeros (places - digits.length) ++ digits)

/-- One digit before the point, and the exponent after an `e`. -/
def scientificText (signsExponent : Bool) (d : Decimal) : String :=
  let digits := (toString d.digits).toList
  let exponent := d.exponent + digits.length - 1
  let mantissa := match digits with
    | [] => []
    | [c] => [c]
    | c :: rest => c :: '.' :: rest
  let sign := if signsExponent && 0 ≤ exponent then "+" else ""
  String.ofList mantissa ++ "e" ++ sign ++ toString exponent

/-- The text of a number in a notation. -/
def format (n : FloatNotation) (x : Binary64) : String :=
  if x.isNaN then "NaN"
  else
    let sign := if x.isNegative then "-" else ""
    if x.isInfinite then sign ++ "inf"
    else if x.isZero then sign ++ if n.keepsPoint then "0.0" else "0"
    else
      let d := Decimal.shortest n.tie x
      let leading := d.exponent + (toString d.digits).length - 1
      let fits := match n.positional with
        | none => true
        | some (low, high) => low ≤ leading && leading ≤ high
      sign ++ if fits then positionalText n.keepsPoint d else scientificText n.signsExponent d

end FloatNotation
end RelMap
