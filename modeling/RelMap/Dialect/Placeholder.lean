/-!
Placeholders in statements. Statements are built with question marks; for databases that number
their placeholders every question mark outside quotes becomes a dollar sign and its number.
-/
namespace RelMap.Placeholder

/-- The characters that open a quoted part and close it again. -/
def isQuote (c : Char) : Bool := c = '\'' || c = '"' || c = '\x60'

/-- The quote that is open after reading `c`, given the one open before it. -/
def quoteAfter (open? : Option Char) (c : Char) : Option Char :=
  match open? with
  | some q => if c = q then none else some q
  | none => if isQuote c then some c else none

/-- Numbers the placeholders of a text that follows `count` others. -/
def numberFrom (open? : Option Char) (count : Nat) : List Char → List Char
  | [] => []
  | c :: rest =>
    if open?.isNone && c = '?' then
      '$' :: (toString (count + 1)).toList ++ numberFrom none (count + 1) rest
    else c :: numberFrom (quoteAfter open? c) count rest

/-- Replaces the placeholders of a statement by `$1`, `$2`, … -/
def number (sql : String) : String := String.ofList (numberFrom none 0 sql.toList)

/-- As many placeholders as there are values, with commas between them. -/
def listed (count : Nat) : List String := List.replicate count "?"

end RelMap.Placeholder
