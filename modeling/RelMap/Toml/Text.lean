/-!
Texts in TOML: between double quotes with escapes, or between single quotes as they are; on one
line, or in a block between tripled quotes.
-/
namespace RelMap.Toml

/-- A reader of some part at the start of a text. -/
abbrev Reader (α : Type) := List Char → Option (α × List Char)

def isBlank (c : Char) : Bool := c = ' ' || c = '\t'

def isControl (c : Char) : Bool := (c.toNat < 0x20 && c ≠ '\t') || c.toNat = 0x7f

/-- The character with a code given in hexadecimal digits. -/
def scalarOf? (digits : List Char) : Option Char := do
  let values ← digits.mapM fun c =>
    if c.isDigit then some (c.toNat - '0'.toNat)
    else if 'a' ≤ c && c ≤ 'f' then some (c.toNat - 'a'.toNat + 10)
    else if 'A' ≤ c && c ≤ 'F' then some (c.toNat - 'A'.toNat + 10)
    else none
  let n := values.foldl (16 * · + ·) 0
  if n < 0xd800 || (0xe000 ≤ n && n < 0x110000) then some (Char.ofNat n) else none

/-- The character that an escape stands for, and the number of characters after the backslash
that it takes. -/
def escape? : List Char → Option (Char × Nat)
  | 'b' :: _ => some ('\x08', 1)
  | 't' :: _ => some ('\t', 1)
  | 'n' :: _ => some ('\n', 1)
  | 'f' :: _ => some ('\x0c', 1)
  | 'r' :: _ => some ('\r', 1)
  | '"' :: _ => some ('"', 1)
  | '\\' :: _ => some ('\\', 1)
  | 'u' :: rest =>
    if 4 ≤ rest.length then (scalarOf? (rest.take 4)).map (·, 5) else none
  | 'U' :: rest =>
    if 8 ≤ rest.length then (scalarOf? (rest.take 8)).map (·, 9) else none
  | _ => none

/-- The rest of a text on one line, after the quote that opened it. `skip` characters belong to
an escape that has been read. -/
def lineText (quote : Char) (skip : Nat) : Reader (List Char)
  | [] => none
  | c :: rest =>
    if 0 < skip then lineText quote (skip - 1) rest
    else if c = quote then some ([], rest)
    else if c = '\\' && quote = '"' then do
      let (d, taken) ← escape? rest
      let (chars, rest) ← lineText quote taken rest
      return (d :: chars, rest)
    else if isControl c then none
    else do
      let (chars, rest) ← lineText quote 0 rest
      return (c :: chars, rest)

/-- The number of characters in the blanks and line ends at the start of a text. -/
def blankLength : List Char → Nat
  | '\r' :: '\n' :: rest => blankLength rest + 2
  | c :: rest => if isBlank c || c = '\n' then blankLength rest + 1 else 0
  | [] => 0

/-- Whether nothing but blanks stand before the end of the line. -/
def endsLine (text : List Char) : Bool :=
  match text.dropWhile isBlank with
  | '\n' :: _ => true
  | '\r' :: '\n' :: _ => true
  | _ => false

/-- The rest of a block, after the quotes that opened it. One or two quotes may stand before
those that close it. -/
def blockText (quote : Char) (skip : Nat) : Reader (List Char)
  | [] => none
  | c :: rest =>
    let more (c : Char) (skip : Nat) := do
      let (chars, rest) ← blockText quote skip rest
      return (c :: chars, rest)
    let quotes := (rest.takeWhile (· = quote)).length + 1
    if 0 < skip then blockText quote (skip - 1) rest
    else if c = quote && 3 ≤ quotes then
      if quotes ≤ 5 then some (List.replicate (quotes - 3) quote, rest.drop (quotes - 1)) else none
    else if c = '\\' && quote = '"' then
      if endsLine rest then blockText quote (blankLength rest) rest
      else (escape? rest).bind fun (d, taken) => more d taken
    else if c = '\r' then if rest.head? = some '\n' then blockText quote 0 rest else none
    else if isControl c && c ≠ '\n' then none
    else more c 0

/-- A line break right after the opening quotes does not belong to a block. -/
def afterOpening : List Char → List Char
  | '\n' :: rest => rest
  | '\r' :: '\n' :: rest => rest
  | text => text

def readLineText : Reader String
  | '"' :: rest => (lineText '"' 0 rest).map fun (chars, rest) => (String.ofList chars, rest)
  | '\'' :: rest => (lineText '\'' 0 rest).map fun (chars, rest) => (String.ofList chars, rest)
  | _ => none

/-- A text of any form. -/
def readText : Reader String
  | '"' :: '"' :: '"' :: rest =>
    (blockText '"' 0 (afterOpening rest)).map fun (chars, rest) => (String.ofList chars, rest)
  | '\'' :: '\'' :: '\'' :: rest =>
    (blockText '\'' 0 (afterOpening rest)).map fun (chars, rest) => (String.ofList chars, rest)
  | text => readLineText text

end RelMap.Toml
