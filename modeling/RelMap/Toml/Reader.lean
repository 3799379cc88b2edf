import RelMap.Toml.Scalar
import RelMap.Toml.Table
import RelMap.Toml.Text

/-!
Reading TOML text. The statements of the text, one a line, build its tables.
-/
namespace RelMap.Toml

def skipBlank (text : List Char) : List Char := text.dropWhile isBlank

/-- The rest of a line that holds nothing but a comment. -/
def endLine? (text : List Char) : Option (List Char) :=
  let text := match skipBlank text with
    | '#' :: rest => rest.dropWhile fun c => !isControl c
    | text => text
  match text with
  | [] => some []
  | '\n' :: rest => some rest
  | '\r' :: '\n' :: rest => some rest
  | _ => none

/-- Skips blanks, comments and line ends. `fuel` bounds the number of lines. -/
def skipLines (fuel : Nat) (text : List Char) : List Char :=
  match fuel with
  | 0 => text
  | fuel + 1 =>
    match skipBlank text with
    | [] => []
    | text =>
      match endLine? text with
      | some rest => skipLines fuel rest
      | none => text

def isBareKeyChar (c : Char) : Bool := c.isAlphanum || c = '_' || c = '-'

/-- A key without dots, bare or quoted. -/
def simpleKey : Reader String := fun text =>
  match text.takeWhile isBareKeyChar with
  | [] => readLineText text
  | chars => some (String.ofList chars, text.drop chars.length)

/-- Values may not nest this deep, nor keys have this many parts. -/
def nestingLimit : Nat := 80

/-- At most `count` keys with dots between them. -/
def keys (count : Nat) : Reader (List String) := fun text =>
  match count with
  | 0 => none
  | count + 1 => do
    let (key, rest) ← simpleKey (skipBlank text)
    match skipBlank rest with
    | '.' :: rest =>
      let (more, rest) ← keys count rest
      return (key :: more, rest)
    | _ => return ([key], rest)

def dottedKey : Reader (List String) := keys (nestingLimit - 1)

def isScalarChar (c : Char) : Bool := c.isAlphanum || ['+', '-', '_', '.', ':'].contains c

/-- The characters of a scalar. A date and a time may have a blank between them. -/
def scalarChars (text : List Char) : List Char :=
  let chars := text.takeWhile isScalarChar
  match text.drop chars.length with
  | ' ' :: d :: rest =>
    if (date? chars).isSome && d.isDigit then
      chars ++ ' ' :: d :: rest.takeWhile isScalarChar
    else chars
  | _ => chars

mutual
/-- A value. `depth` is how deep values may still nest, and `fuel` bounds the number of parts. -/
def readValue (depth fuel : Nat) : Reader Item := fun text =>
  match fuel with
  | 0 => none
  | fuel + 1 =>
    match text with
    | '[' :: rest =>
      if depth ≤ 1 then none
      else (readItems (depth - 1) fuel rest).map fun (items, rest) => (.array items, rest)
    | '\x7b' :: rest =>
      if depth ≤ 1 then none
      else match skipBlank rest with
        | '\x7d' :: rest => some (.table [], rest)
        | rest => (readEntries (depth - 1) fuel [] rest).map fun (table, rest) =>
            (.table (entriesToItems table), rest)
    | '"' :: _ => (readText text).map fun (s, rest) => (.text s, rest)
    | '\'' :: _ => (readText text).map fun (s, rest) => (.text s, rest)
    | _ =>
      let chars := scalarChars text
      (scalar? chars).map fun item => (item, text.drop chars.length)

/-- The items of an array up to its end. -/
def readItems (depth fuel : Nat) : Reader (List Item) := fun text =>
  match fuel with
  | 0 => none
  | fuel + 1 =>
    match skipLines text.length text with
    | ']' :: rest => some ([], rest)
    | text => do
      let (item, rest) ← readValue depth fuel text
      match skipLines rest.length rest with
      | ']' :: rest => return ([item], rest)
      | ',' :: rest =>
        let (items, rest) ← readItems depth fuel rest
        return (item :: items, rest)
      | _ => none

/-- The entries of an inline table up to its end, added to a table. -/
def readEntries (depth fuel : Nat) (table : Table) : Reader Table := fun text =>
  match fuel with
  | 0 => none
  | fuel + 1 => do
    let (key, rest) ← dottedKey text
    let '=' :: rest := skipBlank rest | none
    let (value, rest) ← readValue depth fuel (skipBlank rest)
    let table ← addValue value key table
    match skipBlank rest with
    | '\x7d' :: rest => return (table, rest)
    | ',' :: rest => readEntries depth fuel table rest
    | _ => none
end

/-- The tables read so far, and the header that the next entries are under. -/
structure Reading where
  root : Table := []
  header : List String := []

/-- A header, after its opening brackets and up to the closing ones. -/
def readHeader (closing : List Char) : Reader (List String) := fun text => do
  let (keys, rest) ← dottedKey text
  let rest := skipBlank rest
  if rest.take closing.length = closing then some (keys, rest.drop closing.length) else none

/-- One statement. -/
def readStatement (r : Reading) : Reader Reading
  | '[' :: '[' :: rest => do
    let (header, rest) ← readHeader [']', ']'] rest
    return ({ root := ← defineElement header r.root, header }, rest)
  | '[' :: rest => do
    let (header, rest) ← readHeader [']'] rest
    return ({ root := ← defineTable header r.root, header }, rest)
  | text => do
    let (key, rest) ← dottedKey text
    let '=' :: rest := skipBlank rest | none
    let (value, rest) ← readValue nestingLimit (2 * rest.length + 2) (skipBlank rest)
    return ({ r with root := ← changeAt (addValue value key) r.header r.root }, rest)

/-- All statements, each with a line of its own. `fuel` bounds their number. -/
def readStatements (fuel : Nat) (r : Reading) (text : List Char) : Option Reading :=
  match fuel, skipLines text.length text with
  | _, [] => some r
  | 0, _ => none
  | fuel + 1, text => do
    let (r, rest) ← readStatement r text
    readStatements fuel r (← endLine? rest)

/-- What a text says, as one table. -/
def parse? (text : String) : Option Item :=
  let chars := match text.toList with
    | '\ufeff' :: rest => rest
    | chars => chars
  (readStatements (chars.length + 1) {} chars).bind fun r =>
    (Node.table .header r.root).toItem.resolve?

end RelMap.Toml
