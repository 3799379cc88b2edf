import RelMap.Json.Number

/-!
The tokens of JSON text. One pass over the characters carries the token under way.
-/
namespace RelMap.Json

inductive Token where
  | openArray
  | closeArray
  | openObject
  | closeObject
  | comma
  | colon
  | text (value : String)
  | scalar (value : Json)

/-- The token under way, its characters in reverse. -/
inductive Lexing where
  | between
  | word (chars : List Char)
  | number (chars : List Char)
  | text (chars : List Char)
  | escape (chars : List Char)
  /-- Hexadecimal digits of a code unit, after the first half of a surrogate pair if any. -/
  | unit (chars : List Char) (first : Option Nat) (digits : List Char)
  /-- The first half of a surrogate pair has been read and the second one must follow. -/
  | pair (chars : List Char) (first : Nat) (slash : Bool)

def hexValue? (c : Char) : Option Nat :=
  if '0' ≤ c && c ≤ '9' then some (c.toNat - '0'.toNat)
  else if 'a' ≤ c && c ≤ 'f' then some (c.toNat - 'a'.toNat + 10)
  else if 'A' ≤ c && c ≤ 'F' then some (c.toNat - 'A'.toNat + 10)
  else none

/-- The character that a backslash and `c` stand for. -/
def unescape? (c : Char) : Option Char :=
  match c with
  | '"' => some '"'
  | '\\' => some '\\'
  | '/' => some '/'
  | 'b' => some '\x08'
  | 'f' => some '\x0c'
  | 'n' => some '\n'
  | 'r' => some '\r'
  | 't' => some '\t'
  | _ => none

/-- Four hexadecimal digits, after the first half of a surrogate pair if any. -/
def endUnit? (chars : List Char) (first : Option Nat) (digits : List Char) : Option Lexing := do
  let value := (← digits.mapM hexValue?).foldl (16 * · + ·) 0
  match first with
  | none =>
    if 0xd800 ≤ value && value < 0xdc00 then some (.pair chars value false)
    else if 0xdc00 ≤ value && value < 0xe000 then none
    else some (.text (Char.ofNat value :: chars))
  | some first =>
    if 0xdc00 ≤ value && value < 0xe000 then
      some (.text (Char.ofNat (0x10000 + (first - 0xd800) * 0x400 + (value - 0xdc00)) :: chars))
    else none

def wordToken? (chars : List Char) : Option Token :=
  match String.ofList chars.reverse with
  | "null" => some (.scalar .null)
  | "true" => some (.scalar (.bool true))
  | "false" => some (.scalar (.bool false))
  | _ => none

def numberToken? (chars : List Char) : Option Token :=
  (readNumber? chars.reverse).map .scalar

def isNumberChar (c : Char) : Bool := c.isDigit || ['+', '-', '.', 'e', 'E'].contains c

/-- A character outside texts, words and numbers. -/
def beginToken? (c : Char) : Option (Lexing × List Token) :=
  match c with
  | ' ' => some (.between, [])
  | '\n' => some (.between, [])
  | '\t' => some (.between, [])
  | '\r' => some (.between, [])
  | '[' => some (.between, [.openArray])
  | ']' => some (.between, [.closeArray])
  | '\x7b' => some (.between, [.openObject])
  | '\x7d' => some (.between, [.closeObject])
  | ',' => some (.between, [.comma])
  | ':' => some (.between, [.colon])
  | '"' => some (.text [], [])
  | c =>
    if c = '-' || c.isDigit then some (.number [c], [])
    else if c.isAlpha then some (.word [c], [])
    else none

/-- Reads one character: what is under way then, and the tokens that it ended. -/
def Lexing.step? (state : Lexing) (c : Char) : Option (Lexing × List Token) :=
  match state with
  | .between => beginToken? c
  | .word chars =>
    if c.isAlpha then some (.word (c :: chars), [])
    else do
      let token ← wordToken? chars
      let (next, tokens) ← beginToken? c
      return (next, token :: tokens)
  | .number chars =>
    if isNumberChar c then some (.number (c :: chars), [])
    else do
      let token ← numberToken? chars
      let (next, tokens) ← beginToken? c
      return (next, token :: tokens)
  | .text chars =>
    if c = '"' then some (.between, [.text (String.ofList chars.reverse)])
    else if c = '\\' then some (.escape chars, [])
    else if c.toNat < 0x20 then none
    else some (.text (c :: chars), [])
  | .escape chars =>
    if c = 'u' then some (.unit chars none [], [])
    else (unescape? c).map fun d => (.text (d :: chars), [])
  | .unit chars first digits =>
    let digits := digits ++ [c]
    if digits.length < 4 then some (.unit chars first digits, [])
    else (endUnit? chars first digits).map (·, [])
  | .pair chars first slash =>
    if !slash && c = '\\' then some (.pair chars first true, [])
    else if slash && c = 'u' then some (.unit chars (some first) [], [])
    else none

/-- The token under way at the end of the text. -/
def Lexing.finish? : Lexing → Option (List Token)
  | .between => some []
  | .word chars => (wordToken? chars).map ([·])
  | .number chars => (numberToken? chars).map ([·])
  | _ => none

/-- The tokens of a text, read from a state on. -/
def Lexing.run? (state : Lexing) : List Char → Option (List Token)
  | [] => state.finish?
  | c :: rest => do
    let (next, tokens) ← state.step? c
    return tokens ++ (← next.run? rest)

def tokens? (text : String) : Option (List Token) := Lexing.between.run? text.toList

end RelMap.Json
