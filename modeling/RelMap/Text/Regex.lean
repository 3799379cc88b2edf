import RelMap.Text.Basic

/-!
Regular expressions for whole texts: literal parts, a dot for any one character, and a dot with an
asterisk for any run of characters. An engine reads expressions from their written form, in which
the characters with a meaning of their own are escaped.
-/
namespace RelMap.Regex

inductive Part where
  | literal (text : String)
  | any
  | anyRun

/-- What evaluates expressions: how a text is escaped in them, and which texts an expression
accepts, or why it cannot be read. -/
class Engine where
  escape : String → String
  compile : String → Except String (String → Bool)

def Part.write [Engine] : Part → String
  | .literal text => Engine.escape text
  | .any => "."
  | .anyRun => ".*"

/-- The parts one after the other. -/
def writeParts [Engine] : List Part → String
  | [] => ""
  | part :: rest => part.write ++ writeParts rest

/-- The expression with these parts for whole texts. The flag lets a dot stand for the end of a line
as well. -/
def write [Engine] (parts : List Part) : String := "(?s)^" ++ writeParts parts ++ "$"

/-- The characters with a meaning of their own in an expression. -/
def isMeta (c : Char) : Bool := Text.contains "\\.+*?()|[]\x7b\x7d^$#&-~" c

def escape (text : String) : String :=
  String.ofList (text.toList.flatMap fun c => if isMeta c then ['\\', c] else [c])

/-- The part that is this character. -/
def Part.char (c : Char) : Part := .literal (String.ofList [c])

/-- Reads parts up to the end of the expression. No other meanings of characters are read than those
that parts are written with. -/
def readParts? : List Char → Option (List Part)
  | ['$'] => some []
  | '.' :: '*' :: rest => (readParts? rest).map (.anyRun :: ·)
  | '.' :: rest => (readParts? rest).map (.any :: ·)
  | '\\' :: c :: rest => if isMeta c then (readParts? rest).map (.char c :: ·) else none
  | c :: rest => if isMeta c then none else (readParts? rest).map (.char c :: ·)
  | [] => none

def read? (expression : String) : Option (List Part) :=
  (Text.dropStart? "(?s)^".toList expression.toList).bind readParts?

/-- A text and all its ends, the longest first. -/
def suffixes : List Char → List (List Char)
  | [] => [[]]
  | c :: rest => (c :: rest) :: suffixes rest

/-- What may follow in the text after a part, given all that may follow before it with the longest
first. -/
def Part.step (part : Part) (rests : List (List Char)) : List (List Char) :=
  match part with
  | .literal text => rests.filterMap (Text.dropStart? text.toList)
  | .any => rests.filterMap List.tail?
  | .anyRun =>
    match rests with
    | [] => []
    | longest :: _ => suffixes longest

/-- Whether the parts make up the whole text. -/
def accepts (parts : List Part) (text : String) : Bool :=
  (parts.foldl (fun rests part => part.step rests) [text.toList]).any List.isEmpty

/-- The engine of this library. -/
instance engine : Engine where
  escape := escape
  compile expression :=
    match read? expression with
    | some parts => .ok (accepts parts)
    | none => .error "the expression is not made of known parts"

end RelMap.Regex
