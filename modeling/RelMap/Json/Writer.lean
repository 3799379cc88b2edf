import RelMap.Json.Basic
import RelMap.Numeric.Notation
import RelMap.Text.Basic
import RelMap.Text.Quoted

/-!
The text of JSON documents: the compact form without blanks, and the form that diagnostics show.
-/
namespace RelMap.Json

open Text (joinWith)

/-- One character of a text, escaped where JSON asks for it. -/
def escaped (c : Char) : List Char :=
  if c = '"' || c = '\\' then ['\\', c]
  else if c = '\x08' then ['\\', 'b']
  else if c = '\x0c' then ['\\', 'f']
  else if c = '\n' then ['\\', 'n']
  else if c = '\r' then ['\\', 'r']
  else if c = '\t' then ['\\', 't']
  else if c.toNat < 0x20 then
    ['\\', 'u', '0', '0', Nat.digitChar (c.toNat / 16), Nat.digitChar (c.toNat % 16)]
  else [c]

def textLiteral (s : String) : String :=
  String.ofList ('"' :: s.toList.flatMap escaped ++ ['"'])

mutual
/-- The compact text of a document. -/
def compact : Json → String
  | .null => "null"
  | .bool b => if b then "true" else "false"
  | .int n => toString n
  | .float x => FloatNotation.document.format x
  | .str s => textLiteral s
  | .arr items => "[" ++ joinWith "," (compactItems items) ++ "]"
  | .obj entries => "\x7b" ++ joinWith "," (compactEntries entries) ++ "\x7d"

def compactItems : List Json → List String
  | [] => []
  | item :: rest => compact item :: compactItems rest

def compactEntries : List (String × Json) → List String
  | [] => []
  | (key, value) :: rest => (textLiteral key ++ ":" ++ compact value) :: compactEntries rest
end

mutual
/-- The text of a document in diagnostics, which names the kind of every value. -/
def diagnostic : Json → String
  | .null => "Null"
  | .bool b => "Bool(" ++ (if b then "true" else "false") ++ ")"
  | .int n => "Number(" ++ toString n ++ ")"
  | .float x => "Number(" ++ FloatNotation.document.format x ++ ")"
  | .str s => "String(" ++ Text.quoted s ++ ")"
  | .arr items => "Array [" ++ joinWith ", " (diagnosticItems items) ++ "]"
  | .obj entries => "Object \x7b" ++ joinWith ", " (diagnosticEntries entries) ++ "\x7d"

def diagnosticItems : List Json → List String
  | [] => []
  | item :: rest => diagnostic item :: diagnosticItems rest

def diagnosticEntries : List (String × Json) → List String
  | [] => []
  | (key, value) :: rest =>
    (Text.quoted key ++ ": " ++ diagnostic value) :: diagnosticEntries rest
end

end RelMap.Json
