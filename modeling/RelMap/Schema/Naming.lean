import RelMap.Text.LetterCase

/-!
Conventional names: the table of a model is its name in snake case and in the plural, and the
table between two models joins both names.
-/
namespace RelMap.Naming

/-- Lowers camel case after the character `before`, with an underscore where a word begins. -/
def snakeAfter (before : Option Char) : List Char → List Char
  | [] => []
  | c :: rest =>
    let begins := c.isUpper && before.any fun b =>
      b.isLower || b.isDigit || (b.isUpper && rest.head?.any Char.isLower)
    (if begins then ['_', c.toLower] else [c.toLower]) ++ snakeAfter (some c) rest

/-- Words of camel case are those of ASCII letters and digits. -/
def camelToSnake (name : String) : String := String.ofList (snakeAfter none name.toList)

def isVowel (c : Char) : Bool := ['a', 'e', 'i', 'o', 'u'].contains c.toLower

/-- What precedes `ending`, if the word ends with it. -/
def stem? (ending : String) (word : List Char) : Option (List Char) :=
  Text.dropEnding? ending.toList word

/-- The plural of a word in lowercase letters. -/
def pluralChars (word : List Char) : List Char :=
  if ["s", "x", "z", "ch", "sh"].any fun ending => (stem? ending word).isSome then
    word ++ ['e', 's']
  else
    let consonantY := (stem? "y" word).filter fun stem => stem.getLast?.any fun c => !isVowel c
    match consonantY, stem? "f" word, stem? "fe" word with
    | some stem, _, _ => stem ++ ['i', 'e', 's']
    | none, some stem, _ => stem ++ ['v', 'e', 's']
    | none, none, some stem => stem ++ ['v', 'e', 's']
    | none, none, none => word ++ ['s']

/-- The plural of a word, in lowercase. -/
def pluralize (word : String) : String :=
  if word.isEmpty then "" else String.ofList (pluralChars (Text.lower word).toList)

/-- The singular of the name of a table. -/
def singularize (table : String) : String :=
  match stem? "ies" table.toList, stem? "s" table.toList with
  | some stem, _ => String.ofList (stem ++ ['y'])
  | none, some stem => String.ofList stem
  | none, none => table

/-- The conventional table of a model. -/
def tableName (model : String) : String := pluralize (camelToSnake model)

/-- The table between two models, the same whichever comes first unless both names differ in
letter case only. -/
def junctionTable (a b : String) : String :=
  if a = b then
    let table := tableName a
    let single := ((stem? "s" table.toList).map String.ofList).getD table
    single ++ "_" ++ table
  else
    let (first, second) := if Text.lower b < Text.lower a then (b, a) else (a, b)
    singularize (tableName first) ++ "_" ++ tableName second

end RelMap.Naming
