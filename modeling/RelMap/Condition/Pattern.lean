import RelMap.Error
import RelMap.Text.Regex

/-!
Patterns of `LIKE`: a percent sign stands for any text, an underscore for any one character, and
every other character for itself. A pattern is translated to a regular expression, in which
neighbouring characters of the last kind form one literal part.
-/
namespace RelMap.Pattern

open Regex (Engine Part)

/-- The literal part of the characters collected so far, if there are any. -/
def flush (literal : List Char) : List Part :=
  if literal.isEmpty then [] else [.literal (String.ofList literal)]

/-- The parts of a pattern behind characters that have been collected. -/
def partsAfter (literal : List Char) : List Char → List Part
  | [] => flush literal
  | c :: rest =>
    if c = '%' then flush literal ++ .anyRun :: partsAfter [] rest
    else if c = '_' then flush literal ++ .any :: partsAfter [] rest
    else partsAfter (literal ++ [c]) rest

variable [Engine]

/-- The pattern as a regular expression. -/
def expression (pattern : String) : String := Regex.write (partsAfter [] pattern.toList)

/-- What the engine makes of a pattern. -/
def compile (pattern : String) : Except Error (String → Bool) :=
  (Engine.compile (expression pattern)).mapError fun reason =>
    .hydration (.invalidPattern pattern reason)

/-- Whether the pattern covers the whole text. -/
def isMatch (pattern text : String) : Except Error Bool :=
  return (← compile pattern) text

end RelMap.Pattern
