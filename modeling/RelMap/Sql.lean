import RelMap.Text.Basic
import RelMap.Value.Basic

/-!
SQL text together with the arguments of its placeholders, in the order in which they stand.
-/
namespace RelMap

structure Sql where
  text : String
  args : List Value := []

namespace Sql

open Text (joinWith)

/-- A clause after a blank and its keyword; nothing for an empty body. -/
def clause (keyword body : String) : String :=
  if body.isEmpty then ""
  else if keyword.isEmpty then " " ++ body
  else " " ++ keyword ++ " " ++ body

def parenthesized (text : String) : String := "(" ++ text ++ ")"

/-- The parts that say something. -/
def nonEmpty (parts : List Sql) : List Sql := parts.filter fun part => !part.text.isEmpty

/-- The parts that say something, each in parentheses, with `joiner` between them. -/
def group (joiner : String) (parts : List Sql) : Sql :=
  let parts := nonEmpty parts
  ⟨joinWith joiner (parts.map fun part => parenthesized part.text), parts.flatMap Sql.args⟩

/-- The conjunction of the parts that say something; a single one needs no parentheses. -/
def conjunction (parts : List Sql) : Sql :=
  match nonEmpty parts with
  | [part] => part
  | _ => group " AND " parts

end Sql
end RelMap
