import RelMap.Dialect.Basic
import RelMap.Schema.Model

/-!
Joins: the tables that a statement reads beside that of its model, and how their rows are
matched.
-/
namespace RelMap

inductive JoinKind where
  | inner
  | left
  | right
  | full
  deriving DecidableEq

namespace JoinKind

def sql : JoinKind → String
  | .inner => "INNER JOIN"
  | .left => "LEFT JOIN"
  | .right => "RIGHT JOIN"
  | .full => "FULL OUTER JOIN"

/-- The kind of a name in any letter case. -/
def parse (name : String) : Except Error JoinKind :=
  match Text.lower name with
  | "inner" => .ok .inner
  | "left" => .ok .left
  | "right" => .ok .right
  | "full" => .ok .full
  | other => .error (.configuration (.unknownJoin other))

end JoinKind

/-- Two columns that must be equal. -/
structure JoinPredicate where
  leftLabel : String
  leftColumn : String
  rightLabel : String
  rightColumn : String
  deriving DecidableEq

def JoinPredicate.sql (d : Dialect) (p : JoinPredicate) : String :=
  d.quote p.leftLabel ++ "." ++ d.quote p.leftColumn ++ " = "
    ++ d.quote p.rightLabel ++ "." ++ d.quote p.rightColumn

/-- A joined table, under a label of its own. -/
structure Join where
  kind : JoinKind
  table : String
  label : String
  predicate : JoinPredicate
  /-- The model of the table; a table between two models has none. -/
  model : Option String
  relationName : String
  relation : Option Relation
  /-- The label of the table from which the relation leads. -/
  parent : String
  /-- The relations from the model of the statement to this one, with dots between them. -/
  path : String
  deriving DecidableEq

namespace Join

def isJunction (j : Join) : Bool := j.model.isNone

def sql (d : Dialect) (j : Join) : String :=
  j.kind.sql ++ " " ++ d.quote j.table ++ " AS " ++ d.quote j.label ++ " ON " ++ j.predicate.sql d

/-- All joins of a statement. -/
def sqlOfAll (d : Dialect) (joins : List Join) : String :=
  Text.joinWith " " (joins.map (sql d))

end Join
end RelMap
