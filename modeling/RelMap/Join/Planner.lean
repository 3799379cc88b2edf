import RelMap.Join.Basic
import RelMap.Join.Label
import RelMap.Schema.Registry

/-!
The planning of joins. A planner follows relations from one model to another; it joins every path
of relations once and gives every joined table a label that is not in use.
-/
namespace RelMap

structure Planner where
  registry : Registry
  /-- The label of the table from which all paths start. -/
  rootLabel : String
  joins : List Join := []
  /-- The number of labels tried on a base. It has no bound: it starts at 0, or at 1 for a label set
  aside, and grows by one with each label tried, so that 64 bits would never be too few. -/
  counts : List (String × Nat) := []
  used : List String := []
  /-- The label at the end of each joined path. -/
  paths : List (String × String) := []

namespace Planner

/-- Sets a label aside. -/
def reserve (p : Planner) (label : String) : Planner :=
  { p with
    counts := OrderedMap.insertNew label 1 p.counts
    used := if label ∈ p.used then p.used else label :: p.used }

/-- A planner without joins, whose root has a label. -/
def start (registry : Registry) (rootLabel : String) : Planner :=
  reserve { registry, rootLabel } rootLabel

/-- A new label for a table. -/
def freshLabel (p : Planner) (table : String) : String × Planner :=
  let base := Label.base table
  let n := Label.firstFree base ((OrderedMap.find? base p.counts).getD 0 + 1) p.used
  let label := Label.candidate base n
  (label, { p with counts := OrderedMap.insert base n p.counts, used := label :: p.used })

def labelAt? (p : Planner) (path : String) : Option String := OrderedMap.find? path p.paths

/-- The path that a relation continues from the table with this label. -/
def pathFrom (p : Planner) (label relation : String) : String :=
  if label = p.rootLabel then relation
  else match p.joins.find? fun j => j.label = label with
    | some parent => parent.path ++ "." ++ relation
    | none => relation

def push (p : Planner) (j : Join) : Planner := { p with joins := p.joins ++ [j] }

/-- Adds the join at the end of a path. -/
def pushPath (p : Planner) (j : Join) : Planner :=
  { p.push j with paths := OrderedMap.insert j.path j.label p.paths }

/-- A relation and the model that declares it. -/
def declaration (registry : Registry) (model relation : String) :
    Except Error (Model × Relation) := do
  let source ← registry.model model
  return (source, ← source.relation relation)

/-- The foreign key is in the model that the relation leads from. -/
def forwardPredicate (r : Relation) (source target : Model) (sourceLabel targetLabel : String) :
    Except Error JoinPredicate :=
  return {
    leftLabel := sourceLabel
    leftColumn := ← source.columnName r.foreignKey
    rightLabel := targetLabel
    rightColumn := ← target.columnName (r.references.getD target.primaryKeyName) }

/-- The foreign key is in the model that the relation leads to. -/
def backwardPredicate (r : Relation) (source target : Model) (sourceLabel targetLabel : String) :
    Except Error JoinPredicate :=
  return {
    leftLabel := targetLabel
    leftColumn := ← target.columnName r.foreignKey
    rightLabel := sourceLabel
    rightColumn := ← source.columnName (r.references.getD source.primaryKeyName) }

/-- How the rows of two directly related models are matched. A one-to-one relation has its
foreign key in whichever model declares that field, the first one first. -/
def predicate (r : Relation) (source target : Model) (sourceLabel targetLabel : String) :
    Except Error JoinPredicate :=
  match r.kind with
  | .manyToOne => forwardPredicate r source target sourceLabel targetLabel
  | .oneToMany => backwardPredicate r source target sourceLabel targetLabel
  | .oneToOne =>
    if (source.field? r.foreignKey).isSome then
      forwardPredicate r source target sourceLabel targetLabel
    else backwardPredicate r source target sourceLabel targetLabel
  | .manyToMany => .error (.unsupportedRelation (.needsJunction r.model))

/-- The column of a table between two models that refers to the model of `table`. -/
def junctionColumn (table : String) : String := Text.lower table ++ "_id"

/-- Joins a directly related model. -/
def addDirect (p : Planner) (source target : Model) (r : Relation) (label name path : String)
    (kind : JoinKind) : Except Error String × Planner :=
  let (targetLabel, p) := p.freshLabel target.table
  match predicate r source target label targetLabel with
  | .error e => (.error e, p)
  | .ok matched =>
    (.ok targetLabel, p.pushPath {
      kind, path, table := target.table, label := targetLabel, predicate := matched
      model := some r.model, relationName := name, relation := some r, parent := label })

/-- Joins the table between two models. -/
def addJunction (p : Planner) (source : Model) (r : Relation) (model label name path : String)
    (kind : JoinKind) : Except Error String × Planner :=
  let table := Naming.junctionTable model r.model
  let (junctionLabel, p) := p.freshLabel table
  match source.columnName source.primaryKeyName with
  | .error e => (.error e, p)
  | .ok column =>
    (.ok junctionLabel, p.push {
      kind, table, label := junctionLabel
      predicate := ⟨label, column, junctionLabel, junctionColumn source.table⟩
      model := none, relationName := name, relation := none, parent := label
      path := path ++ "#" ++ table })

/-- Joins the model on the far side of the table between two models. -/
def addFarSide (p : Planner) (target : Model) (r : Relation) (junctionLabel label name : String)
    (path : String) (kind : JoinKind) : Except Error String × Planner :=
  let (targetLabel, p) := p.freshLabel target.table
  match target.columnName (r.references.getD target.primaryKeyName) with
  | .error e => (.error e, p)
  | .ok column =>
    (.ok targetLabel, p.pushPath {
      kind, path, table := target.table, label := targetLabel
      predicate := ⟨junctionLabel, junctionColumn target.table, targetLabel, column⟩
      model := some r.model, relationName := name, relation := some r, parent := label })

/-- Follows a many-to-many relation from the table with this label, by way of the table between
both models. -/
def addManyToMany (p : Planner) (model label name : String) (kind : JoinKind) :
    Except Error String × Planner :=
  let path := p.pathFrom label name
  match p.labelAt? path with
  | some known => (.ok known, p)
  | none =>
    match declaration p.registry model name with
    | .error e => (.error e, p)
    | .ok (source, r) =>
      if r.kind ≠ .manyToMany then
        (.error (.unsupportedRelation (.notManyToMany name model)), p)
      else if r.model = model then
        (.error (.unsupportedRelation (.selfReferential name model)), p)
      else match p.registry.model r.model with
        | .error e => (.error e, p)
        | .ok target =>
          match p.addJunction source r model label name path kind with
          | (.error e, p) => (.error e, p)
          | (.ok junctionLabel, p) => p.addFarSide target r junctionLabel label name path kind

/-- Follows a relation from the table with this label. A path that is joined already keeps its
label. -/
def addRelation (p : Planner) (model label name : String) (kind : JoinKind) :
    Except Error String × Planner :=
  let path := p.pathFrom label name
  match p.labelAt? path with
  | some known => (.ok known, p)
  | none =>
    match declaration p.registry model name with
    | .error e => (.error e, p)
    | .ok (source, r) =>
      if r.kind = .manyToMany then p.addManyToMany model label name kind
      else match p.registry.model r.model with
        | .error e => (.error e, p)
        | .ok target => p.addDirect source target r label name path kind

/-- Follows one relation after the other. A many-to-many relation can only be the last one. -/
def addPath (p : Planner) (model label : String) (kind : JoinKind) :
    List String → Except Error String × Planner
  | [] => (.ok label, p)
  | name :: rest =>
    match declaration p.registry model name with
    | .error e => (.error e, p)
    | .ok (_, r) =>
      if r.kind = .manyToMany ∧ rest ≠ [] then
        (.error (.unsupportedRelation (.notTraversable name model)), p)
      else match p.addRelation model label name kind with
        | (.error e, p) => (.error e, p)
        | (.ok next, p) => p.addPath r.model next kind rest

/-- The relations of a path that is written with dots between them. -/
def segments (path : String) : List String := (path.toList.splitOn '.').map String.ofList

/-- Follows relations from the root. -/
def follow (p : Planner) (model : String) (kind : JoinKind) (relations : List String) :
    Except Error Planner :=
  match p.addPath model p.rootLabel kind relations with
  | (.ok _, p) => .ok p
  | (.error e, _) => .error e

def sql (p : Planner) (d : Dialect) : String := Join.sqlOfAll d p.joins

end Planner
end RelMap
