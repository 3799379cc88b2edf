import RelMap.Record
import RelMap.Schema.Model

/-!
The registry of declared models, and the passage between the fields of records and the columns
of tables.
-/
namespace RelMap

/-- Models by name; one registered later replaces an earlier one of its name. -/
structure Registry where
  models : List (String × Model) := []

namespace Registry

def register (g : Registry) (m : Model) : Registry :=
  { g with models := OrderedMap.insert m.name m g.models }

def ofModels (models : List Model) : Registry := models.foldl register {}

def contains (g : Registry) (model : String) : Bool := OrderedMap.contains g.models model

/-- The names of all models, in order. -/
def modelNames (g : Registry) : List String := (OrderedMap.keys g.models).mergeSort (· ≤ ·)

def model (g : Registry) (name : String) : Except Error Model :=
  match OrderedMap.find? name g.models with
  | some m => .ok m
  | none => .error (.unknownModel name)

/-- Checks every declaration and that every relation leads to a registered model. -/
def validate (g : Registry) : Except Error Unit :=
  g.models.forM fun (_, m) => do
    m.validate
    m.relations.forM fun (name, relation) =>
      if g.contains relation.model then .ok ()
      else .error (.configuration (.unknownTarget name m.name relation.model))

def modelToTable (g : Registry) (model : String) : Except Error String :=
  return (← g.model model).table

def fieldToColumn (g : Registry) (model field : String) : Except Error String :=
  return (← g.model model).toColumn field

def columnToField (g : Registry) (model column : String) : Except Error String :=
  return (← g.model model).toField column

def fieldsToColumns (g : Registry) (model : String) (fields : List String) :
    Except Error (List String) :=
  fields.mapM (g.fieldToColumn model)

/-- The values of a record under the columns of its fields. -/
def recordToColumns (g : Registry) (model : String) (record : Record) :
    Except Error (List (String × Value)) :=
  record.fields.mapM fun (field, value) => return (← g.fieldToColumn model field, value)

/-- The record of a row, as far as there are both columns and values. -/
def columnsToRecord (g : Registry) (model : String) (columns : List String)
    (values : List Value) : Except Error Record :=
  return Record.ofFields (← (columns.zip values).mapM fun (column, value) =>
    return (← g.columnToField model column, value))

end Registry
end RelMap
