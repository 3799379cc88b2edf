import RelMap.Error
import RelMap.OrderedMap
import RelMap.Schema.Naming

/-!
Declared models: their fields, the columns these are kept in, their keys and their relations.
-/
namespace RelMap

/-- The types of fields. -/
inductive FieldType where
  | string
  | int
  | int64
  | float
  | bool
  | dateTime
  | json
  | decimal
  | bytes
  deriving DecidableEq

/-- Every type of field with its name in declarations. -/
def FieldType.names : List (FieldType × String) :=
  [(.string, "string"), (.int, "int"), (.int64, "int64"), (.float, "float"), (.bool, "bool"),
    (.dateTime, "date_time"), (.json, "json"), (.decimal, "decimal"), (.bytes, "bytes")]

structure Field where
  name : String
  type : FieldType := .string
  /-- The column, where it is not named as the field. -/
  column : Option String := none
  primaryKey : Bool := false
  autoIncrement : Bool := false
  nullable : Bool := false
  unique : Bool := false
  default : Option Value := none

def Field.columnName (f : Field) : String := f.column.getD f.name

inductive RelationKind where
  | oneToOne
  | oneToMany
  | manyToOne
  | manyToMany
  deriving DecidableEq

/-- Every kind of relation with its name in declarations. -/
def RelationKind.names : List (RelationKind × String) :=
  [(.oneToOne, "oneToOne"), (.oneToMany, "oneToMany"), (.manyToOne, "manyToOne"),
    (.manyToMany, "manyToMany")]

def RelationKind.isToMany : RelationKind → Bool
  | .oneToMany => true
  | .manyToMany => true
  | _ => false

/-- What happens to a record when the one it refers to is deleted or changed. -/
inductive ReferentialAction where
  | cascade
  | restrict
  | setNull
  | setDefault
  | noAction
  deriving DecidableEq

/-- Every referential action with its name in declarations. -/
def ReferentialAction.names : List (ReferentialAction × String) :=
  [(.cascade, "Cascade"), (.restrict, "Restrict"), (.setNull, "SetNull"),
    (.setDefault, "SetDefault"), (.noAction, "NoAction")]

structure Relation where
  kind : RelationKind
  model : String
  /-- The field that refers to the other model; a many-to-many relation has none. -/
  foreignKey : String := ""
  /-- The field referred to, the primary key by default. -/
  references : Option String := none
  onDelete : Option ReferentialAction := none
  onUpdate : Option ReferentialAction := none
  deriving DecidableEq

structure Model where
  name : String
  table : String
  fields : List Field := []
  relations : List (String × Relation) := []
  /-- The fields that form the key together; empty where one field is the key. -/
  compositeKey : List String := []

namespace Model

/-- A model without fields in its conventional table. -/
def named (name : String) : Model := { name, table := Naming.tableName name }

/-- Declares a relation; of two with one name the later one takes the place of the first. -/
def addRelation (m : Model) (name : String) (relation : Relation) : Model :=
  { m with relations := OrderedMap.insert name relation m.relations }

def field? (m : Model) (name : String) : Option Field :=
  m.fields.find? fun f => f.name = name

def fieldByColumn? (m : Model) (column : String) : Option Field :=
  m.fields.find? fun f => f.columnName = column

/-- The column of a declared field. -/
def columnName (m : Model) (field : String) : Except Error String :=
  match m.field? field with
  | some f => .ok f.columnName
  | none => .error (.unknownField m.name field)

def columnNames (m : Model) : List String := m.fields.map Field.columnName

/-- The column of a field; a name that is not declared stands for itself. -/
def toColumn (m : Model) (field : String) : String :=
  ((m.field? field).map Field.columnName).getD field

/-- The field in a column; a column of no declared field stands for itself. -/
def toField (m : Model) (column : String) : String :=
  ((m.fieldByColumn? column).map Field.name).getD column

def primaryKeyFields (m : Model) : List Field :=
  if m.compositeKey.isEmpty then m.fields.filter Field.primaryKey
  else m.compositeKey.filterMap m.field?

/-- The first field of the key, `id` where none is declared. -/
def primaryKeyName (m : Model) : String :=
  match m.primaryKeyFields with
  | f :: _ => f.name
  | [] => "id"

def hasRelation (m : Model) (name : String) : Bool := OrderedMap.contains m.relations name

def relation (m : Model) (name : String) : Except Error Relation :=
  match OrderedMap.find? name m.relations with
  | some r => .ok r
  | none => .error (.unknownRelation m.name name)

/-- The first fault of a declaration, its name apart. -/
def fault? (m : Model) : Option ModelFault :=
  let flagged := (m.fields.filter Field.primaryKey).length
  if m.table.isEmpty then some .noTable
  else if m.fields.isEmpty then some .noFields
  else if 1 < flagged then some .severalKeys
  else if flagged = 1 && !m.compositeKey.isEmpty then some .mixedKeys
  else match m.compositeKey.find? fun name => (m.field? name).isNone with
    | some field => some (.missingKeyField field)
    | none => if flagged = 0 && m.compositeKey.isEmpty then some .noKey else none

def validate (m : Model) : Except Error Unit :=
  if m.name.isEmpty then .error (.configuration .namelessModel)
  else match m.fault? with
    | some fault => .error (.configuration (.invalidModel m.name fault))
    | none => .ok ()

end Model
end RelMap
