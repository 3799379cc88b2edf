import RelMap.Error
import RelMap.OrderedMap
import RelMap.Value.Document

/-!
Records: the named values of one row, with the records related to it. Fields and relations keep
the order in which they were first set; two records are the same whatever that order is.
-/
namespace RelMap

mutual
/-- Named values, and named related records. -/
structure Record where
  fields : List (String × Value) := []
  relations : List (String × Related) := []

/-- What a relation leads to. -/
inductive Related where
  | one (record : Option Record)
  | many (records : List Record)
end

instance : Inhabited Record := ⟨{}⟩
instance : Inhabited Related := ⟨.one none⟩

namespace Record

/-- The record with these fields; of two with one name the later value takes the first place. -/
def ofFields (fields : List (String × Value)) : Record := { fields := OrderedMap.ofList fields }

def get? (r : Record) (field : String) : Option Value := OrderedMap.find? field r.fields

/-- The value of a field, `NULL` where it is missing. -/
def get (r : Record) (field : String) : Value := (r.get? field).getD .null

def set (r : Record) (field : String) (value : Value) : Record :=
  { r with fields := OrderedMap.insert field value r.fields }

def erase (r : Record) (field : String) : Record :=
  { r with fields := OrderedMap.erase field r.fields }

def contains (r : Record) (field : String) : Bool := OrderedMap.contains r.fields field

def fieldNames (r : Record) : List String := OrderedMap.keys r.fields

/-- The number of fields. -/
def size (r : Record) : Nat := r.fields.length

/-- Whether there is neither a field nor a relation. -/
def isEmpty (r : Record) : Bool := r.fields.isEmpty && r.relations.isEmpty

/-- Whether no field holds a value. -/
def allNull (r : Record) : Bool := r.fields.all fun field => field.2.isNull

/-- Keeps the fields whose names pass; relations stay. -/
def retain (r : Record) (keep : String → Bool) : Record :=
  { r with fields := r.fields.filter fun field => keep field.1 }

def relation? (r : Record) (name : String) : Option Related := OrderedMap.find? name r.relations

def setRelation (r : Record) (name : String) (related : Related) : Record :=
  { r with relations := OrderedMap.insert name related r.relations }

/-- Changes what a relation leads to, if the record has it. -/
def updateRelation (r : Record) (name : String) (change : Related → Related) : Record :=
  match r.relation? name with
  | some related => r.setRelation name (change related)
  | none => r

/-- The records of a to-many relation. -/
def many? (r : Record) (name : String) : Option (List Record) :=
  match r.relation? name with
  | some (.many records) => some records
  | _ => none

/-- The record of a to-one relation. -/
def one? (r : Record) (name : String) : Option Record :=
  match r.relation? name with
  | some (.one record) => record
  | _ => none

end Record

mutual
/-- The document with all fields and relations, in the order of their names; a relation hides a
field of its name. -/
def Record.toJson : Record → Json
  | ⟨fields, relations⟩ =>
    .ofEntries (fields.map (fun field => (field.1, field.2.toJson)) ++ relationsToJson relations)

def Related.toJson : Related → Json
  | .one none => .null
  | .one (some record) => record.toJson
  | .many records => .arr (recordsToJson records)

def relationsToJson : List (String × Related) → List (String × Json)
  | [] => []
  | (name, related) :: rest => (name, related.toJson) :: relationsToJson rest

def recordsToJson : List Record → List Json
  | [] => []
  | record :: rest => record.toJson :: recordsToJson rest
end

mutual
/-- Whether two records have the same fields and relations, in any order. -/
def Record.equal : Record → Record → Bool
  | ⟨fields, relations⟩, other =>
    fields.length == other.fields.length && relations.length == other.relations.length
      && fields.all (fun field => match OrderedMap.find? field.1 other.fields with
        | some value => field.2.equal value
        | none => false)
      && relationsEqual relations other.relations

def Related.equal : Related → Related → Bool
  | .one none, .one none => true
  | .one (some a), .one (some b) => a.equal b
  | .many as, .many bs => recordsEqual as bs
  | _, _ => false

/-- Whether every relation of the first list is found in the second one. -/
def relationsEqual : List (String × Related) → List (String × Related) → Bool
  | [], _ => true
  | (name, related) :: rest, others =>
    (match OrderedMap.find? name others with
      | some other => related.equal other
      | none => false) && relationsEqual rest others

def recordsEqual : List Record → List Record → Bool
  | [], [] => true
  | a :: as, b :: bs => a.equal b && recordsEqual as bs
  | _, _ => false
end

/-- Reads a record into another shape by way of its document. -/
def Record.populate {α : Type} (r : Record) (shape : String) (decode : Json → Except String α) :
    Except Error α :=
  match decode r.toJson with
  | .ok a => .ok a
  | .error reason => .error (.hydration (.unfit shape reason))

end RelMap
