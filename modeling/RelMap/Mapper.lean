import RelMap.Condition.Render
import RelMap.Join.Basic
import RelMap.Schema.Registry

/-!
A mapper: the declared models, the dialect of the database, and the options of its queries.
-/
namespace RelMap

/-- What all queries of a mapper have in common. -/
structure Options where
  /-- Whether statements are logged. -/
  logSql : Bool := true
  /-- How included models are joined. -/
  defaultJoin : JoinKind := .left
  /-- The number of relations that an include may follow. -/
  maxIncludeDepth : Nat := 8
  deriving DecidableEq

structure Mapper where
  registry : Registry
  dialect : Dialect
  options : Options := {}

namespace Mapper

/-- The scope of conditions on the bare columns of a model. -/
def bareScope (m : Mapper) (model : String) : Scope :=
  { registry := m.registry, model, label := "", dialect := some m.dialect }

/-- Quoted identifiers with commas between them. -/
def quoteAll (m : Mapper) (identifiers : List String) : String :=
  Text.joinWith ", " (identifiers.map m.dialect.quote)

/-- The clause by which a statement that writes returns fields; nothing without fields. -/
def returning (m : Mapper) (model : String) (fields : List String) : Except Error String :=
  if fields.isEmpty then .ok ""
  else if !m.dialect.supportsReturning then .error (.returningUnsupported m.dialect.name)
  else return " RETURNING " ++ m.quoteAll (← m.registry.fieldsToColumns model fields)

end Mapper
end RelMap
