import RelMap.Error.Fault

/-!
Errors: what went wrong while a query was resolved, built, run or hydrated. Every error can be
wrapped in the operations during which it arose.
-/
namespace RelMap

inductive Error where
  | unknownModel (model : String)
  | unknownField (model field : String)
  | unknownRelation (model relation : String)
  | unsupportedRelation (fault : RelationFault)
  | noInsertData
  | noUpdateData
  | noReturningFields
  | returningUnsupported (backend : String)
  | unboundedDelete (model : String)
  | unboundedUpdate (model : String)
  | noAggregations
  | invalidQuery (fault : QueryFault)
  | doesNotExist (text : String)
  | multipleObjects (text : String)
  | database (text : String)
  | integrity (text : String)
  | operational (text : String)
  | hydration (fault : HydrationFault)
  | configuration (fault : ConfigFault)
  | serialization (text : String)
  | io (text : String)
  | during (operation : String) (cause : Error)
  deriving Inhabited

namespace Error

/-- The whole text, with the operations in front. -/
def message : Error → String
  | .unknownModel model => s!"Unknown model: {model}"
  | .unknownField model field => s!"Unknown field '{field}' on model '{model}'"
  | .unknownRelation model relation => s!"Unknown relation '{relation}' on model '{model}'"
  | .unsupportedRelation fault => "Unsupported relation: " ++ fault.message
  | .noInsertData => "No data to insert"
  | .noUpdateData => "No data to update"
  | .noReturningFields => "No returning fields specified"
  | .returningUnsupported backend => s!"RETURNING is not supported by {backend}"
  | .unboundedDelete model => s!"Refusing to delete from '{model}' without a WHERE condition"
  | .unboundedUpdate model => s!"Refusing to update '{model}' without a WHERE condition"
  | .noAggregations => "Aggregate query requires at least one field or aggregation"
  | .invalidQuery fault => "Invalid query: " ++ fault.message
  | .doesNotExist text => s!"Object does not exist: {text}"
  | .multipleObjects text => s!"Multiple objects returned when one expected: {text}"
  | .database text => s!"Database error: {text}"
  | .integrity text => s!"Integrity error: {text}"
  | .operational text => s!"Operational error: {text}"
  | .hydration fault => "Hydration error: " ++ fault.message
  | .configuration fault => "Configuration error: " ++ fault.message
  | .serialization text => s!"Serialization error: {text}"
  | .io text => s!"IO error: {text}"
  | .during operation cause => s!"{operation}: " ++ cause.message

/-- The error without the operations around it. -/
def root : Error → Error
  | .during _ cause => cause.root
  | error => error

/-- The name of the kind of an error, the same whatever operations are around it. -/
def kindName : Error → String
  | .unknownModel _ => "UnknownModel"
  | .unknownField _ _ => "UnknownField"
  | .unknownRelation _ _ => "UnknownRelation"
  | .unsupportedRelation _ => "UnsupportedRelation"
  | .noInsertData => "NoInsertData"
  | .noUpdateData => "NoUpdateData"
  | .noReturningFields => "NoReturningFields"
  | .returningUnsupported _ => "ReturningUnsupported"
  | .unboundedDelete _ => "UnboundedDelete"
  | .unboundedUpdate _ => "UnboundedUpdate"
  | .noAggregations => "NoAggregations"
  | .invalidQuery _ => "InvalidQuery"
  | .doesNotExist _ => "DoesNotExist"
  | .multipleObjects _ => "MultipleObjectsReturned"
  | .database _ => "DatabaseError"
  | .integrity _ => "IntegrityError"
  | .operational _ => "OperationalError"
  | .hydration _ => "HydrationError"
  | .configuration _ => "ConfigurationError"
  | .serialization _ => "SerializationError"
  | .io _ => "IoError"
  | .during _ cause => cause.kindName

/-- The text of what caused the error, if that is an error of its own. -/
def source? : Error → Option String
  | .during _ cause => some cause.message
  | .io text => some text
  | _ => none

/-- Whether a name could not be resolved in the declared models. -/
def isResolution (error : Error) : Bool :=
  match error.root with
  | .unknownModel _ => true
  | .unknownField _ _ => true
  | .unknownRelation _ _ => true
  | .unsupportedRelation _ => true
  | _ => false

/-- Whether a query could not be made into a statement. -/
def isConstruction (error : Error) : Bool :=
  match error.root with
  | .noInsertData => true
  | .noUpdateData => true
  | .noReturningFields => true
  | .returningUnsupported _ => true
  | .unboundedDelete _ => true
  | .unboundedUpdate _ => true
  | .noAggregations => true
  | .invalidQuery _ => true
  | _ => false

end Error
end RelMap
