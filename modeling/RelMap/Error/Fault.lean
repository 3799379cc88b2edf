import RelMap.Value.Text

/-!
The causes behind the broader kinds of errors, and their wording. Each kind also has a cause that
somebody outside the library worded, such as a database.
-/
namespace RelMap

/-- Why a relation cannot be joined. -/
inductive RelationFault where
  | notTraversable (relation model : String)
  | notManyToMany (relation model : String)
  | selfReferential (relation model : String)
  | needsJunction (target : String)
  | reported (text : String)

def RelationFault.message : RelationFault → String
  | .notTraversable relation model =>
    s!"many-to-many relation '{relation}' on '{model}' cannot be traversed by a nested include"
  | .notManyToMany relation model => s!"relation '{relation}' on '{model}' is not many-to-many"
  | .selfReferential relation model =>
    s!"self-referential many-to-many relation '{relation}' on '{model}'"
  | .needsJunction target => s!"many-to-many relation to '{target}' requires a junction join"
  | .reported text => text

/-- Why a query has no statement. -/
inductive QueryFault where
  | conditionNotJoined (model root : String)
  | includePath (path : String)
  | includeDepth (path : String) (limit : Nat)
  | pagedConditions (model : String)
  | rowFields (index : Nat) (model : String)
  | emptyRows (model : String)
  | emptyUpsert (model : String)
  | reported (text : String)

def QueryFault.message : QueryFault → String
  | .conditionNotJoined model root =>
    s!"condition on {model}, which is not joined into the {root} query"
  | .includePath path => s!"invalid include path '{path}'"
  | .includeDepth path limit => s!"include path '{path}' is deeper than {limit} relations"
  | .pagedConditions model =>
    s!"conditions on included models cannot be combined with limit or offset on {model}"
  | .rowFields index model =>
    s!"row {index} inserted into {model} has different fields than the first row"
  | .emptyRows model => s!"a multi-row insert into {model} needs at least one field"
  | .emptyUpsert model => s!"an upsert into {model} has no fields to update"
  | .reported text => text

/-- Why rows or values do not become records. -/
inductive HydrationFault where
  | rowWidth (values columns : Nat)
  | missingColumn (column : String)
  | columnRange (index width : Nat)
  | mismatch (expected : String) (found : Value)
  | tooLarge (target : String)
  | tooSmall (target : String)
  | invalidUuid (text reason : String)
  | rawCondition (sql : String)
  | invalidPattern (pattern reason : String)
  | unknownParent (path label : String)
  | nestedPath (path : String)
  | unfit (shape reason : String)
  | reported (text : String)

def HydrationFault.message : HydrationFault → String
  | .rowWidth values columns => s!"row has {values} values for {columns} columns"
  | .missingColumn column => s!"Column '{column}' not found in row"
  | .columnRange index width => s!"Column index {index} out of bounds (row has {width} columns)"
  | .mismatch expected found => s!"Expected {expected}, got " ++ found.diagnostic
  | .tooLarge target =>
    s!"Int value out of {target} range: number too large to fit in target type"
  | .tooSmall target =>
    s!"Int value out of {target} range: number too small to fit in target type"
  | .invalidUuid text reason => s!"Invalid UUID '{text}': {reason}"
  | .rawCondition sql => s!"raw condition '{sql}' cannot be evaluated against hydrated records"
  | .invalidPattern pattern reason => s!"invalid LIKE pattern '{pattern}': {reason}"
  | .unknownParent path label => s!"join '{path}' attaches to unknown alias '{label}'"
  | .nestedPath path => s!"nested include '{path}' needs the hierarchical scanner"
  | .unfit shape reason => s!"cannot populate {shape} from record: {reason}"
  | .reported text => text

/-- The formats of settings documents. -/
inductive DocumentFormat where
  | json
  | toml
  deriving DecidableEq

def DocumentFormat.name : DocumentFormat → String
  | .json => "JSON"
  | .toml => "TOML"

/-- Why a declared model cannot be used. -/
inductive ModelFault where
  | noTable
  | noFields
  | severalKeys
  | mixedKeys
  | missingKeyField (field : String)
  | noKey

def ModelFault.message : ModelFault → String
  | .noTable => "table name cannot be empty"
  | .noFields => "schema must have at least one field"
  | .severalKeys => "schema can only have one single-field primary key"
  | .mixedKeys => "schema cannot have both single and composite primary keys"
  | .missingKeyField field => s!"composite key field {field} not found"
  | .noKey => "schema must have a primary key"

/-- Why settings or declarations cannot be used. -/
inductive ConfigFault where
  | unknownEngine (name : String)
  | unknownJoin (name : String)
  | unknownDatabase (name : String)
  | notSqlite (engine : String)
  | sqliteOption (name value : String)
  | namelessModel
  | invalidModel (model : String) (fault : ModelFault)
  | unknownTarget (relation model target : String)
  | malformed (format : DocumentFormat) (reason : String)
  | illTyped (format : DocumentFormat) (reason : String)
  | unreadable (format : DocumentFormat) (path reason : String)
  | reported (text : String)

def ConfigFault.message : ConfigFault → String
  | .unknownEngine name => s!"Unknown database engine: {name}"
  | .unknownJoin name => s!"Unknown join kind: {name}"
  | .unknownDatabase name => s!"No database configured as '{name}'"
  | .notSqlite engine => s!"Engine '{engine}' is not SQLite"
  | .sqliteOption name value => s!"Invalid SQLite option: {name}={value}"
  | .namelessModel => "schema name cannot be empty"
  | .invalidModel model fault => s!"{model}: " ++ fault.message
  | .unknownTarget relation model target =>
    s!"relation '{relation}' on '{model}' targets unknown model '{target}'"
  | .malformed format reason => "Failed to parse " ++ format.name ++ s!": {reason}"
  | .illTyped format reason =>
    "Failed to deserialize settings from " ++ format.name ++ s!": {reason}"
  | .unreadable format path reason =>
    "Failed to read " ++ format.name ++ s!" file '{path}': {reason}"
  | .reported text => text

end RelMap
