import RelMap.Query.Delete
import RelMap.Query.Insert
import RelMap.Query.Raw
import RelMap.Query.Shortcuts
import RelMap.Query.Update
import RelMap.Exchange.Database
import RelMap.Settings.Loader
import RelMap.Settings.Overrides
import RelMap.Sqlite
import RelMap.Proofs.Hydration.Flat
import RelMap.Proofs.Hydration.Bounds
import RelMap.Proofs.Hydration.Flatten
import RelMap.Proofs.Query.Blank
import RelMap.Proofs.Query.Aggregate
import RelMap.Proofs.Query.Count
import RelMap.Proofs.Query.Placeholder
import RelMap.Proofs.Query.Select
import RelMap.Proofs.Query.Write
import RelMap.Proofs.Join.Failure
import RelMap.Proofs.Join.Junction
import RelMap.Proofs.Join.Memory
import RelMap.Proofs.Join.Search
import RelMap.Proofs.Condition.Negation
import RelMap.Proofs.Condition.Refusal
import RelMap.Proofs.Include.Process
import RelMap.Proofs.Query.Hydrate
import RelMap.Proofs.Query.Resolution
import RelMap.Proofs.Include.Filter
import RelMap.Proofs.Condition.Combination
import RelMap.Proofs.Hydration.Key
import RelMap.Proofs.Query.Upsert
import RelMap.Proofs.Query.Update
import RelMap.Proofs.Settings.Loader
import RelMap.Proofs.Dialect.Identifier
import RelMap.Proofs.Condition.Flattening
import RelMap.Proofs.Schema.Columns
import RelMap.Proofs.Condition.Pattern
import RelMap.Proofs.Json.Path
import RelMap.Proofs.Dialect.Numbering
import RelMap.Proofs.Sqlite
import RelMap.Proofs.Query.Returning
