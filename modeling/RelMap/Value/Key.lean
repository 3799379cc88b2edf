import RelMap.Value.Text

/-!
Keys: what identifies a record among the rows of a result. Kinds without a key form of their own
are identified by their text.
-/
namespace RelMap

inductive Key where
  | bool (value : Bool)
  | int (value : Int)
  | float (bits : UInt64)
  | text (value : String)
  | bytes (value : List UInt8)
  | uuid (value : Uuid)
  | other (text : String)
  deriving DecidableEq

/-- The key of a value; `NULL` has none. -/
def Value.key? : Value → Option Key
  | .null => none
  | .bool b => some (.bool b)
  | .int n => some (.int n)
  | .float x => some (.float x.bits)
  | .text s => some (.text s)
  | .bytes b => some (.bytes b)
  | .uuid u => some (.uuid u)
  | value => some (.other value.display)

end RelMap
