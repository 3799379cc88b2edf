import RelMap.Calendar.Format
import RelMap.Json.Writer
import RelMap.Value.Basic

/-!
The text of values: the form for people, which also stands in for a value where a text is
compared with it, and the form of diagnostics, which names the kind.
-/
namespace RelMap.Value

open Text (joinWith)

mutual
/-- The form for people. -/
def display : Value → String
  | .null => "NULL"
  | .bool b => if b then "true" else "false"
  | .int n => toString n
  | .float x => FloatNotation.plain.format x
  | .text s => s
  | .bytes b => "<" ++ toString b.length ++ " bytes>"
  | .date d => d.text
  | .dateTime t => t.text
  | .instant t => t.text ++ " UTC"
  | .time t => t.text
  | .uuid u => u.text
  | .json j => j.compact
  | .list values => "[" ++ joinWith ", " (displayAll values) ++ "]"

def displayAll : List Value → List String
  | [] => []
  | value :: rest => display value :: displayAll rest
end

mutual
/-- The form of diagnostics. -/
def diagnostic : Value → String
  | .null => "Null"
  | .bool b => "Bool(" ++ (if b then "true" else "false") ++ ")"
  | .int n => "Int(" ++ toString n ++ ")"
  | .float x => "Float(" ++ FloatNotation.diagnostic.format x ++ ")"
  | .text s => "String(" ++ Text.quoted s ++ ")"
  | .bytes b => "Bytes([" ++ joinWith ", " (b.map fun octet => toString octet.toNat) ++ "])"
  | .date d => "Date(" ++ d.text ++ ")"
  | .dateTime t => "DateTime(" ++ t.isoText ++ ")"
  | .instant t => "DateTimeTz(" ++ t.isoText ++ "Z)"
  | .time t => "Time(" ++ t.text ++ ")"
  | .uuid u => "Uuid(" ++ u.text ++ ")"
  | .json j => "Json(" ++ j.diagnostic ++ ")"
  | .list values => "List([" ++ joinWith ", " (diagnosticAll values) ++ "])"

def diagnosticAll : List Value → List String
  | [] => []
  | value :: rest => diagnostic value :: diagnosticAll rest
end

end RelMap.Value
