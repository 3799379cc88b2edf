import RelMap.Calendar.Parse
import RelMap.Calendar.Format
import RelMap.Value.Basic

/-!
Values as documents: the bare form, which forgets the kind of a value, and the tagged form
`{"type": …, "value": …}`, from which the value can be read back.
-/
namespace RelMap.Value

def octetsDocument (octets : List UInt8) : Json :=
  .arr (octets.map fun octet => .int octet.toNat)

mutual
/-- The bare form. -/
def toJson : Value → Json
  | .null => .null
  | .bool b => .bool b
  | .int n => .int n
  | .float x => .ofBinary64 x
  | .text s => .str s
  | .bytes b => octetsDocument b
  | .date d => .str d.text
  | .dateTime t => .str t.isoText
  | .instant t => .str (t.isoText ++ "Z")
  | .time t => .str t.text
  | .uuid u => .str u.text
  | .json j => j
  | .list values => .arr (toJsonAll values)

def toJsonAll : List Value → List Json
  | [] => []
  | value :: rest => toJson value :: toJsonAll rest
end

def tagged (kind : String) (content : Json) : Json :=
  .ofEntries [("type", .str kind), ("value", content)]

mutual
/-- The tagged form. -/
def toTagged : Value → Json
  | .null => .obj [("type", .str "Null")]
  | .bool b => tagged "Bool" (.bool b)
  | .int n => tagged "Int" (.int n)
  | .float x => tagged "Float" (.ofBinary64 x)
  | .text s => tagged "String" (.str s)
  | .bytes b => tagged "Bytes" (octetsDocument b)
  | .date d => tagged "Date" (.str d.text)
  | .dateTime t => tagged "DateTime" (.str t.isoText)
  | .instant t => tagged "DateTimeTz" (.str (t.isoText ++ "Z"))
  | .time t => tagged "Time" (.str t.text)
  | .uuid u => tagged "Uuid" (.str u.text)
  | .json j => tagged "Json" j
  | .list values => tagged "List" (.arr (toTaggedAll values))

def toTaggedAll : List Value → List Json
  | [] => []
  | value :: rest => toTagged value :: toTaggedAll rest
end

def octet? : Json → Option UInt8
  | .int n => if 0 ≤ n && n < 256 then some (UInt8.ofNat n.toNat) else none
  | _ => none

/-- The content of a value that is a text in its tagged form. -/
def ofTaggedText? (kind content : String) : Option Value :=
  match kind with
  | "String" => some (.text content)
  | "Date" => (Date.parse? content).map .date
  | "DateTime" => (DateTime.parse? content).map .dateTime
  | "DateTimeTz" => (DateTime.parseUtc? content).map .instant
  | "Time" => (TimeOfDay.parse? content).map .time
  | "Uuid" => (Uuid.parse? content).map .uuid
  | _ => none

/-- The kind that a tag names: a text, or an object with that one key and nothing under it. -/
def kindOfTag? : Json → Option String
  | .str kind => some kind
  | .obj [(kind, .null)] => some kind
  | _ => none

mutual
/-- Reads the tagged form, also where a text as the tag and the content are the two items of an
array. -/
def ofTagged? : Json → Option Value
  | .obj entries => do
    let kind ← kindOfTag? (← Json.findKey? "type" entries)
    ofTaggedEntries? kind entries
  | .arr [.str kind, content] => ofTaggedContent? kind content
  | _ => none

/-- Finds the content of a tag; only `NULL` needs none. -/
def ofTaggedEntries? (kind : String) : List (String × Json) → Option Value
  | [] => if kind = "Null" then some .null else none
  | (key, content) :: rest =>
    if key = "value" then ofTaggedContent? kind content else ofTaggedEntries? kind rest

def ofTaggedContent? (kind : String) : Json → Option Value
  | .arr items =>
    match kind with
    | "Bytes" => (items.mapM octet?).map .bytes
    | "List" => (ofTaggedAll? items).map .list
    | "Json" => some (.json (.arr items))
    | _ => none
  | content =>
    match kind, content with
    | "Json", content => some (.json content)
    | "Null", .null => some .null
    | "Bool", .bool b => some (.bool b)
    | "Int", .int n => if fitsInt n then some (.int n) else none
    | "Float", .int n => some (.float (.ofInt n))
    | "Float", .float x => some (.float x)
    | kind, .str s => ofTaggedText? kind s
    | _, _ => none

def ofTaggedAll? : List Json → Option (List Value)
  | [] => some []
  | item :: rest => do return (← ofTagged? item) :: (← ofTaggedAll? rest)
end

end RelMap.Value
