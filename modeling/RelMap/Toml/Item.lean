import RelMap.Json.Basic
import RelMap.Toml.Moment

/-!
What a TOML text says, before it becomes a document: dates and times are still told apart from
texts, and tables keep their entries in the order of the text.
-/
namespace RelMap.Toml

inductive Item where
  | text (text : String)
  | integer (value : Int)
  | float (value : Binary64)
  | boolean (value : Bool)
  /-- A date, a time or both. -/
  | moment (text : String)
  | array (items : List Item)
  | table (entries : List (String × Item))

mutual
/-- The document of an item, where dates and times are texts. -/
def Item.toJson : Item → Json
  | .text text => .str text
  | .integer value => .int value
  | .float value => .ofBinary64 value
  | .boolean value => .bool value
  | .moment text => .str text
  | .array items => .arr (itemsToJson items)
  | .table entries => .ofEntries (entriesToJson entries)

def itemsToJson : List Item → List Json
  | [] => []
  | item :: rest => item.toJson :: itemsToJson rest

def entriesToJson : List (String × Item) → List (String × Json)
  | [] => []
  | (key, item) :: rest => (key, item.toJson) :: entriesToJson rest
end

/-- The first key of a table that stands for a date or a time. -/
def momentKey : String := "$__toml_private_datetime"

def standsForMoment : List (String × Item) → Bool
  | [] => false
  | (key, _) :: _ => key = momentKey

/-- The date or time that a table stands for: a text under its first key. -/
def momentOf? : List (String × Item) → Option String
  | (_, .text text) :: _ => MomentLimits.quoted.momentText? text.toList
  | _ => none

mutual
/-- The item with a date or a time for each table that stands for one, if there is one under its
first key; its other entries are passed over. -/
def Item.resolve? : Item → Option Item
  | .array items => (resolveItems? items).map .array
  | .table entries =>
    if standsForMoment entries then (momentOf? entries).map .moment
    else (resolveEntries? entries).map .table
  | item => some item

def resolveItems? : List Item → Option (List Item)
  | [] => some []
  | item :: rest => do return (← item.resolve?) :: (← resolveItems? rest)

def resolveEntries? : List (String × Item) → Option (List (String × Item))
  | [] => some []
  | (key, item) :: rest => do return (key, ← item.resolve?) :: (← resolveEntries? rest)
end

end RelMap.Toml
