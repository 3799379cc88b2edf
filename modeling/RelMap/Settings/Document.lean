import RelMap.Settings.Basic

/-!
Settings as documents. Reading asks for every entry, in an object under its name or in an array
at its place; entries that are not known are passed over.
-/
namespace RelMap

open Json (findKey?)

namespace DatabaseSettings

def toJson (d : DatabaseSettings) : Json :=
  .ofEntries [("engine", .str d.engine), ("name", .str d.name),
    ("options", .ofEntries (d.options.map fun (key, value) => (key, .str value)))]

end DatabaseSettings

def QuerySettings.toJson (q : QuerySettings) : Json :=
  .ofEntries [("log_sql", .bool q.logSql), ("default_join", .str q.defaultJoin),
    ("max_include_depth", .int q.maxIncludeDepth)]

def Settings.toJson (s : Settings) : Json :=
  .ofEntries [("debug", .bool s.debug), ("log_level", .str s.logLevel),
    ("databases", .ofEntries (s.databases.map fun (name, d) => (name, d.toJson))),
    ("query", s.query.toJson)]

namespace Settings

/-- A reader of documents; the error says what was expected. -/
abbrev Decoder (α : Type) := Json → Except String α

/-- A reader that says what it expects when it finds something else. -/
def expect {α : Type} (expected : String) (read : Json → Option α) : Decoder α := fun j =>
  match read j with
  | some a => .ok a
  | none => .error s!"{expected} is expected"

def decodeBool : Decoder Bool := expect "a truth value" Json.bool?

def decodeText : Decoder String := expect "a text" Json.text?

/-- A whole number that is not negative and fits 64 bits. -/
def decodeNat : Decoder Nat := expect "a count" fun j =>
  (j.int?.filter fun n => 0 ≤ n && n ≤ 0xffffffffffffffff).map Int.toNat

/-- The values of the named entries, in their order. -/
def decodeFields (names : List String) : Decoder (List Json)
  | .obj entries => names.mapM fun name =>
    match findKey? name entries with
    | some value => .ok value
    | none => .error s!"the entry {name} is missing"
  | .arr items =>
    if items.length = names.length then .ok items else .error "the number of items is wrong"
  | _ => .error "an object is expected"

def decodeMap {α : Type} (decode : Decoder α) : Decoder (List (String × α)) := fun j => do
  let entries ← expect "an object" Json.entries? j
  entries.mapM fun (key, value) => return (key, ← decode value)

def decodeDatabase : Decoder DatabaseSettings := fun j => do
  match ← decodeFields ["engine", "name", "options"] j with
  | [engine, name, options] =>
    return ⟨← decodeText engine, ← decodeText name, ← decodeMap decodeText options⟩
  | _ => throw "an object is expected"

def decodeQuery : Decoder QuerySettings := fun j => do
  match ← decodeFields ["log_sql", "default_join", "max_include_depth"] j with
  | [logSql, defaultJoin, depth] =>
    return ⟨← decodeBool logSql, ← decodeText defaultJoin, ← decodeNat depth⟩
  | _ => throw "an object is expected"

def decode : Decoder Settings := fun j => do
  match ← decodeFields ["debug", "log_level", "databases", "query"] j with
  | [debug, logLevel, databases, query] =>
    return ⟨← decodeBool debug, ← decodeText logLevel, ← decodeMap decodeDatabase databases,
      ← decodeQuery query⟩
  | _ => throw "an object is expected"

end Settings
end RelMap
