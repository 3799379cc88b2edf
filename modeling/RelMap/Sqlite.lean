import RelMap.Settings.Basic

/-!
Opening SQLite databases: the options of a database become pragmas, which may only be made of
plain names and values. What the library of the database does when it is asked to open one is
left to it.
-/
namespace RelMap.Sqlite

open Text (joinWith)

/-- Whether a text is made of ASCII letters, digits, underscores and hyphens. -/
def isPlain (text : String) : Bool :=
  !text.isEmpty && text.toList.all fun c => c.isAlphanum || c = '_' || c = '-'

def pragma (option : String × String) : Except Error String :=
  let (name, value) := option
  if isPlain name && isPlain value then .ok ("PRAGMA " ++ name ++ "=" ++ value ++ ";")
  else .error (.configuration (.sqliteOption name value))

/-- One pragma for each option, in the order of their names. -/
def pragmaScript (options : List (String × String)) : Except Error String :=
  return joinWith "" (← (options.mergeSort fun a b => a.1 ≤ b.1).mapM pragma)

/-- A database and the script that prepares it. -/
structure Opening where
  path : String
  script : String

def isInMemory (path : String) : Bool := path = ":memory:"

/-- The opening that settings ask for, if they are those of an SQLite database. -/
def Opening.ofSettings (s : DatabaseSettings) : Except Error Opening := do
  if (← Dialect.parse s.engine) ≠ .sqlite then throw (.configuration (.notSqlite s.engine))
  let journal := if isInMemory s.name then "" else "PRAGMA journal_mode=WAL; "
  return ⟨s.name, journal ++ "PRAGMA foreign_keys=ON;" ++ (← pragmaScript s.options)⟩

/-- The library of the database, with its connections `κ` and the world `σ` that its calls change.
A call that fails says why. -/
structure Library (σ κ : Type) where
  /-- Connects to the file at a path, or to a database in memory. -/
  connect : Option String → σ → Except String κ × σ
  /-- Runs the statements of a script, all of them as they stand. -/
  runScript : κ → String → σ → Except String Unit × σ

structure Connected (κ : Type) where
  path : String
  connection : κ

variable {σ κ : Type}

/-- Connects to the database and prepares it. -/
def Opening.perform (library : Library σ κ) (o : Opening) (world : σ) :
    Except Error (Connected κ) × σ :=
  let place := if isInMemory o.path then none else some o.path
  match library.connect place world with
  | (.error reason, world) => (.error (.operational ("SQLite open failed: " ++ reason)), world)
  | (.ok connection, world) =>
    match library.runScript connection o.script world with
    | (.error reason, world) => (.error (.operational ("Failed to set pragmas: " ++ reason)), world)
    | (.ok (), world) => (.ok ⟨o.path, connection⟩, world)

/-- Opens the database that settings name. -/
def openSettings (library : Library σ κ) (s : DatabaseSettings) (world : σ) :
    Except Error (Connected κ) × σ :=
  match Opening.ofSettings s with
  | .error e => (.error e, world)
  | .ok o => o.perform library world

end RelMap.Sqlite
