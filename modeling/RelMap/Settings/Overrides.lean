import RelMap.Settings.Basic

/-!
Overrides: single settings that the environment of a process replaces.
-/
namespace RelMap

structure Overrides where
  debug : Option Bool := none
  logLevel : Option String := none
  engine : Option String := none
  databaseName : Option String := none
  logSql : Option Bool := none
  defaultJoin : Option String := none
  maxIncludeDepth : Option Nat := none

namespace Overrides

/-- A switch is on for these words only. -/
def isOn (text : String) : Bool := Text.isWordOf ["true", "1", "yes"] text

/-- A whole number of 64 bits, with or without a plus sign. -/
def natOf? (text : String) : Option Nat :=
  let digits := match text.toList with
    | '+' :: rest => rest
    | chars => chars
  if digits.isEmpty || !digits.all Char.isDigit then none
  else
    let n := digits.foldl (fun n c => 10 * n + (c.toNat - '0'.toNat)) 0
    if n ≤ 0xffffffffffffffff then some n else none

/-- The overrides in the variables of an environment whose names begin with that of the
application. A depth that is no number is passed over. -/
def ofEnvironment (application : String) (lookup : String → Option String) : Overrides :=
  let read (name : String) := lookup (application ++ "_" ++ name)
  { debug := (read "DEBUG").map isOn
    logLevel := read "LOG_LEVEL"
    engine := read "DATABASE_ENGINE"
    databaseName := read "DATABASE_NAME"
    logSql := (read "LOG_SQL").map isOn
    defaultJoin := (read "DEFAULT_JOIN").map Text.lower
    maxIncludeDepth := (read "MAX_INCLUDE_DEPTH").bind natOf? }

/-- Changes the default database, which is there with default settings if it was not. -/
def changeDatabase (change : DatabaseSettings → DatabaseSettings) (s : Settings) : Settings :=
  let d := (OrderedMap.find? defaultDatabase s.databases).getD {}
  { s with databases := OrderedMap.insert defaultDatabase (change d) s.databases }

/-- Settings with the overrides in place. -/
def apply (o : Overrides) (s : Settings) : Settings :=
  let s := { s with
    debug := o.debug.getD s.debug
    logLevel := o.logLevel.getD s.logLevel
    query := {
      logSql := o.logSql.getD s.query.logSql
      defaultJoin := o.defaultJoin.getD s.query.defaultJoin
      maxIncludeDepth := o.maxIncludeDepth.getD s.query.maxIncludeDepth } }
  let s := match o.engine with
    | some engine => changeDatabase (fun d => { d with engine }) s
    | none => s
  match o.databaseName with
  | some name => changeDatabase (fun d => { d with name }) s
  | none => s

end Overrides
end RelMap
