import RelMap.Mapper
import RelMap.Record

/-!
Settings: the databases of an application and the defaults of its queries.
-/
namespace RelMap

structure DatabaseSettings where
  engine : String := "sqlite"
  name : String := ":memory:"
  options : List (String × String) := []
  deriving DecidableEq

structure QuerySettings where
  logSql : Bool := true
  defaultJoin : String := "left"
  maxIncludeDepth : Nat := 8
  deriving DecidableEq

/-- The name of the database that is used unless another one is asked for. -/
def defaultDatabase : String := "default"

structure Settings where
  debug : Bool := true
  logLevel : String := "info"
  databases : List (String × DatabaseSettings) := [(defaultDatabase, {})]
  query : QuerySettings := {}
  deriving DecidableEq

namespace Settings

def database (s : Settings) (name : String) : Except Error DatabaseSettings :=
  match OrderedMap.find? name s.databases with
  | some d => .ok d
  | none => .error (.configuration (.unknownDatabase name))

end Settings

/-- The options that settings of queries ask for. -/
def Options.ofSettings (s : QuerySettings) : Except Error Options :=
  return {
    logSql := s.logSql
    defaultJoin := ← JoinKind.parse s.defaultJoin
    maxIncludeDepth := s.maxIncludeDepth }

/-- A mapper for the default database. -/
def Mapper.ofSettings (registry : Registry) (s : Settings) : Except Error Mapper :=
  return {
    registry
    dialect := ← Dialect.parse (← s.database defaultDatabase).engine
    options := ← Options.ofSettings s.query }

/-- Settings that are fixed when they are first used or set. -/
structure LazySettings where
  fixed : Option Settings := none

namespace LazySettings

def isConfigured (l : LazySettings) : Bool := l.fixed.isSome

/-- Fixes the settings, unless they are fixed already; then the new ones come back. -/
def configure (l : LazySettings) (s : Settings) : Except Settings Unit × LazySettings :=
  match l.fixed with
  | some _ => (.error s, l)
  | none => (.ok (), { fixed := some s })

/-- The settings, by default the default ones, which are then fixed. -/
def get (l : LazySettings) : Settings × LazySettings :=
  let s := l.fixed.getD {}
  (s, { fixed := some s })

end LazySettings

/-- A mapper for the default database of the settings in force. -/
def Mapper.configured (registry : Registry) (l : LazySettings) : Except Error Mapper :=
  Mapper.ofSettings registry l.get.1

end RelMap
