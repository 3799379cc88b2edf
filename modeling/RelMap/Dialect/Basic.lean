import RelMap.Dialect.Placeholder
import RelMap.Error
import RelMap.Sort
import RelMap.Text.LetterCase

/-!
The dialects of SQL: how each database quotes identifiers, marks arguments and spells the clauses
in which they differ.
-/
namespace RelMap

inductive Dialect where
  | postgresql
  | sqlite
  | mysql
  deriving DecidableEq

inductive PlaceholderStyle where
  | question
  | dollar
  deriving DecidableEq

/-- How an insert says what to do about a row that is already there. -/
inductive ConflictSyntax where
  | insertOr
  | onConflict
  | onDuplicateKey
  deriving DecidableEq

namespace Dialect

def name : Dialect → String
  | .postgresql => "postgresql"
  | .sqlite => "sqlite"
  | .mysql => "mysql"

/-- The dialect of a database engine, by any of its names and in any letter case. -/
def parse (engine : String) : Except Error Dialect :=
  let engine := Text.lower engine
  if ["postgresql", "postgres", "pg"].contains engine then .ok .postgresql
  else if ["sqlite", "sqlite3"].contains engine then .ok .sqlite
  else if engine = "mysql" then .ok .mysql
  else .error (.configuration (.unknownEngine engine))

def quoteChar : Dialect → Char
  | .postgresql => '"'
  | _ => '\x60'

def placeholderStyle : Dialect → PlaceholderStyle
  | .postgresql => .dollar
  | _ => .question

def booleanLiteral : Dialect → Bool → String
  | .sqlite, true => "1"
  | .sqlite, false => "0"
  | _, true => "TRUE"
  | _, false => "FALSE"

/-- Whether statements that write can return rows. -/
def supportsReturning : Dialect → Bool
  | .mysql => false
  | _ => true

def supportsDefaultValues : Dialect → Bool
  | .mysql => false
  | _ => true

def supportsDistinctOn : Dialect → Bool
  | .postgresql => true
  | _ => false

/-- Whether `OFFSET` may only follow `LIMIT`. -/
def needsLimitForOffset : Dialect → Bool
  | .postgresql => false
  | _ => true

/-- Whether a sort term can place `NULL`. -/
def supportsNullsPlace : Dialect → Bool
  | .mysql => false
  | _ => true

def conflictSyntax : Dialect → ConflictSyntax
  | .postgresql => .onConflict
  | .sqlite => .insertOr
  | .mysql => .onDuplicateKey

/-- The limit that stands for none. -/
def maxLimit : Dialect → Nat
  | .mysql => 0xffffffffffffffff
  | _ => 0x7fffffffffffffff

/-- An identifier between quotes, a quote inside it doubled; the star of all columns is none. -/
def quote (d : Dialect) (identifier : String) : String :=
  if identifier = "*" then identifier
  else
    let q := d.quoteChar
    String.ofList (q :: identifier.toList.flatMap (fun c => if c = q then [q, q] else [c]) ++ [q])

/-- The placeholder of the argument with this number. -/
def placeholder (d : Dialect) (index : Nat) : String :=
  match d.placeholderStyle with
  | .question => "?"
  | .dollar => "$" ++ toString index

/-- One term of `ORDER BY`. Without a place of its own in the dialect, `NULL` is placed by a
term in front. -/
def orderTerm (d : Dialect) (expr : String) (direction : Direction) (nulls : Option NullsPlace) :
    String :=
  let sorted := expr ++ " " ++ direction.sql
  if d.supportsNullsPlace then
    match nulls with
    | some .first => sorted ++ " NULLS FIRST"
    | _ => sorted ++ " NULLS LAST"
  else match nulls with
    | some .first => expr ++ " IS NULL DESC, " ++ sorted
    | some .last => expr ++ " IS NULL ASC, " ++ sorted
    | none => sorted

/-- A finished statement with the placeholders of the dialect. -/
def finalize (d : Dialect) (sql : String) : String :=
  match d.placeholderStyle with
  | .question => sql
  | .dollar => Placeholder.number sql

/-- The paging clause; empty when there is neither a limit nor an offset. -/
def paging (d : Dialect) (limit offset : Option Nat) : String :=
  match limit, offset with
  | some limit, some offset => "LIMIT " ++ toString limit ++ " OFFSET " ++ toString offset
  | some limit, none => "LIMIT " ++ toString limit
  | none, some offset =>
    (if d.needsLimitForOffset then "LIMIT " ++ toString d.maxLimit ++ " " else "")
      ++ "OFFSET " ++ toString offset
  | none, none => ""

end Dialect
end RelMap
