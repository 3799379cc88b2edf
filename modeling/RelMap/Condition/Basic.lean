import RelMap.Value.Basic

/-!
Conditions on the fields of models: comparisons, combined by conjunction, disjunction and
negation, and fragments of SQL taken as they are.
-/
namespace RelMap

/-- What is asked of the value of a field. -/
inductive Lookup where
  | eq (value : Value)
  | ne (value : Value)
  | gt (value : Value)
  | gte (value : Value)
  | lt (value : Value)
  | lte (value : Value)
  | like (pattern : String)
  | notLike (pattern : String)
  | isNull
  | isNotNull
  | between (low high : Value)
  | oneOf (values : List Value)
  | noneOf (values : List Value)

/-- A field, of the model at hand unless it names another. -/
structure FieldRef where
  name : String
  model : Option String := none
  deriving DecidableEq

structure Comparison where
  field : FieldRef
  lookup : Lookup

inductive Condition where
  | compare (comparison : Comparison)
  | all (conditions : List Condition)
  | any (conditions : List Condition)
  | not (condition : Condition)
  | raw (sql : String) (args : List Value)

instance : Inhabited Condition := ⟨.all []⟩

namespace FieldRef

def satisfies (f : FieldRef) (lookup : Lookup) : Condition := .compare ⟨f, lookup⟩

def contains (f : FieldRef) (text : String) : Condition := f.satisfies (.like ("%" ++ text ++ "%"))

def startsWith (f : FieldRef) (text : String) : Condition := f.satisfies (.like (text ++ "%"))

def endsWith (f : FieldRef) (text : String) : Condition := f.satisfies (.like ("%" ++ text))

end FieldRef

namespace Condition

mutual
/-- Whether a condition asks for nothing. -/
def isEmpty : Condition → Bool
  | .compare _ => false
  | .all conditions => allEmpty conditions
  | .any conditions => allEmpty conditions
  | .not condition => isEmpty condition
  | .raw sql _ => sql.isEmpty

def allEmpty : List Condition → Bool
  | [] => true
  | condition :: rest => isEmpty condition && allEmpty rest
end

mutual
/-- Whether a comparison names a model other than `model`. -/
def mentionsOther (model : String) : Condition → Bool
  | .compare comparison => comparison.field.model.any (· != model)
  | .all conditions => anyMentionsOther model conditions
  | .any conditions => anyMentionsOther model conditions
  | .not condition => mentionsOther model condition
  | .raw _ _ => false

def anyMentionsOther (model : String) : List Condition → Bool
  | [] => false
  | condition :: rest => mentionsOther model condition || anyMentionsOther model rest
end

/-- Both conditions; conjunctions are not nested. -/
def both : Condition → Condition → Condition
  | .all as, .all bs => .all (as ++ bs)
  | .all as, b => .all (as ++ [b])
  | a, .all bs => .all (a :: bs)
  | a, b => .all [a, b]

/-- Either condition; disjunctions are not nested. -/
def either : Condition → Condition → Condition
  | .any as, .any bs => .any (as ++ bs)
  | .any as, b => .any (as ++ [b])
  | a, .any bs => .any (a :: bs)
  | a, b => .any [a, b]

instance : AndOp Condition := ⟨both⟩
instance : OrOp Condition := ⟨either⟩

end Condition
end RelMap
