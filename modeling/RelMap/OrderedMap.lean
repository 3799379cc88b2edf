/-!
Maps that keep the order in which their keys were first inserted, as lists of pairs.
-/
namespace RelMap.OrderedMap

variable {κ ν : Type} [DecidableEq κ]

/-- The value of a key. -/
def find? (key : κ) : List (κ × ν) → Option ν
  | [] => none
  | (k, v) :: rest => if k = key then some v else find? key rest

def contains (entries : List (κ × ν)) (key : κ) : Bool := (find? key entries).isSome

/-- Sets the value of a key: in its place if the key is there, else at the end. -/
def insert (key : κ) (value : ν) : List (κ × ν) → List (κ × ν)
  | [] => [(key, value)]
  | (k, v) :: rest => if k = key then (k, value) :: rest else (k, v) :: insert key value rest

/-- Sets the value of a key unless it has one. -/
def insertNew (key : κ) (value : ν) (entries : List (κ × ν)) : List (κ × ν) :=
  if contains entries key then entries else entries ++ [(key, value)]

/-- Removes a key; the others keep their order. -/
def erase (key : κ) : List (κ × ν) → List (κ × ν)
  | [] => []
  | (k, v) :: rest => if k = key then rest else (k, v) :: erase key rest

def keys (entries : List (κ × ν)) : List κ := entries.map (·.1)

def values (entries : List (κ × ν)) : List ν := entries.map (·.2)

/-- Inserts the pairs one after the other. -/
def insertAll (entries pairs : List (κ × ν)) : List (κ × ν) :=
  pairs.foldl (fun done pair => insert pair.1 pair.2 done) entries

def ofList (pairs : List (κ × ν)) : List (κ × ν) := insertAll [] pairs

theorem find?_insert (key k : κ) (value : ν) (entries : List (κ × ν)) :
    find? k (insert key value entries) = if key = k then some value else find? k entries := by
  induction entries with
  | nil => rfl
  | cons entry rest ih => grind [insert, find?]

theorem keys_insert_of_mem {key : κ} {value : ν} {entries : List (κ × ν)}
    (h : key ∈ keys entries) : keys (insert key value entries) = keys entries := by
  induction entries with
  | nil => simp [keys] at h
  | cons entry rest ih => grind [insert, keys]

theorem keys_insert_of_not_mem {key : κ} {value : ν} {entries : List (κ × ν)}
    (h : key ∉ keys entries) : keys (insert key value entries) = keys entries ++ [key] := by
  induction entries with
  | nil => rfl
  | cons entry rest ih => grind [insert, keys]

end RelMap.OrderedMap
