import RelMap.Json.Basic

/-!
Laying one document over another: objects are merged key by key, and any other value replaces
what is below it.
-/
namespace RelMap.Json

mutual
def merge : (base upper : Json) → Json
  | .obj base, .obj upper => .obj (mergeEntries base upper)
  | _, upper => upper

/-- Lays entries over entries, one after the other. -/
def mergeEntries (base : List (String × Json)) : List (String × Json) → List (String × Json)
  | [] => base
  | (key, value) :: rest =>
    let merged := match findKey? key base with
      | some below => merge below value
      | none => value
    mergeEntries (insertEntry key merged base) rest
end

end RelMap.Json
