import RelMap.Proofs.Json.Ordered
import RelMap.Toml.Item

/-! Whatever a TOML text says, its document is ordered: tables become sorted objects, in whatever
order the text has their entries. -/
namespace RelMap.Toml

open Json (Ordered)

mutual
theorem Item.ordered_toJson : ∀ item : Item, item.toJson.Ordered
  | .text text => .str text
  | .integer value => .int value
  | .float value => Json.ordered_ofBinary64 value
  | .boolean value => .bool value
  | .moment text => .str text
  | .array items => .arr (ordered_of_mem_itemsToJson items)
  | .table entries => Json.ordered_ofEntries (ordered_of_mem_entriesToJson entries)

theorem ordered_of_mem_itemsToJson :
    ∀ items : List Item, ∀ document ∈ itemsToJson items, Ordered document
  | [] => by simp [itemsToJson]
  | item :: rest => List.forall_mem_cons.mpr ⟨item.ordered_toJson, ordered_of_mem_itemsToJson rest⟩

theorem ordered_of_mem_entriesToJson :
    ∀ entries : List (String × Item), ∀ entry ∈ entriesToJson entries, Ordered entry.2
  | [] => by simp [entriesToJson]
  | (_, item) :: rest =>
    List.forall_mem_cons.mpr ⟨item.ordered_toJson, ordered_of_mem_entriesToJson rest⟩
end

end RelMap.Toml
