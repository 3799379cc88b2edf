import RelMap.Proofs.Json.Ordered
import RelMap.Proofs.Outcome
import RelMap.Proofs.Pointwise
import RelMap.Settings.Document

/-! Which settings an object is read as, in terms of what is found under each name. -/
namespace RelMap.Settings

open Json (findKey?)

section Decoders

variable {α : Type} {entries : List (String × Json)} {names : List String}

theorem decodeFields_obj (values : List Json)
    (h : names.map (findKey? · entries) = values.map some) :
    decodeFields names (.obj entries) = .ok values := by
  rw [decodeFields]
  induction names generalizing values with
  | nil =>
    cases values with
    | nil => rfl
    | cons value values => cases h
  | cons name names ih =>
    cases values with
    | nil => cases h
    | cons value values =>
      have hvalue : findKey? name entries = some value := (List.cons_eq_cons.mp h).1
      rw [List.mapM_cons, hvalue, ok_bind, ih values (List.cons_eq_cons.mp h).2, ok_bind]
      rfl

theorem decodeFields_missing {name : String} (hname : name ∈ names)
    (h : findKey? name entries = none) :
    ∃ reason, decodeFields names (.obj entries) = .error reason := by
  cases hread : decodeFields names (.obj entries) with
  | error reason => exact ⟨reason, rfl⟩
  | ok values =>
    obtain ⟨value, hvalue⟩ := exists_mapM_eq_ok_iff.mp ⟨values, hread⟩ name hname
    rw [h] at hvalue
    cases hvalue

variable {decode : Decoder α}

theorem decodeMap_map {β : Type} {l : List β} (key : β → String) (encode : β → Json)
    (value : β → α) (h : ∀ b ∈ l, decode (encode b) = .ok (value b)) :
    decodeMap decode (.obj (l.map fun b => (key b, encode b))) =
      .ok (l.map fun b => (key b, value b)) := by
  have hentry : ∀ b ∈ l, (do return (key b, ← decode (encode b)) : Except String _) =
      .ok (key b, value b) := by
    intro b hb
    rw [h b hb]
    rfl
  change (l.map fun b => (key b, encode b)).mapM _ = _
  rw [List.mapM_map]
  exact (mapM_congr_of_mem hentry).trans (mapM_ok _ l)

theorem decodeMap_refused {entry : String × Json} {reason : String} (hentry : entry ∈ entries)
    (h : decode entry.2 = .error reason) :
    ∃ reason, decodeMap decode (.obj entries) = .error reason := by
  cases hread : decodeMap decode (.obj entries) with
  | error reason => exact ⟨reason, rfl⟩
  | ok values =>
    obtain ⟨value, hvalue⟩ := exists_mapM_eq_ok_iff.mp ⟨values, hread⟩ entry hentry
    obtain ⟨d, hd, -⟩ := bind_eq_ok.mp hvalue
    rw [h] at hd
    cases hd

/-- Entries are read as a map if each of them is, and the map has under every name what the entry
of that name is read as. -/
theorem decodeMap_found {found : String → Option α} (default : α)
    (hnodup : (OrderedMap.keys entries).Nodup)
    (h : ∀ name, Option.Rel (fun a value => decode value = .ok a) (found name)
      (findKey? name entries)) :
    ∃ values, decodeMap decode (.obj entries) = .ok values ∧
      ∀ name, OrderedMap.find? name values = found name := by
  have hentry : ∀ entry ∈ entries, decode entry.2 = .ok ((found entry.1).getD default) := by
    intro entry hentry
    have hfind := (Json.mem_iff_findKey? hnodup).mp hentry
    obtain ⟨a, ha, hread⟩ := exists_left_of_rel_some (hfind ▸ h entry.1)
    rw [ha]
    exact hread
  have hmap := decodeMap_map Prod.fst Prod.snd (fun entry => (found entry.1).getD default) hentry
  rw [List.map_id'] at hmap
  refine ⟨_, hmap, fun name => ?_⟩
  have hkeys : entries.map (fun entry => (entry.1, (found entry.1).getD default)) =
      (OrderedMap.keys entries).map fun key => (key, (found key).getD default) := by
    rw [OrderedMap.keys, List.map_map]
    rfl
  rw [hkeys, OrderedMap.find?_map_pair fun key => (found key).getD default]
  split_ifs with hmem
  · have hkey : findKey? name entries ≠ none := mt Json.findKey?_eq_none_iff.mp (not_not_intro hmem)
    obtain ⟨value, hvalue⟩ := Option.ne_none_iff_exists'.mp hkey
    obtain ⟨a, ha, -⟩ := exists_left_of_rel_some (hvalue ▸ h name)
    rw [ha]
    rfl
  · exact (eq_none_of_rel_none (Json.findKey?_eq_none_iff.mpr hmem ▸ h name)).symm

end Decoders

/-- The object with these texts. -/
def textEntries (texts : List (String × String)) : Json :=
  .obj (texts.map fun (key, value) => (key, .str value))

theorem decodeMap_textEntries (texts : List (String × String)) :
    decodeMap decodeText (textEntries texts) = .ok texts := by
  have htext : ∀ entry ∈ texts, decodeText (.str entry.2) = .ok entry.2 := fun _ _ => rfl
  have h := decodeMap_map Prod.fst (fun entry => .str entry.2) Prod.snd htext
  rwa [List.map_id'] at h

theorem decodeNat_int {n : Nat} (h : n ≤ 0xffffffffffffffff) : decodeNat (.int n) = .ok n := by
  have hfits : (0 : Int) ≤ n ∧ (n : Int) ≤ 0xffffffffffffffff := by omega
  simp [decodeNat, expect, Json.int?, Option.filter, hfits]

variable {entries : List (String × Json)}

theorem decodeDatabase_obj {d : DatabaseSettings}
    (hengine : findKey? "engine" entries = some (.str d.engine))
    (hname : findKey? "name" entries = some (.str d.name))
    (hoptions : findKey? "options" entries = some (textEntries d.options)) :
    decodeDatabase (.obj entries) = .ok d := by
  rw [decodeDatabase, decodeFields_obj [.str d.engine, .str d.name, textEntries d.options]
    (by simp [hengine, hname, hoptions]), ok_bind]
  dsimp only
  rw [decodeMap_textEntries]
  rfl

theorem decodeDatabase_missing {name : String} (hname : name ∈ ["engine", "name", "options"])
    (h : findKey? name entries = none) :
    ∃ reason, decodeDatabase (.obj entries) = .error reason := by
  obtain ⟨reason, hreason⟩ := decodeFields_missing hname h
  exact ⟨reason, by rw [decodeDatabase, hreason]; rfl⟩

theorem decodeQuery_obj {q : QuerySettings}
    (hlogSql : findKey? "log_sql" entries = some (.bool q.logSql))
    (hjoin : findKey? "default_join" entries = some (.str q.defaultJoin))
    (hdepth : findKey? "max_include_depth" entries = some (.int q.maxIncludeDepth))
    (hfits : q.maxIncludeDepth ≤ 0xffffffffffffffff) :
    decodeQuery (.obj entries) = .ok q := by
  rw [decodeQuery, decodeFields_obj
    [.bool q.logSql, .str q.defaultJoin, .int q.maxIncludeDepth]
    (by simp [hlogSql, hjoin, hdepth]), ok_bind]
  dsimp only
  rw [decodeNat_int hfits]
  rfl

/-- Settings are read if their databases and their query settings are, and refused if the
databases are. -/
theorem decode_obj {debug : Bool} {logLevel : String} {databases query : Json} {q : QuerySettings}
    (hdebug : findKey? "debug" entries = some (.bool debug))
    (hlevel : findKey? "log_level" entries = some (.str logLevel))
    (hdatabases : findKey? "databases" entries = some databases)
    (hquery : findKey? "query" entries = some query) (hq : decodeQuery query = .ok q) :
    decode (.obj entries) =
      (decodeMap decodeDatabase databases).map fun ds => ⟨debug, logLevel, ds, q⟩ := by
  rw [decode, decodeFields_obj [.bool debug, .str logLevel, databases, query]
    (by simp [hdebug, hlevel, hdatabases, hquery]), ok_bind]
  dsimp only
  rw [hq]
  cases decodeMap decodeDatabase databases <;> rfl

end RelMap.Settings
