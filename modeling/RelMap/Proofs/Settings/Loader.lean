import RelMap.Proofs.Json.Merge
import RelMap.Proofs.Json.Reader
import RelMap.Proofs.Settings.Document
import RelMap.Proofs.Toml.Item
import RelMap.Settings.Loader

/-!
Settings from documents that say only some of them. The document lies over the default settings,
which only hold one database: what a document leaves out of any other database has no default.
-/
namespace RelMap

open Json (findKey? mergeEntries)

/-- Some settings of a database. -/
structure PartialDatabase where
  engine : Option String := none
  name : Option String := none
  options : Option (List (String × String)) := none

/-- Some settings of queries. -/
structure PartialQuery where
  logSql : Option Bool := none
  defaultJoin : Option String := none
  maxIncludeDepth : Option Nat := none

/-- Some settings. -/
structure PartialSettings where
  debug : Option Bool := none
  logLevel : Option String := none
  databases : List (String × PartialDatabase) := []
  query : PartialQuery := {}

namespace PartialDatabase

/-- An object says these settings if it has each of them under its name and nothing under the
names of the others. What it has under further names does not matter. -/
structure SaidBy (d : PartialDatabase) (document : Json) : Prop where
  isObject : ∃ entries, document = .obj entries
  engine : document.get? "engine" = d.engine.map .str
  name : document.get? "name" = d.name.map .str
  options : document.get? "options" = d.options.map Settings.textEntries

/-- The settings with the default of each one that is missing. -/
def complete (d : PartialDatabase) : DatabaseSettings where
  engine := d.engine.getD ({} : DatabaseSettings).engine
  name := d.name.getD ({} : DatabaseSettings).name
  options := d.options.getD ({} : DatabaseSettings).options

def isComplete (d : PartialDatabase) : Bool := d.engine.isSome && d.name.isSome && d.options.isSome

variable {d : PartialDatabase} {document : Json}

theorem SaidBy.decode_merge (h : d.SaidBy document) (hordered : document.Ordered) :
    Settings.decodeDatabase (Json.merge (DatabaseSettings.toJson {}) document) =
      .ok d.complete := by
  obtain ⟨⟨entries, rfl⟩, hengine, hname, hoptions⟩ := h
  have hnodup := hordered.sorted.nodup
  refine Settings.decodeDatabase_obj ?_ ?_ ?_
  · exact Json.findKey?_mergeEntries_getD hnodup rfl hengine fun _ _ => rfl
  · exact Json.findKey?_mergeEntries_getD hnodup rfl hname fun _ _ => rfl
  · refine Json.findKey?_mergeEntries_getD hnodup rfl hoptions fun options h => ?_
    rw [h] at hoptions
    have hsorted := (hordered.get? hoptions).sorted
    exact congrArg Json.obj (Json.mergeEntries_nil_left hsorted)

/-- Settings of a database that lie over nothing are read if none of them is missing. -/
theorem SaidBy.decode_of_isComplete (h : d.SaidBy document) (hcomplete : d.isComplete = true) :
    Settings.decodeDatabase document = .ok d.complete := by
  obtain ⟨⟨entries, rfl⟩, hengine, hname, hoptions⟩ := h
  match d with
  | ⟨some engine, some name, some options⟩ =>
    exact Settings.decodeDatabase_obj hengine hname hoptions
  | ⟨none, _, _⟩ => cases hcomplete
  | ⟨some _, none, _⟩ => cases hcomplete
  | ⟨some _, some _, none⟩ => cases hcomplete

theorem SaidBy.refused_of_not_isComplete (h : d.SaidBy document) (hpart : d.isComplete ≠ true) :
    ∃ reason, Settings.decodeDatabase document = .error reason := by
  obtain ⟨⟨entries, rfl⟩, hengine, hname, hoptions⟩ := h
  match d with
  | ⟨some _, some _, some _⟩ => exact absurd rfl hpart
  | ⟨none, _, _⟩ => exact Settings.decodeDatabase_missing (by simp) hengine
  | ⟨some _, none, _⟩ => exact Settings.decodeDatabase_missing (by simp) hname
  | ⟨some _, some _, none⟩ => exact Settings.decodeDatabase_missing (by simp) hoptions

end PartialDatabase

namespace PartialQuery

/-- An object says these settings if it has each of them under its name and nothing under the
names of the others. A depth has 64 bits. -/
structure SaidBy (q : PartialQuery) (document : Json) : Prop where
  isObject : ∃ entries, document = .obj entries
  logSql : document.get? "log_sql" = q.logSql.map .bool
  defaultJoin : document.get? "default_join" = q.defaultJoin.map .str
  maxIncludeDepth : document.get? "max_include_depth" = q.maxIncludeDepth.map fun n => .int n
  fits : ∀ n, q.maxIncludeDepth = some n → n ≤ 0xffffffffffffffff

def complete (q : PartialQuery) : QuerySettings where
  logSql := q.logSql.getD ({} : QuerySettings).logSql
  defaultJoin := q.defaultJoin.getD ({} : QuerySettings).defaultJoin
  maxIncludeDepth := q.maxIncludeDepth.getD ({} : QuerySettings).maxIncludeDepth

theorem SaidBy.decode_merge {q : PartialQuery} {document : Json} (h : q.SaidBy document)
    (hordered : document.Ordered) :
    Settings.decodeQuery (Json.merge (QuerySettings.toJson {}) document) = .ok q.complete := by
  obtain ⟨⟨entries, rfl⟩, hlogSql, hjoin, hdepth, hfits⟩ := h
  have hnodup := hordered.sorted.nodup
  refine Settings.decodeQuery_obj ?_ ?_ ?_ ?_
  · exact Json.findKey?_mergeEntries_getD hnodup rfl hlogSql fun _ _ => rfl
  · exact Json.findKey?_mergeEntries_getD hnodup rfl hjoin fun _ _ => rfl
  · exact Json.findKey?_mergeEntries_getD hnodup rfl hdepth fun _ _ => rfl
  · cases hgiven : q.maxIncludeDepth with
    | none => simp [complete, hgiven]
    | some n => simpa [complete, hgiven] using hfits n hgiven

end PartialQuery

namespace PartialSettings

/-- Entries say of each of these databases what is to be said, and have nothing under any other
name. -/
def DatabasesSaidBy (p : PartialSettings) (entries : List (String × Json)) : Prop :=
  ∀ name, Option.Rel PartialDatabase.SaidBy (OrderedMap.find? name p.databases)
    (findKey? name entries)

/-- A document says these settings if it has each of them under its name and nothing under the
names of the others. Sections that it leaves out are empty. -/
structure SaidBy (p : PartialSettings) (document : Json) : Prop where
  isObject : ∃ entries, document = .obj entries
  debug : document.get? "debug" = p.debug.map .bool
  logLevel : document.get? "log_level" = p.logLevel.map .str
  databases : ∃ entries, (document.get? "databases").getD (.obj []) = .obj entries ∧
    p.DatabasesSaidBy entries
  query : p.query.SaidBy ((document.get? "query").getD (.obj []))

/-- The database under a name: what was said of it, with the defaults of one database, or else
what is there by default. -/
def database? (p : PartialSettings) (name : String) : Option DatabaseSettings :=
  ((OrderedMap.find? name p.databases).map PartialDatabase.complete).or
    (OrderedMap.find? name ({} : Settings).databases)

/-- The settings that were said are in force, and the default of every other one. -/
structure CompletedBy (p : PartialSettings) (s : Settings) : Prop where
  debug : s.debug = p.debug.getD ({} : Settings).debug
  logLevel : s.logLevel = p.logLevel.getD ({} : Settings).logLevel
  database : ∀ name, OrderedMap.find? name s.databases = p.database? name
  query : s.query = p.query.complete

/-- Settings that leave nothing out of any database but the default one. -/
def Loadable (p : PartialSettings) : Prop :=
  ∀ name d, OrderedMap.find? name p.databases = some d →
    name = defaultDatabase ∨ d.isComplete = true

theorem databasesSaidBy_singleton {p : PartialSettings} {name : String} {d : PartialDatabase}
    {value : Json} (hp : p.databases = [(name, d)]) (hd : d.SaidBy value) :
    p.DatabasesSaidBy [(name, value)] := by
  intro key
  rw [hp, OrderedMap.find?, findKey?]
  split_ifs
  · exact .some hd
  · exact .none

section Databases

/-- The databases of a document, laid over the default one. -/
def overDefault (entries : List (String × Json)) : List (String × Json) :=
  mergeEntries [(defaultDatabase, DatabaseSettings.toJson {})] entries

variable {p : PartialSettings} {entries : List (String × Json)} {name : String}

theorem sorted_overDefault (entries : List (String × Json)) :
    Json.Sorted (overDefault entries) := by
  have hdefault : Json.Sorted [(defaultDatabase, DatabaseSettings.toJson {})] := by decide
  exact hdefault.mergeEntries entries

/-- Only the default database lies over anything. -/
theorem findKey?_overDefault_of_ne (h : (OrderedMap.keys entries).Nodup)
    (hname : name ≠ defaultDatabase) :
    findKey? name (overDefault entries) = findKey? name entries := by
  have hbase : findKey? name [(defaultDatabase, DatabaseSettings.toJson {})] = none :=
    Json.findKey?_eq_none_iff.mpr fun hmem => hname (List.mem_singleton.mp hmem)
  rw [overDefault, Json.findKey?_mergeEntries h, hbase, Option.or_none]
  exact congrFun Option.map_id _

theorem saidBy_empty : PartialDatabase.SaidBy {} (.obj []) := ⟨⟨[], rfl⟩, rfl, rfl, rfl⟩

variable (hsaid : p.DatabasesSaidBy entries) (hordered : (Json.obj entries).Ordered)
include hsaid hordered

theorem decode_default :
    Option.Rel (fun d value => Settings.decodeDatabase value = .ok d) (p.database? defaultDatabase)
      (findKey? defaultDatabase (overDefault entries)) := by
  have hcomplete : p.database? defaultDatabase =
      some ((OrderedMap.find? defaultDatabase p.databases).getD {}).complete := by
    rw [database?]
    cases OrderedMap.find? defaultDatabase p.databases <;> rfl
  rw [hcomplete, overDefault, Json.findKey?_mergeEntries_obj hordered.sorted.nodup rfl]
  have hd := rel_getD (hsaid defaultDatabase) saidBy_empty
  exact .some (hd.decode_merge (hordered.getD_get? defaultDatabase))

theorem decode_other (hload : p.Loadable) (hname : name ≠ defaultDatabase) :
    Option.Rel (fun d value => Settings.decodeDatabase value = .ok d) (p.database? name)
      (findKey? name (overDefault entries)) := by
  have hbase : OrderedMap.find? name ({} : Settings).databases = none :=
    if_neg (Ne.symm hname)
  rw [findKey?_overDefault_of_ne hordered.sorted.nodup hname, database?, hbase, Option.or_none]
  exact rel_map_left (hsaid name) fun d value hgiven hd =>
    hd.decode_of_isComplete ((hload name d hgiven).resolve_left hname)

/-- The databases of loadable settings are read, each with the defaults it has. -/
theorem decode_databases (hload : p.Loadable) :
    ∃ ds, Settings.decodeMap Settings.decodeDatabase (.obj (overDefault entries)) = .ok ds ∧
      ∀ name, OrderedMap.find? name ds = p.database? name := by
  refine Settings.decodeMap_found {} (sorted_overDefault entries).nodup fun name => ?_
  by_cases hname : name = defaultDatabase
  · subst hname
    exact decode_default hsaid hordered
  · exact decode_other hsaid hordered hload hname

/-- Settings of another database that leave something out are refused. -/
theorem refused_databases (hload : ¬p.Loadable) :
    ∃ reason, Settings.decodeMap Settings.decodeDatabase (.obj (overDefault entries)) =
      .error reason := by
  unfold Loadable at hload
  push Not at hload
  obtain ⟨name, d, hgiven, hname, hpart⟩ := hload
  obtain ⟨value, hvalue, hd⟩ := exists_right_of_rel_some (hgiven ▸ hsaid name)
  obtain ⟨reason, hreason⟩ := hd.refused_of_not_isComplete hpart
  have hentry := (findKey?_overDefault_of_ne hordered.sorted.nodup hname).trans hvalue
  exact Settings.decodeMap_refused (Json.mem_of_findKey? hentry) hreason

end Databases

/-- Whether a document that lies over the default settings can be read comes down to its
databases. -/
theorem SaidBy.decode_merge {p : PartialSettings} {document : Json} (h : p.SaidBy document)
    (hordered : document.Ordered) :
    ∃ entries, p.DatabasesSaidBy entries ∧ (Json.obj entries).Ordered ∧
      Settings.decode (Json.merge (Settings.toJson {}) document) =
        (Settings.decodeMap Settings.decodeDatabase (.obj (overDefault entries))).map fun ds =>
          { debug := p.debug.getD ({} : Settings).debug
            logLevel := p.logLevel.getD ({} : Settings).logLevel
            databases := ds
            query := p.query.complete } := by
  obtain ⟨⟨fields, rfl⟩, hdebug, hlevel, ⟨entries, hentries, hdatabases⟩, hquery⟩ := h
  have hnodup := hordered.sorted.nodup
  refine ⟨entries, hdatabases, hentries ▸ hordered.getD_get? "databases", ?_⟩
  refine Settings.decode_obj ?_ ?_ ?_ ?_ (hquery.decode_merge (hordered.getD_get? "query"))
  · exact Json.findKey?_mergeEntries_getD hnodup rfl hdebug fun _ _ => rfl
  · exact Json.findKey?_mergeEntries_getD hnodup rfl hlevel fun _ _ => rfl
  · refine (Json.findKey?_mergeEntries_obj hnodup rfl).trans (congrArg some ?_)
    exact congrArg (Json.merge _) hentries
  · exact Json.findKey?_mergeEntries_obj hnodup rfl

end PartialSettings

namespace Settings

/-- What is assumed of the readers of documents: an object that is read from JSON lists its keys
once and in order. -/
structure DocumentReader.Lawful (reader : DocumentReader) : Prop where
  json_ordered : ∀ {text document}, reader.json text = .ok document → document.Ordered

theorem documentReader_json_eq_ok {text : String} {document : Json} :
    documentReader.json text = .ok document ↔ Json.parse? text = some document := by
  change readOrRefuse (Json.parse? text) = .ok document ↔ _
  cases Json.parse? text <;> simp [readOrRefuse]

theorem documentReader_lawful : documentReader.Lawful where
  json_ordered h := Json.ordered_of_parse? (documentReader_json_eq_ok.mp h)

section Reader

variable [reader : DocumentReader] {text : String} {document : Json}

theorem parseDocument_json_eq_ok :
    parseDocument .json text = .ok document ↔ reader.json text = .ok document :=
  mapError_eq_ok _

theorem parseDocument_toml_eq_ok : parseDocument .toml text = .ok document ↔
    ∃ item, reader.toml text = .ok item ∧ item.toJson = document :=
  (mapError_eq_ok _).trans map_eq_ok

theorem ordered_of_parseDocument (h : reader.Lawful) {format : DocumentFormat}
    (hparse : parseDocument format text = .ok document) : document.Ordered := by
  cases format with
  | json => exact h.json_ordered (parseDocument_json_eq_ok.mp hparse)
  | toml =>
    obtain ⟨item, -, rfl⟩ := parseDocument_toml_eq_ok.mp hparse
    exact item.ordered_toJson

end Reader

/-- A document that says some settings is loaded with the default of every other one, unless it
leaves something out of a database other than the default one, which has nothing below it. -/
theorem load_said [reader : DocumentReader] (hreader : reader.Lawful) {format : DocumentFormat}
    {text : String} {document : Json} {p : PartialSettings}
    (hparse : parseDocument format text = .ok document) (hsaid : p.SaidBy document) :
    (p.Loadable → ∃ s, load format text = .ok s ∧ p.CompletedBy s) ∧
    (¬p.Loadable → ∃ reason,
      load format text = .error (.configuration (.illTyped format reason))) := by
  obtain ⟨entries, hdatabases, hordered, hdecode⟩ :=
    hsaid.decode_merge (ordered_of_parseDocument hreader hparse)
  have hload : load format text = ofDocument format document := by
    rw [load, hparse, ok_bind]
  rw [hload, ofDocument, hdecode]
  constructor
  · intro hloadable
    obtain ⟨ds, hread, hfind⟩ := PartialSettings.decode_databases hdatabases hordered hloadable
    rw [hread]
    exact ⟨_, rfl, ⟨rfl, rfl, hfind, rfl⟩⟩
  · intro hloadable
    obtain ⟨reason, hrefused⟩ := PartialSettings.refused_databases hdatabases hordered hloadable
    rw [hrefused]
    exact ⟨reason, rfl⟩

/-- A document that names the default database and turns the log off. -/
def quietText : String :=
  "\x7b\"databases\":\x7b\"default\":\x7b\"name\":\"app\"\x7d\x7d,\"query\":\x7b\"log_sql\":false\x7d\x7d"

set_option maxRecDepth 1000 in
theorem load_said_quiet : ∃ s, load .json quietText = .ok s ∧ s.logLevel = "info" ∧
    s.database defaultDatabase = .ok { name := "app" } ∧ s.query = { logSql := false } := by
  let p : PartialSettings :=
    { databases := [("default", { name := some "app" })], query := { logSql := some false } }
  let document : Json :=
    .obj [("databases", .obj [("default", .obj [("name", .str "app")])]),
      ("query", .obj [("log_sql", .bool false)])]
  have hdocument : Json.parse? quietText = some document := by rfl
  have hparse : parseDocument .json quietText = .ok document :=
    parseDocument_json_eq_ok.mpr (documentReader_json_eq_ok.mpr hdocument)
  have hdatabase : PartialDatabase.SaidBy { name := some "app" } (.obj [("name", .str "app")]) :=
    ⟨⟨_, rfl⟩, rfl, rfl, rfl⟩
  have hquery : p.query.SaidBy (.obj [("log_sql", .bool false)]) :=
    ⟨⟨_, rfl⟩, rfl, rfl, rfl, fun _ h => by cases h⟩
  have hsaid : p.SaidBy document :=
    ⟨⟨_, rfl⟩, rfl, rfl, ⟨_, rfl, PartialSettings.databasesSaidBy_singleton rfl hdatabase⟩, hquery⟩
  have hloadable : p.Loadable := fun name d h =>
    .inl (congrArg Prod.fst (List.mem_singleton.mp (OrderedMap.mem_of_find? h)))
  obtain ⟨s, hload, hs⟩ := (load_said documentReader_lawful hparse hsaid).1 hloadable
  refine ⟨s, hload, hs.logLevel, ?_, hs.query⟩
  rw [Settings.database, hs.database]
  rfl

/-- A document that only has the engine of a further database. -/
def replicaText : String :=
  "\x7b\"databases\":\x7b\"replica\":\x7b\"engine\":\"mysql\"\x7d\x7d\x7d"

/-- It is refused, although each setting that it leaves out has a default. -/
theorem load_refuses_replica :
    (∃ document, parseDocument .json replicaText = .ok document ∧
      PartialSettings.SaidBy { databases := [("replica", { engine := some "mysql" })] } document) ∧
    ∀ s, load .json replicaText ≠ .ok s := by
  let document : Json := .obj [("databases", .obj [("replica", .obj [("engine", .str "mysql")])])]
  have hdatabase : PartialDatabase.SaidBy { engine := some "mysql" }
      (.obj [("engine", .str "mysql")]) := ⟨⟨_, rfl⟩, rfl, rfl, rfl⟩
  have hquery : PartialQuery.SaidBy {} (.obj []) :=
    ⟨⟨_, rfl⟩, rfl, rfl, rfl, fun _ h => by cases h⟩
  have hsaid : PartialSettings.SaidBy
      { databases := [("replica", { engine := some "mysql" })] } document :=
    ⟨⟨_, rfl⟩, rfl, rfl, ⟨_, rfl, PartialSettings.databasesSaidBy_singleton rfl hdatabase⟩, hquery⟩
  have hdocument : Json.parse? replicaText = some document := by rfl
  have hparse : parseDocument .json replicaText = .ok document :=
    parseDocument_json_eq_ok.mpr (documentReader_json_eq_ok.mpr hdocument)
  have hdecode : decode (Json.merge (toJson {}) document) = .error "the entry name is missing" := by
    rfl
  refine ⟨⟨document, hparse, hsaid⟩, fun s h => ?_⟩
  rw [load, hparse, ok_bind, ofDocument, hdecode] at h
  cases h

end Settings
end RelMap
