import Mathlib.Data.List.Nodup
import Mathlib.Data.String.Basic
import RelMap.Proofs.Outcome
import RelMap.Proofs.Text.Split
import RelMap.Sqlite

/-! The options of SQLite databases as scripts. Only plain names and values get into a script,
so that it can be read back: no option is taken for more than one statement or for another
option. -/
namespace RelMap.Sqlite

open OrderedMap (keys)

/-- ASCII letters, digits, underscores and hyphens. -/
def PlainChar (c : Char) : Prop :=
  (('A' ≤ c ∧ c ≤ 'Z' ∨ 'a' ≤ c ∧ c ≤ 'z') ∨ '0' ≤ c ∧ c ≤ '9') ∨ c = '_' ∨ c = '-'

instance : DecidablePred PlainChar := fun _ => inferInstanceAs (Decidable (_ ∨ _))

/-- Texts of plain characters, of one at least. -/
structure Plain (text : String) : Prop where
  ne_empty : text ≠ ""
  chars : ∀ c ∈ text.toList, PlainChar c

/-- Options with plain names and values. -/
def PlainOptions (options : List (String × String)) : Prop :=
  ∀ option ∈ options, Plain option.1 ∧ Plain option.2

/-- The statement that sets an option. -/
def statement (option : String × String) : String := "PRAGMA " ++ option.1 ++ "=" ++ option.2

/-- The option that a statement sets. -/
def option? (text : List Char) : Option (String × String) :=
  (Text.dropStart? "PRAGMA ".toList text).bind fun setting =>
    match setting.splitOn '=' with
    | [name, value] => some (String.ofList name, String.ofList value)
    | _ => none

/-- The options that a script sets, read from what stands before its semicolons. -/
def optionsOf? (script : String) : Option (List (String × String)) :=
  (script.toList.splitOn ';').dropLast.mapM option?

variable {options others : List (String × String)} {script : String}

theorem plainChar_iff (c : Char) :
    PlainChar c ↔ (c.isAlphanum || decide (c = '_') || decide (c = '-')) = true := by
  have hupper : c.isUpper = true ↔ 'A' ≤ c ∧ c ≤ 'Z' := decide_eq_true_iff
  have hlower : c.isLower = true ↔ 'a' ≤ c ∧ c ≤ 'z' :=
    Bool.and_eq_true_iff.trans (and_congr decide_eq_true_iff decide_eq_true_iff)
  have hdigit : c.isDigit = true ↔ '0' ≤ c ∧ c ≤ '9' :=
    Bool.and_eq_true_iff.trans (and_congr decide_eq_true_iff decide_eq_true_iff)
  have halphanum : c.isAlphanum = (c.isUpper || c.isLower || c.isDigit) := rfl
  simp only [PlainChar, halphanum, Bool.or_eq_true, hupper, hlower, hdigit, decide_eq_true_eq,
    or_assoc]

theorem isPlain_iff (text : String) : isPlain text = true ↔ Plain text := by
  simp only [isPlain, Bool.and_eq_true, Bool.not_eq_true', List.all_eq_true, ← plainChar_iff]
  constructor
  · intro h
    have hne : text ≠ "" := by
      intro hempty
      simp [hempty] at h
    exact ⟨hne, h.2⟩
  · intro h
    have hne : text.isEmpty = false := by simpa using h.ne_empty
    exact ⟨hne, h.chars⟩

instance (text : String) : Decidable (Plain text) := decidable_of_iff _ (isPlain_iff text)

instance (options : List (String × String)) : Decidable (PlainOptions options) :=
  inferInstanceAs (Decidable (∀ option ∈ options, _))

theorem Plain.not_mem {text : String} (h : Plain text) {c : Char} (hc : ¬PlainChar c) :
    c ∉ text.toList := fun hmem => hc (h.chars c hmem)

theorem statement_not_mem {option : String × String} (h : Plain option.1 ∧ Plain option.2) :
    ';' ∉ (statement option).toList := by
  have hname : ';' ∉ option.1.toList := h.1.not_mem (by decide)
  have hvalue : ';' ∉ option.2.toList := h.2.not_mem (by decide)
  simp [statement, hname, hvalue]

theorem option?_statement {option : String × String} (h : Plain option.1 ∧ Plain option.2) :
    option? (statement option).toList = some option := by
  have htext : (statement option).toList =
      "PRAGMA ".toList ++ (option.1.toList ++ '=' :: option.2.toList) := by
    simp [statement]
  have hname : '=' ∉ option.1.toList := h.1.not_mem (by decide)
  have hvalue : '=' ∉ option.2.toList := h.2.not_mem (by decide)
  have hlast : option.2.toList.splitOn '=' = [option.2.toList] := by
    have hjoined : (List.intercalate ['='] [option.2.toList]).splitOn '=' = [option.2.toList] :=
      List.splitOn_intercalate '=' (by simpa using hvalue) (List.cons_ne_nil _ _)
    rwa [List.intercalate_singleton] at hjoined
  rw [option?, htext, Text.dropStart?_append, Option.bind_some,
    List.splitOn_append_cons_self_of_not_mem hname, hlast]
  simp

/-- The options in the order of their names. -/
def inOrder (options : List (String × String)) : List (String × String) :=
  options.mergeSort fun a b => a.1 ≤ b.1

/-- The statements that set options, a semicolon behind each. -/
def scriptOf (options : List (String × String)) : String :=
  Text.joinWith "" (options.map fun option => statement option ++ ";")

theorem inOrder_perm (options : List (String × String)) : (inOrder options).Perm options :=
  List.mergeSort_perm options _

theorem plainOptions_congr (h : others.Perm options) :
    PlainOptions others ↔ PlainOptions options := by
  simp only [PlainOptions, h.mem_iff]

theorem pairwise_inOrder (h : (keys options).Nodup) :
    (keys (inOrder options)).Pairwise (· < ·) := by
  have htrans : ∀ a b c : String × String, decide (a.1 ≤ b.1) = true → decide (b.1 ≤ c.1) = true →
      decide (a.1 ≤ c.1) = true := by
    intro a b c hab hbc
    exact decide_eq_true ((of_decide_eq_true hab).trans (of_decide_eq_true hbc))
  have htotal : ∀ a b : String × String, (decide (a.1 ≤ b.1) || decide (b.1 ≤ a.1)) = true := by
    intro a b
    simpa using le_total a.1 b.1
  have hle : (inOrder options).Pairwise fun a b => a.1 ≤ b.1 :=
    (List.pairwise_mergeSort htrans htotal options).imp of_decide_eq_true
  have hne : (keys (inOrder options)).Nodup := ((inOrder_perm options).map _).nodup_iff.mpr h
  have hboth := (List.pairwise_map.mpr hle).and hne
  exact hboth.imp fun h => lt_of_le_of_ne h.1 h.2

/-- The order in which the options come does not matter. -/
theorem inOrder_congr (hnodup : (keys options).Nodup) (h : others.Perm options) :
    inOrder others = inOrder options := by
  have hperm : (inOrder others).Perm (inOrder options) :=
    (inOrder_perm others).trans (h.trans (inOrder_perm options).symm)
  have hothers : (keys others).Nodup := (h.map _).nodup_iff.mpr hnodup
  have hsorted := List.pairwise_map.mp (pairwise_inOrder hnodup)
  have hsorted' := List.pairwise_map.mp (pairwise_inOrder hothers)
  -- Both are in strict order, which a permutation cannot change.
  exact hperm.eq_of_pairwise (fun a b _ _ hab hba => absurd hab (lt_asymm hba)) hsorted' hsorted

theorem pragma_of_plain {option : String × String} (h : Plain option.1 ∧ Plain option.2) :
    pragma option = .ok (statement option ++ ";") := by
  have hname : isPlain option.1 = true := (isPlain_iff _).mpr h.1
  have hvalue : isPlain option.2 = true := (isPlain_iff _).mpr h.2
  simp [pragma, hname, hvalue, statement]

theorem exists_pragma_iff (option : String × String) :
    (∃ text, pragma option = .ok text) ↔ Plain option.1 ∧ Plain option.2 := by
  constructor
  · intro h
    have hplain : (isPlain option.1 && isPlain option.2) = true := by
      by_contra hnot
      obtain ⟨text, htext⟩ := h
      simp [pragma, hnot] at htext
    rw [Bool.and_eq_true, isPlain_iff, isPlain_iff] at hplain
    exact hplain
  · intro h
    exact ⟨_, pragma_of_plain h⟩

theorem pragmaScript_of_plain (h : PlainOptions options) :
    pragmaScript options = .ok (scriptOf (inOrder options)) := by
  have hplain : PlainOptions (inOrder options) := (plainOptions_congr (inOrder_perm options)).mpr h
  have hmap : (inOrder options).mapM pragma =
      .ok ((inOrder options).map fun option => statement option ++ ";") := by
    rw [mapM_congr_of_mem fun option hoption => pragma_of_plain (hplain option hoption)]
    exact mapM_ok _ _
  rw [pragmaScript]
  exact congrArg (· >>= _) hmap

theorem exists_pragmaScript_iff :
    (∃ script, pragmaScript options = .ok script) ↔ PlainOptions options := by
  constructor
  · intro h
    obtain ⟨script, hscript⟩ := h
    obtain ⟨statements, hstatements, -⟩ := bind_eq_ok.mp hscript
    have hall := exists_mapM_eq_ok_iff.mp ⟨statements, hstatements⟩
    rw [← plainOptions_congr (inOrder_perm options)]
    intro option hoption
    exact (exists_pragma_iff option).mp (hall option hoption)
  · intro h
    exact ⟨_, pragmaScript_of_plain h⟩

/-- The error of settings that are refused. -/
def Refusal (e : Error) : Prop := ∃ fault, e = .configuration fault

theorem pragmaScript_failsOnly (options : List (String × String)) :
    FailsOnly Refusal (pragmaScript options) := by
  have hpragma : ∀ option, FailsOnly Refusal (pragma option) := by
    intro option e he
    unfold pragma at he
    dsimp only at he
    split_ifs at he
    exact ⟨_, (Except.error.inj he).symm⟩
  exact (FailsOnly.mapM fun option _ => hpragma option).bind fun _ => .ok _

/-- Before each semicolon of a script stands one statement, and nothing stands behind the last. -/
theorem splitOn_scriptOf (h : PlainOptions options) :
    (scriptOf options).toList.splitOn ';' =
      options.map (fun option => (statement option).toList) ++ [[]] := by
  induction options with
  | nil => rfl
  | cons option options ih =>
    obtain ⟨hoption, hrest⟩ := List.forall_mem_cons.mp h
    have htext : (scriptOf (option :: options)).toList =
        (statement option).toList ++ ';' :: (scriptOf options).toList := by
      cases options with
      | nil => simp [scriptOf, Text.joinWith]
      | cons next more => simp [scriptOf, Text.joinWith]
    rw [htext, List.splitOn_append_cons_self_of_not_mem (statement_not_mem hoption), ih hrest]
    rfl

theorem optionsOf?_scriptOf (h : PlainOptions options) :
    optionsOf? (scriptOf options) = some options := by
  rw [optionsOf?, splitOn_scriptOf h, List.dropLast_concat]
  induction options with
  | nil => rfl
  | cons option options ih =>
    obtain ⟨hoption, hrest⟩ := List.forall_mem_cons.mp h
    rw [List.map_cons, List.mapM_cons, option?_statement hoption, ih hrest]
    rfl

/-- A script of one statement for each of these options, which are in the order of their names. They
are read back from what stands before the semicolons. -/
structure Spells (script : String) (options : List (String × String)) : Prop where
  increasing : (keys options).Pairwise (· < ·)
  text_eq : script = Text.joinWith "" (options.map fun option =>
    "PRAGMA " ++ option.1 ++ "=" ++ option.2 ++ ";")
  statements : script.toList.splitOn ';' =
    options.map (fun option => (statement option).toList) ++ [[]]
  options_eq : optionsOf? script = some options

/-- A script for these options and no others, in whatever order they come. -/
def Sets (script : String) (options : List (String × String)) : Prop :=
  ∃ sorted, sorted.Perm options ∧ Spells script sorted

theorem sets_scriptOf (hmap : (keys options).Nodup) (h : PlainOptions options) :
    Sets (scriptOf (inOrder options)) options := by
  have hplain : PlainOptions (inOrder options) := (plainOptions_congr (inOrder_perm options)).mpr h
  exact ⟨inOrder options, inOrder_perm options, pairwise_inOrder hmap, rfl,
    splitOn_scriptOf hplain, optionsOf?_scriptOf hplain⟩

theorem sets_of_pragmaScript (hmap : (keys options).Nodup)
    (h : pragmaScript options = .ok script) : Sets script options := by
  have hplain : PlainOptions options := exists_pragmaScript_iff.mp ⟨script, h⟩
  have hscript : scriptOf (inOrder options) = script :=
    Except.ok.inj ((pragmaScript_of_plain hplain).symm.trans h)
  rw [← hscript]
  exact sets_scriptOf hmap hplain

/-- Different options have different scripts. -/
theorem Sets.perm (h : Sets script options) (hothers : Sets script others) :
    others.Perm options := by
  obtain ⟨sorted, hperm, hsorted⟩ := h
  obtain ⟨sorted', hperm', hsorted'⟩ := hothers
  have hsame : sorted = sorted' :=
    Option.some.inj (hsorted.options_eq.symm.trans hsorted'.options_eq)
  rw [hsame] at hperm
  exact hperm'.symm.trans hperm

theorem pragmaScript_congr (hmap : (keys options).Nodup) (h : others.Perm options) :
    pragmaScript others = pragmaScript options := by
  have hsame := inOrder_congr hmap h
  rw [inOrder, inOrder] at hsame
  rw [pragmaScript, pragmaScript, hsame]

theorem parse_failsOnly (engine : String) : FailsOnly Refusal (Dialect.parse engine) := by
  intro e he
  unfold Dialect.parse at he
  dsimp only at he
  split_ifs at he
  exact ⟨_, (Except.error.inj he).symm⟩

/-- The statements that prepare every database, before those of its options. -/
def preamble (path : String) : String :=
  if path = ":memory:" then "PRAGMA foreign_keys=ON;"
  else "PRAGMA journal_mode=WAL; PRAGMA foreign_keys=ON;"

section Open

variable {σ κ : Type} {s : DatabaseSettings}

theorem ofSettings_of_sqlite (hengine : Dialect.parse s.engine = .ok .sqlite)
    (hscript : pragmaScript s.options = .ok script) :
    Opening.ofSettings s = .ok ⟨s.name, preamble s.name ++ script⟩ := by
  have hpreamble : (if isInMemory s.name then "" else "PRAGMA journal_mode=WAL; ")
      ++ "PRAGMA foreign_keys=ON;" = preamble s.name := by
    unfold preamble isInMemory
    by_cases hmemory : s.name = ":memory:"
    · simp [hmemory]
    · simp [hmemory]
  simp only [Opening.ofSettings, hengine, hscript, ok_bind, hpreamble]
  rfl

theorem ofSettings_failsOnly (s : DatabaseSettings) : FailsOnly Refusal (Opening.ofSettings s) := by
  unfold Opening.ofSettings
  apply (parse_failsOnly s.engine).bind
  intro dialect
  by_cases hdialect : dialect ≠ .sqlite
  · rw [if_pos hdialect]
    exact fun e he => ⟨_, (Except.error.inj he).symm⟩
  · rw [if_neg hdialect]
    exact (pragmaScript_failsOnly s.options).bind fun _ => .ok _

theorem sqlite_of_ofSettings {o : Opening} (h : Opening.ofSettings s = .ok o) :
    Dialect.parse s.engine = .ok .sqlite ∧ PlainOptions s.options := by
  obtain ⟨dialect, hdialect, hrest⟩ := bind_eq_ok.mp h
  by_cases hsqlite : dialect = .sqlite
  · rw [if_neg (not_not_intro hsqlite)] at hrest
    obtain ⟨script, hscript, -⟩ := bind_eq_ok.mp hrest
    rw [hsqlite] at hdialect
    exact ⟨hdialect, exists_pragmaScript_iff.mp ⟨script, hscript⟩⟩
  · rw [if_pos hsqlite] at hrest
    cases hrest

/-- Settings are refused before the library is called at all. -/
theorem openSettings_refused (library : Library σ κ) (world : σ)
    (h : Dialect.parse s.engine ≠ .ok .sqlite ∨ ¬PlainOptions s.options) :
    ∃ fault, openSettings library s world = (.error (.configuration fault), world) := by
  rw [openSettings]
  cases hopening : Opening.ofSettings s with
  | error e =>
    obtain ⟨fault, rfl⟩ := ofSettings_failsOnly s e hopening
    exact ⟨fault, rfl⟩
  | ok o =>
    obtain ⟨hengine, hplain⟩ := sqlite_of_ofSettings hopening
    rcases h with h | h
    · exact absurd hengine h
    · exact absurd hplain h

theorem openSettings_eq (library : Library σ κ) (world : σ)
    (hengine : Dialect.parse s.engine = .ok .sqlite)
    (hscript : pragmaScript s.options = .ok script) :
    openSettings library s world =
      Opening.perform library ⟨s.name, preamble s.name ++ script⟩ world := by
  rw [openSettings, ofSettings_of_sqlite hengine hscript]

end Open

/-- The options of a database cannot smuggle statements in. They have a script exactly if all their
names and values are plain; it sets each of them by a statement of its own in the order of their
names and does nothing else, so that different options have different scripts, and the order in
which they come does not matter. Settings with other options, or of another engine, are refused
before the library is called; else it runs the script behind the preamble. -/
theorem options_sealed {s : DatabaseSettings} (hmap : (keys s.options).Nodup) :
    ((∃ script, pragmaScript s.options = .ok script) ↔ PlainOptions s.options) ∧
    (∀ script, pragmaScript s.options = .ok script → Sets script s.options) ∧
    (∀ others script, (keys others).Nodup → pragmaScript s.options = .ok script →
      pragmaScript others = .ok script → others.Perm s.options) ∧
    (∀ others, others.Perm s.options → pragmaScript others = pragmaScript s.options) ∧
    ∀ (σ κ : Type) (library : Library σ κ) (world : σ),
      (Dialect.parse s.engine ≠ .ok .sqlite ∨ ¬PlainOptions s.options →
        ∃ fault, openSettings library s world = (.error (.configuration fault), world)) ∧
      ∀ script, Dialect.parse s.engine = .ok .sqlite → pragmaScript s.options = .ok script →
        openSettings library s world =
          Opening.perform library ⟨s.name, preamble s.name ++ script⟩ world := by
  constructor
  · exact exists_pragmaScript_iff
  constructor
  · intro script hscript
    exact sets_of_pragmaScript hmap hscript
  constructor
  · intro others script hothers hscript hscript'
    exact (sets_of_pragmaScript hmap hscript).perm (sets_of_pragmaScript hothers hscript')
  constructor
  · intro others hperm
    exact pragmaScript_congr hmap hperm
  · intro σ κ library world
    constructor
    · exact openSettings_refused library world
    · intro script hengine hscript
      exact openSettings_eq library world hengine hscript

/-- A library whose calls all succeed, and which counts them. -/
def countingLibrary : Library Nat Unit where
  connect _ calls := (.ok (), calls + 1)
  runScript _ _ calls := (.ok (), calls + 1)

/-- Two options, not in the order of their names. -/
def cacheOptions : DatabaseSettings :=
  { options := [("journal_mode", "wal"), ("cache_size", "-2000")] }

/-- A value with a statement of its own. -/
def smugglingOptions : DatabaseSettings :=
  { options := [("journal_mode", "WAL; DROP TABLE t")] }

theorem options_sealed_cache :
    (keys cacheOptions.options).Nodup ∧ (keys smugglingOptions.options).Nodup ∧
    pragmaScript cacheOptions.options = .ok "PRAGMA cache_size=-2000;PRAGMA journal_mode=wal;" ∧
    Sets "PRAGMA cache_size=-2000;PRAGMA journal_mode=wal;" cacheOptions.options ∧
    openSettings countingLibrary cacheOptions 0 = (.ok ⟨":memory:", ()⟩, 2) ∧
    ∃ fault, openSettings countingLibrary smugglingOptions 0 =
      (.error (.configuration fault), 0) := by
  have hcache : (keys cacheOptions.options).Nodup := by decide
  have hsmuggling : (keys smugglingOptions.options).Nodup := by decide
  have hplain : PlainOptions cacheOptions.options := by decide
  have hnot : ¬PlainOptions smugglingOptions.options := by decide
  have hengine : Dialect.parse cacheOptions.engine = .ok .sqlite := rfl
  have hsorted : inOrder cacheOptions.options =
      [("cache_size", "-2000"), ("journal_mode", "wal")] := by
    simp [inOrder, cacheOptions, List.mergeSort, List.MergeSort.Internal.splitInTwo]
  have hscript : pragmaScript cacheOptions.options =
      .ok "PRAGMA cache_size=-2000;PRAGMA journal_mode=wal;" := by
    rw [pragmaScript_of_plain hplain, hsorted]
    rfl
  obtain ⟨-, hsets, -, -, hopen⟩ := options_sealed hcache
  obtain ⟨-, -, -, -, hrefuse⟩ := options_sealed hsmuggling
  have hopened := (hopen Nat Unit countingLibrary 0).2 _ hengine hscript
  exact ⟨hcache, hsmuggling, hscript, hsets _ hscript, hopened,
    (hrefuse Nat Unit countingLibrary 0).1 (.inr hnot)⟩

end RelMap.Sqlite
