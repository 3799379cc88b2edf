import RelMap.Json.Merge
import RelMap.Json.Reader
import RelMap.Settings.Document
import RelMap.Toml.Reader

/-!
Loading settings from a document. The document is laid over the default settings, so it only has
to say what differs from them.
-/
namespace RelMap.Settings

/-- What reads the texts of documents, or says why it cannot. -/
class DocumentReader where
  json : String → Except String Json
  toml : String → Except String Toml.Item

/-- What was read of a text, if it is a document. -/
def readOrRefuse {α : Type} (read : Option α) : Except String α :=
  read.elim (.error "the text is not a document") .ok

/-- The readers of this library. -/
instance documentReader : DocumentReader where
  json text := readOrRefuse (Json.parse? text)
  toml text := readOrRefuse (Toml.parse? text)

/-- The document that a text holds. -/
def parseDocument [DocumentReader] (format : DocumentFormat) (text : String) : Except Error Json :=
  let document := match format with
    | .json => DocumentReader.json text
    | .toml => (DocumentReader.toml text).map Toml.Item.toJson
  document.mapError fun reason => .configuration (.malformed format reason)

/-- Settings from a document of a format. -/
def ofDocument (format : DocumentFormat) (document : Json) : Except Error Settings :=
  match decode (Json.merge (toJson {}) document) with
  | .ok s => .ok s
  | .error reason => .error (.configuration (.illTyped format reason))

/-- Settings from the text of a document. -/
def load [DocumentReader] (format : DocumentFormat) (text : String) : Except Error Settings := do
  ofDocument format (← parseDocument format text)

/-- Settings from a file, given its path and what reading it has yielded. -/
def loadFile [DocumentReader] (format : DocumentFormat) (path : String)
    (contents : Except String String) : Except Error Settings :=
  match contents with
  | .ok text => load format text
  | .error reason => .error (.configuration (.unreadable format path reason))

end RelMap.Settings
