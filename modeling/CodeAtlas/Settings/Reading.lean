/-
  File:      CodeAtlas/Settings/Reading.lean
  Subject:   Reading settings from a configuration file.

  * `settingsPath`: the file that a path stands for: the file itself if it is
    named like one, or else the one in the folder.
  * `Settings.ofDocument`: the settings that the values of a text describe. A
    setting of the wrong kind counts as missing.
  * `Settings.load`: reads the file. A missing or blank one gives the defaults.
-/
import CodeAtlas.Decimal.Shortest
import CodeAtlas.Failure
import CodeAtlas.Settings
import CodeAtlas.Yaml.Document

namespace CodeAtlas

open Yaml (Value Document)

/-- Why there are no settings. -/
inductive SettingsError where
  | notMapping
  | malformed (file : Text) (why : Text)
  | unreadable (file : Text) (fault : ReadFault)
  /-- A scalar is impossible as a value of its kind. -/
  | badValue (fault : Yaml.Fault)
  /-- A number has too many digits to be written. -/
  | longNumber
  /-- A path cannot be looked up. -/
  | lookup (fault : FileFault)

/-- The name of the configuration file. -/
def settingsFile : Text := ".srcxref.yml"

namespace SettingsError

/-- The wording of an error. -/
def message : SettingsError → Text
  | .notMapping => settingsFile ++ " must contain a mapping at the root"
  | .malformed file why => "Failed to parse " ++ file ++ ": " ++ why
  | .unreadable file fault => "Failed to read " ++ file ++ ": " ++ fault.message
  | .badValue fault => fault.message
  | .longNumber => Decimal.lengthMessage []
  | .lookup fault => fault.message

/-- Whether an error is one of the configuration as a whole, which ends the program with its
message. -/
def isReported : SettingsError → Bool
  | .badValue _ | .longNumber | .lookup _ => false
  | _ => true

end SettingsError

/-! ## 1. Values -/

namespace Yaml.Value

/-- Texts, numbers and truth values as texts. An integer may be too long to be written. -/
def asText? : Value → Except SettingsError (Option Text)
  | .text body => .ok (some body)
  | .int n =>
    match Decimal.integerText? n with
    | some digits => .ok (some digits)
    | none => .error .longNumber
  | .float x => .ok (some (Decimal.floatText x))
  | .bool true => .ok (some "True".toList)
  | .bool false => .ok (some "False".toList)
  | _ => .ok none

/-- A text that is not empty. -/
def asWord? (value : Value) : Except SettingsError (Option Text) :=
  value.asText?.map (·.filter (!·.isEmpty))

/-- A truth value, also one that is written as a text. -/
def asBool? : Value → Option Bool
  | .bool value => some value
  | .text body =>
    let word := Text.lower (Text.trim body)
    if ["true".toList, "yes".toList, ['1']].contains word then some true
    else if ["false".toList, "no".toList, ['0']].contains word then some false
    else none
  | _ => none

/-- The texts of a list; a single text is a list of one, and bytes are a list of numbers. -/
def asTexts (document : Document) : Value → Except SettingsError (List Text)
  | .text body => .ok [body]
  | .bytes octets => .ok (octets.map fun byte => Text.ofNat byte.toNat)
  | .list items => do
    let texts ← items.mapM fun item => (document.part item).asText?
    .ok (texts.filterMap fun text => text)
  | _ => .ok []

end Yaml.Value

/-! ## 2. Settings -/

/-- The defaults for a folder, whose name is in the titles. -/
def Settings.defaults (root : Path) : Settings :=
  let title : Text := if root.name.isEmpty then "Cross Reference" else root.name ++ " Reference"
  { root, windowTitle := title, docTitle := title }

variable [Platform]

/-- A path seen from a folder, in which a leading `~` is a home folder. -/
def pathFrom (root : Path) (text : Text) : Except SettingsError Path :=
  ((Path.ofText text).expand.map root.join).mapError .lookup

/-- A path that may be missing. -/
def pathFrom? (root : Path) (text : Option Text) :
    Except SettingsError (Option Path) :=
  match text with
  | some text => (pathFrom root text).map some
  | none => .ok none

/-- The settings that the values of a text describe. They are read one after another, and the
first that cannot be read is the error. -/
def Settings.ofDocument (root : Path) (document : Document) : Except SettingsError Settings := do
  let field := document.field document.root
  let text (key : Text) := (field key).asText?
  let word (key : Text) := (field key).asWord?
  let texts (key : Text) := (field key).asTexts document
  let path (key : Text) := do pathFrom? root (← word key)
  let defaults := Settings.defaults root
  let sourceFolders ← (← texts "source_dirs").mapM (pathFrom root)
  let destination ← path "destination"
  let includes ← texts "includes"
  let excludes ← texts "excludes"
  let windowTitle ← word "window_title"
  let docTitle ← word "doc_title"
  let bottom ← text "bottom"
  let inceptionYear ← text "inception_year"
  let owner := document.field (field "organization")
  let ownerName ← (owner "name").asText?
  let ownerUrl ← (owner "url").asText?
  let inputEncoding ← text "input_encoding"
  let outputEncoding ← word "output_encoding"
  let locale ← word "locale"
  let api := document.field (field "javadoc")
  let apiFolder ← pathFrom? root (← (api "dir").asWord?)
  let apiVersion ← (api "version").asText?
  let templateFolder ← path "template_dir"
  let stylesheet ← path "stylesheet"
  let revision ← text "revision"
  let keywords ← texts "keywords"
  .ok
    { root, sourceFolders, destination, includes, excludes, inceptionYear, inputEncoding
      templateFolder, stylesheet, revision, keywords
      windowTitle := windowTitle.getD defaults.windowTitle
      docTitle := docTitle.getD defaults.docTitle
      bottom := bottom.getD defaults.bottom
      organization := { name := ownerName, url := ownerUrl }
      outputEncoding := outputEncoding.getD defaults.outputEncoding
      locale := locale.getD defaults.locale
      api :=
        { enabled := (api "enabled").asBool?.getD true
          folder := apiFolder
          version := apiVersion } }

/-! ## 3. Files -/

/-- The configuration file that an absolute path stands for. -/
def settingsPath (tree : Tree) (path : Path) : Except FileFault Path := do
  if ← tree.isFolder path then (path.child settingsFile).resolve
  else if path.suffix == ".yml".toList || path.suffix == ".yaml".toList then path.resolve
  else (path.parent.child settingsFile).resolve

/-- The values of a configuration file, which must be those of a mapping; a blank file is an
empty one. -/
def settingsDocument (tree : Tree) (path : Path) : Except SettingsError Document := do
  let text ← (tree.readText path "utf-8").mapError (.unreadable path.name)
  if (Text.trim text).isEmpty then .ok ⟨.map [], #[]⟩
  else
    match Document.read text with
    | .ok document =>
      match document.root with
      | .map _ => .ok document
      | .null => .ok ⟨.map [], #[]⟩
      | _ => .error .notMapping
    | .error (.malformed why) => .error (.malformed path.name why)
    | .error fault => .error (.badValue fault)

/-- The settings for a path seen from the folder `current`. -/
def Settings.load (tree : Tree) (current path : Path) : Except SettingsError Settings := do
  let path ← path.expand.mapError .lookup
  let file ← (settingsPath tree (current.join path)).mapError .lookup
  if ← (tree.holds file).mapError .lookup then
    Settings.ofDocument file.parent (← settingsDocument tree file)
  else .ok (Settings.defaults file.parent)

end CodeAtlas
