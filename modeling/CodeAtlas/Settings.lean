/-
  File:      CodeAtlas/Settings.lean
  Subject:   What a run is told.

  * `Settings`: sources, destination, titles, encodings and so on.
  * `Settings.sourceRoots`, `Settings.destinationFolder`: where sources are read
    and pages are written when nothing is said.
  * `sourceEndings`: the file name endings that make a root worth scanning.
-/
import CodeAtlas.Footer
import CodeAtlas.Language.Catalog

namespace CodeAtlas

/-- Where the matching API documentation lives. -/
structure ApiSettings where
  enabled : Bool := true
  folder : Option Path := none
  /-- The version of the tool whose look the navigation pages follow. -/
  version : Option Text := none

/-- The settings of a run. -/
structure Settings where
  root : Path
  sourceFolders : List Path := []
  destination : Option Path := none
  includes : List Text := []
  excludes : List Text := []
  windowTitle : Text := "Cross Reference"
  docTitle : Text := "Cross Reference"
  bottom : Text := defaultFooter
  inceptionYear : Option Text := none
  organization : Organization := {}
  inputEncoding : Option Text := none
  outputEncoding : Text := "utf-8"
  locale : Text := "en"
  api : ApiSettings := {}
  templateFolder : Option Path := none
  stylesheet : Option Path := none
  revision : Option Text := none
  /-- Words to highlight in the place of those of the languages. -/
  keywords : List Text := []

namespace Settings

/-- The folders with sources. -/
def sourceRoots (settings : Settings) : List Path :=
  if settings.sourceFolders.isEmpty then
    [((settings.root.child "src").child "main").child "java"]
  else settings.sourceFolders

/-- The folder that the pages are written to. -/
def destinationFolder (settings : Settings) : Path :=
  settings.destination.getD ((settings.root.child "target").child "xref")

end Settings

/-- The ending that a pattern asks for; the empty one if it is not certain. -/
def patternEnding (pattern : Text) : Text :=
  let ending := (Path.ofText pattern).suffix
  if ending.contains '*' || ending.contains '?' then [] else ending

/-- The file name endings that make a folder worth scanning: those of the include patterns or,
without patterns, those of the languages. -/
def sourceEndings (includes : List Text) (catalog : Catalog) : List Text :=
  if includes.isEmpty then catalog.languages.flatMap (·.extensions)
  else includes.map patternEnding

end CodeAtlas
