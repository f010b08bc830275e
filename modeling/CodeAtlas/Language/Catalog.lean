/-
  File:      CodeAtlas/Language/Catalog.lean
  Subject:   The languages of a run: which there are and which a file is written in.

  * `Catalog.languageFor?`: the language of a file, by the lower-case suffix of
    its name; the first language that claims it.
  * `PlugIn`: a language that is contributed from outside, or a broken contribution.
  * `discover`: the built-in language and the plug-ins, as far as they are wanted.
-/
import CodeAtlas.Language.Profile
import CodeAtlas.Path
import CodeAtlas.Text.Lower

namespace CodeAtlas

/-- The languages of a run, in order of precedence. -/
structure Catalog where
  languages : List Language

namespace Catalog

/-- The first language that claims the suffix of a path, compared in lower case. -/
def languageFor? (catalog : Catalog) (path : Path) : Option Language :=
  catalog.languages.find? (·.extensions.contains (Text.lower path.suffix))

/-- The language of a path; files that no language claims are read as Java. -/
def languageFor (catalog : Catalog) (path : Path) : Language :=
  (catalog.languageFor? path).getD Language.java

/-- The include patterns of all languages. -/
def defaultIncludes (catalog : Catalog) : List Text :=
  catalog.languages.flatMap (·.defaultIncludes)

/-- The exclude patterns of all languages. -/
def defaultExcludes (catalog : Catalog) : List Text :=
  catalog.languages.flatMap (·.defaultExcludes)

end Catalog

/-! ## Discovery -/

/-- Whose failure it is when a plug-in fails to make its language. -/
inductive PlugIn.Origin where
  /-- One that this program has a name for. -/
  | program
  /-- One of the operating system. -/
  | system
  | elsewhere
  deriving DecidableEq, Repr

/-- What a plug-in turns out to hold. -/
inductive PlugIn.Content where
  | language (language : Language)
  /-- Something else than a language. -/
  | other
  /-- The plug-in cannot be loaded. -/
  | broken (why : Text)
  /-- The plug-in is loaded, but it fails to make its language. -/
  | failing (origin : PlugIn.Origin) (why : Text)

/-- A contributed language under the name it is asked for by. -/
structure PlugIn where
  name : Text
  content : PlugIn.Content

/-- Why the languages cannot be put together. -/
inductive DiscoveryError where
  | broken (name why : Text)
  | failing (origin : PlugIn.Origin) (why : Text)
  | notLanguage (name : Text)
  | unknown (names : List Text)
  deriving DecidableEq, Repr

/-- The wording of a discovery error. -/
def DiscoveryError.message : DiscoveryError → Text
  | .broken name why => "Failed to load language entry point '" ++ name ++ "': " ++ why
  | .failing _ why => why
  | .notLanguage name =>
    "Language factory for '" ++ name ++ "' did not return a SourceLanguage"
  | .unknown names => "Unknown languages requested: " ++ Text.join ", " names

/-- What discovery has found: the languages, and the lower-case names they were found under. -/
structure Discovery where
  languages : List Language
  names : List Text

/-- Looks at one plug-in. Every plug-in has to load; one whose name is taken or not wanted is
then passed over, and any other has to make a language. -/
def Discovery.visit (wanted : Option (List Text)) (found : Discovery) (plugIn : PlugIn) :
    Except DiscoveryError Discovery :=
  let key := Text.lower plugIn.name
  let passed := found.names.contains key || wanted.any (!·.contains key)
  match plugIn.content with
  | .broken why => .error (.broken plugIn.name why)
  | .language language =>
    if passed then .ok found
    else .ok ⟨found.languages ++ [language], found.names ++ [key]⟩
  | .other => if passed then .ok found else .error (.notLanguage plugIn.name)
  | .failing origin why => if passed then .ok found else .error (.failing origin why)

/-- The built-in language and the plug-ins in order, restricted to the names in `enabled` if
there is such a list. Every name that is asked for must be found. -/
def discover (enabled : Option (List Text)) (plugIns : List PlugIn) :
    Except DiscoveryError (List Language) := do
  let wanted := enabled.map (·.map Text.lower)
  let builtIn : PlugIn := ⟨"java", .language Language.java⟩
  let found ← (builtIn :: plugIns).foldlM (Discovery.visit wanted) ⟨[], []⟩
  let unknown := (wanted.getD []).filter (!found.names.contains ·)
  if unknown.isEmpty then .ok found.languages
  else .error (.unknown (Text.sorted unknown.eraseDups))

/-- The catalog without plug-ins. -/
def Catalog.standard : Catalog := ⟨[Language.java]⟩

end CodeAtlas
