/-
  File:      CodeAtlas/Platform.lean
  Subject:   What the program finds where it runs, besides the files.

  The platform is part of no module here and is not changed by a run. It is an instance
  that definitions take along, so that it need not be handed from one to the next.

  * `Stack`: how deep work goes before the platform stops it.
  * `Platform`: home folders, plug-ins, further encodings, and the stack.
  * `Platform.found`: the languages that are found.
  * `Platform.plain`: a platform that adds nothing; `Platform.usual` is one. What is found
    there is the built-in language (`Platform.found_plain`).
-/
import CodeAtlas.Language.Catalog
import CodeAtlas.Text.Encoding

namespace CodeAtlas

/-- How often work that goes down by calling itself may do so, for each kind of work. What goes
deeper is stopped. -/
structure Stack where
  /-- Types that are declared inside types. -/
  types : Nat
  /-- Folders inside folders, when it is looked whether a root holds sources. -/
  folders : Nat
  /-- Folders inside folders, when the files below a root are listed. -/
  listed : Nat
  /-- Folders above a folder that are missing when it is made. -/
  missing : Nat
  /-- Comments on a line. -/
  comments : Nat

/-- What the program finds where it runs. -/
class Platform where
  homes : Homes
  /-- The plug-ins that contribute languages. -/
  plugIns : List PlugIn
  /-- The encodings that are not spelled out here, by name. -/
  codec? : Text → Option Codec
  stack : Stack

namespace Platform

/-- The built-in language and those of the plug-ins. -/
def found [Platform] : Except DiscoveryError Catalog :=
  (discover none plugIns).map Catalog.mk

/-- The usual limits: about a thousand calls, of which a comment takes three. -/
def usualStack : Stack :=
  { types := 970, folders := 970, listed := 970, missing := 970, comments := 320 }

/-- A platform without plug-ins and without further encodings. -/
@[reducible] def plain (homes : Homes) : Platform :=
  { homes, plugIns := [], codec? := fun _ => none, stack := usualStack }

/-- The platform of this kind on which the home folder is `/root`. -/
@[reducible] def usual : Platform := plain { own := ⟨.root, ["root".toList]⟩ }

theorem found_plain (homes : Homes) : @found (plain homes) = .ok Catalog.standard := rfl

end Platform

end CodeAtlas
