/-
  File:      CodeAtlas/Language/Profile.lean
  Subject:   What is known about one source language.

  * `Language`: the words and file names that reading and highlighting need.
  * `Language.java`: the built-in profile.
  * `Language.pageName`: a file name without the extension of its language.
-/
import CodeAtlas.Text.Basic

namespace CodeAtlas

/-- A source language. -/
structure Language where
  name : Text
  /-- File name endings, with their dot. -/
  extensions : List Text
  /-- Words after which a type is named. -/
  typeKeywords : List Text
  /-- Words that are highlighted. -/
  reservedWords : List Text
  /-- Imports that every file has without writing them. -/
  implicitImports : List Text
  /-- The name of a file that only describes its package. -/
  packageMarker : Option Text
  /-- Patterns of the files to read when none are given. -/
  defaultIncludes : List Text
  deriving DecidableEq, Repr

namespace Language

/-- Drops the first extension that a file name ends with, or else its last suffix. An empty
extension takes the whole name with it. -/
def pageName (language : Language) (fileName : Text) : Text :=
  match language.extensions.find? (·.isSuffixOf fileName) with
  | some [] => []
  | some extension => fileName.take (fileName.length - extension.length)
  | none =>
    match Text.cutLast? '.' fileName with
    | some (stem@(_ :: _), _) => stem
    | _ => fileName

/-- Patterns of the files that are never read: the package markers. -/
def defaultExcludes (language : Language) : List Text :=
  match language.packageMarker with
  | some marker@(_ :: _) => ["**/" ++ marker]
  | _ => []

/-- The same language with other words to highlight. -/
def withReservedWords (language : Language) (words : List Text) : Language :=
  { language with reservedWords := words.eraseDups }

/-- The words that Java highlights. Some of them were never keywords, and the newer contextual
ones are not among them. -/
def javaReservedWords : List Text :=
  List.map String.toList
  ["abstract", "boolean", "break", "byvalue", "case", "cast", "catch", "char", "class", "const",
   "continue", "default", "do", "double", "else", "extends", "final", "finally", "float", "for",
   "generic", "goto", "if", "implements", "import", "inner", "int", "interface", "long", "native",
   "new", "null", "operator", "outer", "package", "private", "protected", "public", "rest",
   "return", "short", "static", "super", "switch", "synchronized", "this", "throw", "throws",
   "transient", "true", "try", "var", "void", "volatile", "while"]

/-- The built-in profile of Java. -/
def java : Language where
  name := "java"
  extensions := [".java"]
  typeKeywords := ["class", "interface", "enum", "record"]
  reservedWords := javaReservedWords
  implicitImports := ["java.lang.*"]
  packageMarker := some "package-info.java".toList
  defaultIncludes := ["**/*.java"]

end Language

end CodeAtlas
