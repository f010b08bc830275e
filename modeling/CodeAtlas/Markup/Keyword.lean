/-
  File:      CodeAtlas/Markup/Keyword.lean
  Subject:   Names in code, and the reserved words among them.

  * `isNameStart`, `isNamePart`: the characters of a name.
  * `qualifiedName?`: names joined by dots at the start of a text.
  * `highlightKeywords`: a text with its reserved words emphasised. The words of
    an address are left alone, and so is `class` before an equals sign.
-/
import CodeAtlas.Markup.Uri
import CodeAtlas.Text.Numeral

namespace CodeAtlas.Markup

/-- A name starts with an ASCII letter, an underscore or a dollar sign. -/
def isNameStart (c : Char) : Bool := c.isAlpha || c == '_' || c == '$'

/-- After its start a name may hold letters and numerals of any script. -/
def isNamePart (c : Char) : Bool := Text.isNameChar c || c == '$'

/-- A name at the start of a text. -/
def name? : Text → Option Text
  | [] => none
  | c :: rest => if isNameStart c then some (c :: rest.takeWhile isNamePart) else none

/-- The rest of a dotted name: a dot belongs to it if a name starts after the dot. -/
def qualifiedRest : Text → Text
  | [] => []
  | '.' :: d :: rest => if isNameStart d then '.' :: d :: qualifiedRest rest else []
  | c :: rest => if isNamePart c then c :: qualifiedRest rest else []

/-- Names joined by dots at the start of a text, as many as there are. -/
def qualifiedName? : Text → Option Text
  | [] => none
  | c :: rest => if isNameStart c then some (c :: qualifiedRest rest) else none

/-- A word as it is shown before `rest`. -/
def showWord (reserved : List Text) (word rest : Text) : Text :=
  if !reserved.contains word then word
  else if word == "class".toList && rest.head? == some '=' then word
  else "<strong class=\"jxr_keyword\">" ++ word ++ "</strong>"

/-- Emphasises reserved words after `skip` characters, which have been written already. `inName`
tells whether the character before belongs to a name. -/
def highlightKeywordsFrom (reserved : List Text) : (inName : Bool) → Nat → Text → Text
  | _, _, [] => []
  | _, skip + 1, c :: rest => highlightKeywordsFrom reserved (isNamePart c) skip rest
  | inName, 0, c :: rest =>
    match uri? (c :: rest) with
    | some uri => uri ++ highlightKeywordsFrom reserved (isNamePart c) (uri.length - 1) rest
    | none =>
      match if inName then none else name? (c :: rest) with
      | some word =>
        showWord reserved word ((c :: rest).drop word.length) ++
          highlightKeywordsFrom reserved (isNamePart c) (word.length - 1) rest
      | none => c :: highlightKeywordsFrom reserved (isNamePart c) 0 rest

/-- Emphasises the reserved words of a text. -/
def highlightKeywords (reserved : List Text) (text : Text) : Text :=
  highlightKeywordsFrom reserved false 0 text

end CodeAtlas.Markup
