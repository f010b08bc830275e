/-
  File:      CodeAtlas/Markup/TypeLink.lean
  Subject:   Links from names to types, and anchors where types are declared.

  The text is marked up already: words are taken between blanks and brackets,
  tags among them, and what is not part of a tag tells which word came before.

  * `nameCandidates`: the names a word may stand for, longest first.
  * `claim?`: the declaration that a name on the line introduces, as long as its
    anchor has not been placed.
  * `linkTypes`: a text with its names linked, and the anchors placed so far.
-/
import CodeAtlas.Markup.Escape
import CodeAtlas.Markup.Keyword
import CodeAtlas.Markup.Linker
import CodeAtlas.Markup.Words

namespace CodeAtlas.Markup

/-- The names of the types whose anchors have been placed. -/
abbrev Placed := List Text

/-- What may follow a name inside one word. -/
def nameTails : List Text :=
  [";", ",", ".", ":", "]", "&lt;", "&gt;"]

/-- A dotted name, then the name without its last part, and so on. -/
def shortenings (name : Text) : List Text :=
  let parts := name.splitOn '.'
  (List.range parts.length).reverse.map fun n => Text.join ['.'] (parts.take (n + 1))

/-- The names that a word may stand for, longest first: `a.B.c;` gives `a.B.c`, `a.B` and `a`. -/
def nameCandidates (word : Text) : List Text :=
  match qualifiedName? word with
  | none => []
  | some name =>
    let tail := word.drop name.length
    if tail.isEmpty || nameTails.any (·.isPrefixOf tail) then shortenings name else []

/-- A text without its tags; a tag that does not end takes the rest with it. -/
def outsideTags : (inTag : Bool) → Text → Text
  | _, [] => []
  | true, c :: rest => outsideTags (c != '>') rest
  | false, c :: rest => if c == '<' then outsideTags true rest else c :: outsideTags false rest

/-- What of a word is shown. A word may start inside a tag that ends in it. -/
def visible (word : Text) : Text :=
  match word.span fun c => c != '<' && c != '>' with
  | (_, '>' :: rest) => outsideTags false rest
  | _ => outsideTags false word

/-- The declaration on a line with a given simple name, if its anchor has not been placed. -/
def Linker.claim? (linker : Linker) (line : Nat) (placed : Placed) (name : Text) :
    Option Declaration :=
  (linker.declarationsOn line).find? fun declaration =>
    declaration.simpleName == name && !placed.contains declaration.name

/-- The anchor of a declaration on its name. -/
def declarationAnchor (declaration : Declaration) (name : Text) : Text :=
  "<a id=\"" ++ escapeAttribute declaration.name ++ "\" class=\"jxr_declaration\">" ++ name ++ "</a>"

/-- A link on a name. -/
def nameLink (href name : Text) : Text :=
  "<a href=\"" ++ escapeAttribute href ++ "\">" ++ name ++ "</a>"

/-- The first candidate that refers to a type, and the link to it. -/
def Linker.typeLink? (linker : Linker) (names : List Text) : Option (Text × Text) :=
  names.findSome? fun name =>
    (linker.resolve? name).map fun target => (name, nameLink (linker.typeHref target) name)

/-- What becomes of the start of a word: the name that is replaced and its replacement. After a
type keyword the word may declare a type, whose anchor is then placed. -/
def Linker.linkWord (linker : Linker) (line : Nat) (placed : Placed) (previous word : Text) :
    Option (Text × Text) × Placed :=
  let names := nameCandidates word
  let claimed :=
    match names with
    | name :: _ =>
      if linker.typeKeywords.contains previous then
        (linker.claim? line placed name).map (name, ·)
      else none
    | [] => none
  match claimed with
  | some (name, declaration) =>
    (some (name, declarationAnchor declaration name), placed ++ [declaration.name])
  | none => (linker.typeLink? names, placed)

/-- The replacements in a list of words, and the anchors placed after them. `previous` is what
was last shown before the words. -/
def Linker.linkEdits (linker : Linker) (line : Nat) :
    Placed → (previous : Text) → List Word → List Edit × Placed
  | placed, _, [] => ([], placed)
  | placed, previous, word :: rest =>
    let (link, after) := linker.linkWord line placed previous word.text
    let shown := visible word.text
    let (edits, final) := linker.linkEdits line after (if shown.isEmpty then previous else shown) rest
    match link with
    | some (name, replacement) =>
      (⟨word.start, word.start + name.length, replacement⟩ :: edits, final)
    | none => (edits, final)

/-- Links the names of a text on a line. -/
def Linker.linkTypes (linker : Linker) (line : Nat) (placed : Placed) (text : Text) :
    Text × Placed :=
  let (edits, final) := linker.linkEdits line placed [] (words text)
  (applyEdits edits text, final)

end CodeAtlas.Markup
