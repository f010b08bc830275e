/-
  File:      CodeAtlas/Page.lean
  Subject:   The page of one source file.

  * `splitLines`: the lines of a text; a line break at its end starts no line.
  * `Markup.exceeds`: whether there are too many comments on one line.
  * `PageOptions`: what all pages of a run share.
  * `Linker.page`: the page of a file. Every line is a row with its number;
    a type whose name carries no anchor gets an empty anchor in front of the row
    it is declared on, or after the last row.
-/
import CodeAtlas.Markup.Line

namespace CodeAtlas

/-- The file name of the style sheet of all pages. -/
def stylesheetName : Text := "stylesheet.css"

/-! ## 1. Lines -/

/-- The lines of a text, the one after its last break among them. -/
def lineParts : Text → List Text
  | [] => [[]]
  | '\r' :: '\n' :: rest => [] :: lineParts rest
  | c :: rest =>
    if c == '\r' || c == '\n' then [] :: lineParts rest
    else
      match lineParts rest with
      | [] => [[c]]
      | line :: lines => (c :: line) :: lines

/-- The lines of a text. Lines end in a carriage return, a line feed or both. -/
def splitLines (text : Text) : List Text :=
  let parts := lineParts text
  if parts.getLast? == some [] then parts.dropLast else parts

/-- Whether some line has more comments than `limit`, if the first one starts in a given state. -/
def Markup.exceeds (limit : Nat) : CommentState → List Text → Bool
  | _, [] => false
  | state, line :: lines =>
    let (pieces, after) := segments state (escapeLine line)
    limit < pieces.countP Segment.isComment || exceeds limit after lines

/-- The blanks after a line number, by its width. -/
def numberPadding (number : Nat) : Text :=
  if number < 10 then "   " else if number < 100 then "  " else " "

/-! ## 2. Header and footer -/

/-- What all pages of a run share. -/
structure PageOptions where
  locale : Text := "en"
  /-- The encoding of the sources, if it is not that of the cache. -/
  inputEncoding : Option Text := none
  outputEncoding : Text := "utf-8"
  /-- The folder of the API documentation. -/
  apiFolder : Option Path := none
  revision : Option Text := none
  /-- The footer, which is HTML already. -/
  bottom : Text := []

/-- The address of the API documentation of a file, seen from the folder of its page if that
is known. `current` is the folder that relative paths start from. -/
def SourceFile.apiLink (source : SourceFile) (apiFolder : Path) (current : Path)
    (pageFolder : Option Path) : Text :=
  let base :=
    match pageFolder with
    | none => apiFolder.toText
    | some folder => (Path.relativeTo current apiFolder folder).toText
  let start := if base.isEmpty || base == ['.'] then [] else [Text.dropWhileRight (· == '/') base]
  let folder := packageFolder source.package
  Text.join ['/']
    (start ++ (if folder.isEmpty then [] else [folder]) ++ [source.displayName ++ ".html"])

/-- What stands before the first row. -/
def pageHeader (source : SourceFile) (options : PageOptions) (current : Path)
    (pageFolder : Option Path) : Text :=
  let revision : Text :=
    match options.revision with
    | some name@(_ :: _) =>
      "<meta name=\"revision\" content=\"" ++ Markup.escapeAttribute name ++ "\" />\n"
    | _ => []
  let overview : Text :=
    match options.apiFolder with
    | some folder =>
      "<div id=\"overview\"><a href=\"" ++
        Markup.escapeAttribute (source.apiLink folder current pageFolder) ++
        "\">View Javadoc</a></div>\n"
    | none => []
  "<!DOCTYPE html>\n" ++
  "<html lang=\"" ++ Markup.escapeAttribute (Text.swap '_' '-' options.locale) ++ "\">\n" ++
  "<head>\n" ++
  "<meta charset=\"" ++ Markup.escapeAttribute options.outputEncoding ++ "\" />\n" ++
  revision ++
  "<title>" ++ Markup.escapeAttribute source.displayName ++ " xref</title>\n" ++
  "<link type=\"text/css\" rel=\"stylesheet\" href=\"" ++ source.rootRef ++ stylesheetName ++
  "\" />\n" ++
  "</head>\n" ++
  "<body>\n" ++
  overview ++
  "<pre>\n"

/-- What stands after the last row. -/
def pageFooter (options : PageOptions) : Text :=
  "</pre>\n" ++
  "<hr/>\n" ++
  "<div id=\"footer\">" ++ options.bottom ++ "</div>\n" ++
  "</body>\n" ++
  "</html>\n"

/-! ## 3. Rows -/

namespace Markup

/-- An anchor without text. -/
def emptyAnchor (declaration : Declaration) : Text :=
  "<a id=\"" ++ escapeAttribute declaration.name ++ "\"></a>"

/-- Empty anchors for the declarations whose anchors have not been placed before. Two of the
same name both get one. -/
def emptyAnchors (placed : Placed) (declarations : List Declaration) : Text × Placed :=
  let pending := declarations.filter (!placed.contains ·.name)
  (pending.flatMap emptyAnchor, placed ++ pending.map (·.name))

/-- The link of a row to itself. -/
def lineNumber (number : Nat) : Text :=
  let digits := Text.ofNat number
  "<a class=\"jxr_linenumber\" id=\"L" ++ digits ++ "\" href=\"#L" ++ digits ++ "\">" ++ digits ++
    "</a>" ++ numberPadding number

namespace Linker

/-- One row: its number, empty anchors, and the line. -/
def row (linker : Linker) (number : Nat) (placed : Placed) (state : CommentState) (line : Text) :
    Text × Placed × CommentState :=
  let (shown, after, next) := linker.highlight number placed state line
  let (anchors, final) := emptyAnchors after (linker.declarationsOn number)
  (lineNumber number ++ anchors ++ shown ++ ['\n'], final, next)

/-- The rows of some lines, numbered from `number` on. -/
def rows (linker : Linker) : (number : Nat) → Placed → CommentState → List Text →
    List Text × Placed
  | _, placed, _, [] => ([], placed)
  | number, placed, state, line :: lines =>
    let (shown, after, next) := linker.row number placed state line
    let (more, final) := linker.rows (number + 1) after next lines
    (shown :: more, final)

/-- The row of the anchors that no line had a place for; nothing if there are none. -/
def leftoverRow (linker : Linker) (placed : Placed) : Text :=
  match (emptyAnchors placed linker.source.types).1 with
  | [] => []
  | anchors => anchors ++ ['\n']

/-- The page of a file with the given lines. -/
def page (linker : Linker) (lines : List Text) (options : PageOptions) (current : Path)
    (pageFolder : Option Path) : Text :=
  let (shown, placed) := linker.rows 1 [] .code lines
  pageHeader linker.source options current pageFolder ++ shown.flatten ++
    linker.leftoverRow placed ++ pageFooter options

end Linker

end Markup

end CodeAtlas
