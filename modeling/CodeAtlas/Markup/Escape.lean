/-
  File:      CodeAtlas/Markup/Escape.lean
  Subject:   Characters that have a meaning in HTML.

  * `escapeLine`: a source line before it is marked up. Quotes that do not
    delimit a literal, and doubled backslashes, are hidden behind entities so
    that the quotes that remain are those of literals.
  * `escapeAttribute`: a text inside an attribute value or a title.
-/
import CodeAtlas.Text.Basic

namespace CodeAtlas.Markup

/-- Hides `&`, `<` and `>`. -/
def escapeMarkup (line : Text) : Text :=
  line.flatMap fun c =>
    if c == '&' then "&amp;" else if c == '<' then "&lt;" else if c == '>' then "&gt;" else [c]

/-- Prepares a source line: hides `&`, `<` and `>`, then doubled backslashes, then quotes after
a backslash, then a quote between apostrophes. -/
def escapeLine (line : Text) : Text :=
  let hidden := escapeMarkup line
  let paired := Text.replaceAll ['\\', '\\'] "&#92;&#92;" hidden
  let quoted := Text.replaceAll ['\\', '"'] "\\&quot;" paired
  Text.replaceAll ['\'', '"', '\''] "'&quot;'" quoted

/-- Hides `&`, `<`, `>` and both kinds of quotes. -/
def escapeAttribute (text : Text) : Text :=
  text.flatMap fun c =>
    if c == '&' then "&amp;" else if c == '<' then "&lt;" else if c == '>' then "&gt;"
    else if c == '"' then "&quot;" else if c == '\'' then "&#x27;" else [c]

end CodeAtlas.Markup
