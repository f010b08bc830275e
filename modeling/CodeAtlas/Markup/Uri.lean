/-
  File:      CodeAtlas/Markup/Uri.lean
  Subject:   Addresses in comments and literals.

  * `uri?`: an address at the start of a text: `http://`, `https://` or
    `mailto:` and at least one more character of an address.
  * `linkUris`: a text with its addresses made links.
-/
import CodeAtlas.Text.Basic

namespace CodeAtlas.Markup

/-- Characters of an address; `&` has a rule of its own. -/
def isUriChar (c : Char) : Bool :=
  c.isAlphanum || "?+%:/.@_;=$,!~*'()-".toList.contains c

/-- Whether what follows an `&` makes it one of the entities at which an address ends. -/
def endsUri (rest : Text) : Bool :=
  ["lt;".toList, "gt;", "quot;", "#92;"].any (·.isPrefixOf rest)

/-- The longest run of address characters at the start of a text. -/
def uriRun : Text → Text
  | [] => []
  | c :: rest =>
    if isUriChar c || (c == '&' && !endsUri rest) then c :: uriRun rest else []

/-- The start of an address. -/
def uriScheme? (text : Text) : Option Text :=
  ["http://".toList, "https://", "mailto:"].find? (·.isPrefixOf text)

/-- An address at the start of a text. -/
def uri? (text : Text) : Option Text :=
  match uriScheme? text with
  | none => none
  | some scheme =>
    match uriRun (text.drop scheme.length) with
    | [] => none
    | run => some (scheme ++ run)

/-- The link to an address. -/
def uriLink (uri : Text) : Text :=
  "<a href=\"" ++ uri ++ "\" target=\"alexandria_uri\">" ++ uri ++ "</a>"

/-- Links addresses after `skip` characters, which belong to an address already linked. -/
def linkUrisFrom : Nat → Text → Text
  | _, [] => []
  | skip + 1, _ :: rest => linkUrisFrom skip rest
  | 0, c :: rest =>
    match uri? (c :: rest) with
    | some uri => uriLink uri ++ linkUrisFrom (uri.length - 1) rest
    | none => c :: linkUrisFrom 0 rest

/-- Makes links of all addresses. -/
def linkUris (text : Text) : Text := linkUrisFrom 0 text

end CodeAtlas.Markup
