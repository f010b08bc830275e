/-
  File:      CodeAtlas/Footer.lean
  Subject:   The footer of the pages.

  * `resolveFooter`: fills in the years and the organisation. What is not known
    disappears together with the dash or blank that belongs to it.
-/
import CodeAtlas.Text.Basic

namespace CodeAtlas

/-- Who owns the sources. -/
structure Organization where
  name : Option Text := none
  url : Option Text := none
  deriving DecidableEq, Repr

/-- The footer that is used when none is given. -/
def defaultFooter : Text := "© \x7binceptionYear\x7d–\x7bcurrentYear\x7d \x7borganizationName\x7d"

/-- The place of the current year. -/
def currentYearMark : Text := "\x7bcurrentYear\x7d"

/-- The place of the year in which the sources were begun. -/
def inceptionYearMark : Text := "\x7binceptionYear\x7d"

/-- The place of the organisation. -/
def organizationMark : Text := "\x7borganizationName\x7d"

/-- Fills in the year of inception, or removes its place with the dash after it if the year is
not known or is the current one. -/
def fillInception (inception : Option Text) (year text : Text) : Text :=
  match inception with
  | some known@(_ :: _) =>
    if known == year then without else Text.replaceAll inceptionYearMark known text
  | _ => without
where
  without : Text :=
    let noDash := Text.replaceAll (inceptionYearMark ++ ['–']) [] text
    let noHyphen := Text.replaceAll (inceptionYearMark ++ ['-']) [] noDash
    Text.replaceAll inceptionYearMark [] noHyphen

/-- Fills in the organisation, as a link if its address is known, or removes its place with the
blank before it. -/
def fillOrganization (organization : Organization) (text : Text) : Text :=
  match organization.name with
  | some name@(_ :: _) =>
    let shown : Text :=
      match organization.url with
      | some url@(_ :: _) => "<a href=\"" ++ url ++ "\">" ++ name ++ "</a>"
      | _ => name
    Text.replaceAll organizationMark shown text
  | _ => Text.replaceAll organizationMark [] (Text.replaceAll (' ' :: organizationMark) [] text)

/-- The footer with everything filled in. -/
def resolveFooter (footer : Text) (inception : Option Text) (organization : Organization)
    (year : Text) : Text :=
  fillOrganization organization
    (fillInception inception year (Text.replaceAll currentYearMark year footer))

end CodeAtlas
