/-
  File:      CodeAtlas/Proofs/Markup/Elements.lean
  Subject:   Well-formed markup: whole tags, closed in the order they were opened.

  The reader goes from left to right and holds the elements that are open and,
  inside a tag, what it has read of the tag. It refuses a `<` inside a tag, a `>`
  outside of all, a tag that is neither a list of attributes nor the end of the
  innermost element, and an `a` inside an `a`.

  * `Nest.read`: the reader. Two texts put together are read one after the other
    (`Nest.read_append`).
  * `WellFormed`: read from the outside, a text leads back there.
  * `Balanced`: a text that is read like nothing, wherever no link is open.
  * `Nest.Inside`: the places where no link may start. `Nest.read_link` and
    `Nest.read_link_inside` say what becomes of a link outside and inside.
-/
import CodeAtlas.Proofs.Markup.Links

namespace CodeAtlas.Markup

/-! ## 1. Tags -/

/-- Where a list of attributes is read: before an attribute, at the start of its name, in its
name, or in its value. -/
inductive AttributePlace where
  | before
  | start
  | name
  | value

/-- Whether a text is the rest of a list of attributes, each of them a blank, letters, an equals
sign and a value in double quotes. -/
def isAttributes : AttributePlace → Text → Bool
  | .before, [] => true
  | .before, c :: rest => c == ' ' && isAttributes .start rest
  | .start, c :: rest => c.isAlpha && isAttributes .name rest
  | .name, '=' :: '"' :: rest => isAttributes .value rest
  | .name, c :: rest => c.isAlpha && isAttributes .name rest
  | .value, c :: rest => isAttributes (if c == '"' then .before else .value) rest
  | _, [] => false

/-- The element that a tag opens. -/
def element? (tag : Text) : Option Text :=
  let name := tag.takeWhile Char.isAlpha
  if !name.isEmpty && isAttributes .before (tag.dropWhile Char.isAlpha) then some name else none

/-- The element of links and anchors. -/
def linkElement : Text := "a"

/-- The elements that are open after a tag, the innermost first. -/
def openAfter? (opened : List Text) : Text → Option (List Text)
  | '/' :: name =>
    match opened with
    | inner :: outer => if inner == name then some outer else none
    | [] => none
  | tag =>
    (element? tag).bind fun name =>
      if name == linkElement && opened.contains linkElement then none else some (name :: opened)

theorem isAttributes_value {value : Text} (h : '"' ∉ value) (rest : Text) :
    isAttributes .value (value ++ '"' :: rest) = isAttributes .before rest := by
  induction value with
  | nil => simp [isAttributes]
  | cons c value ih =>
    rw [List.mem_cons, not_or] at h
    have hc : (c == '"') = false := by simpa using fun e => h.1 e.symm
    rw [List.cons_append, isAttributes, hc]
    exact ih h.2

/-- A tag that links to a value in quotes, or gives it as an id, and has well-formed attributes
after it, opens a link. -/
theorem element?_quoted {lead value rest : Text} (hl : lead = "a href=\"" ∨ lead = "a id=\"")
    (hv : '"' ∉ value) (hr : isAttributes .before rest = true) :
    element? (lead ++ value ++ '"' :: rest) = some linkElement := by
  have h : isAttributes .value (value ++ '"' :: rest) = true :=
    (isAttributes_value hv rest).trans hr
  rw [List.append_assoc]
  rcases hl with rfl | rfl <;> exact if_pos h

theorem element?_linkTag (href : Text) : element? (linkTag href) = some linkElement :=
  element?_quoted (Or.inl rfl) (quote_not_mem_escapeAttribute href) rfl

theorem element?_anchorTag (name : Text) : element? (anchorTag name) = some linkElement :=
  element?_quoted (Or.inr rfl) (quote_not_mem_escapeAttribute name) (by decide)

theorem element?_uriTag {uri : Text} (h : '"' ∉ uri) :
    element? ("a href=\"" ++ uri ++ "\" target=\"alexandria_uri\"") = some linkElement :=
  element?_quoted (Or.inl rfl) h (by decide)

theorem element?_isPrefix {tag name : Text} (h : element? tag = some name) : name <+: tag := by
  unfold element? at h
  simp only [Option.ite_none_right_eq_some, Option.some.injEq] at h
  exact h.2 ▸ List.takeWhile_prefix _

theorem openAfter?_of_element? {tag name : Text} (h : element? tag = some name)
    (opened : List Text) :
    openAfter? opened tag =
      if name == linkElement && opened.contains linkElement then none
      else some (name :: opened) := by
  unfold openAfter?
  split
  · -- the end of an element opens none
    exact nomatch h
  · rw [h, Option.bind_some]

theorem openAfter?_close (name : Text) (opened : List Text) :
    openAfter? (name :: opened) ('/' :: name) = some opened :=
  if_pos (beq_self_eq_true name)

/-! ## 2. The reader -/

/-- What has been read: the elements that are open, the innermost first, and inside a tag the part
of it that has been read. -/
structure Nest where
  opened : List Text
  tag : Option Text
  deriving DecidableEq, Repr

namespace Nest

/-- Outside of all elements and tags. -/
def outside : Nest := ⟨[], none⟩

/-- Reads one character. -/
def step (nest : Nest) (c : Char) : Option Nest :=
  match nest.tag with
  | none =>
    if c == '<' then some ⟨nest.opened, some []⟩ else if c == '>' then none else some nest
  | some tag =>
    if c == '<' then none
    else if c == '>' then (openAfter? nest.opened tag).map (⟨·, none⟩)
    else some ⟨nest.opened, some (tag ++ [c])⟩

/-- Reads a text. -/
def read (nest : Nest) (html : Text) : Option Nest := html.foldlM step nest

theorem read_nil (nest : Nest) : nest.read [] = some nest := rfl

theorem read_cons (nest : Nest) (c : Char) (html : Text) :
    nest.read (c :: html) = (nest.step c).bind (read · html) := rfl

theorem read_append (nest : Nest) (a b : Text) :
    nest.read (a ++ b) = (nest.read a).bind (read · b) :=
  List.foldlM_append

/-- What leads to a place is read first. -/
theorem read_append_of {nest mid : Nest} {a : Text} (h : nest.read a = some mid) (b : Text) :
    nest.read (a ++ b) = mid.read b := by
  rw [read_append, h, Option.bind_some]

/-- A text without angle brackets lengthens the tag that is open, and is nothing outside of all. -/
theorem read_tagFree {text : Text} (h : TagFree text) (nest : Nest) :
    nest.read text = some ⟨nest.opened, nest.tag.map (· ++ text)⟩ := by
  induction text generalizing nest with
  | nil =>
    obtain ⟨opened, tag⟩ := nest
    cases tag <;> simp [read_nil]
  | cons c text ih =>
    obtain ⟨⟨h1, h2⟩, h3⟩ := tagFree_cons.mp h
    obtain ⟨opened, tag⟩ := nest
    have hstep : step ⟨opened, tag⟩ c = some ⟨opened, tag.map (· ++ [c])⟩ := by
      cases tag <;> simp [step, h1, h2]
    rw [read_cons, hstep, Option.bind_some, ih h3]
    cases tag <;> simp

/-- A whole tag outside of all others. -/
theorem read_tag {body : Text} (h : TagFree body) (opened : List Text) :
    read ⟨opened, none⟩ ('<' :: body ++ ['>']) = (openAfter? opened body).map (⟨·, none⟩) := by
  have hbody : read ⟨opened, none⟩ ('<' :: body) = some ⟨opened, some body⟩ := by
    rw [read_cons]
    exact read_tagFree h ⟨opened, some []⟩
  rw [read_append_of hbody, read_cons]
  cases ho : openAfter? opened body <;> simp [step, ho, read_nil]

/-- The start of a tag inside another one. -/
theorem read_start_inTag (opened : List Text) (tag rest : Text) :
    read ⟨opened, some tag⟩ ('<' :: rest) = none := rfl

/-! ## 3. Links -/

/-- A place where no link may start: inside a tag, or inside another link. -/
def Inside (nest : Nest) : Prop := nest.tag.isSome ∨ linkElement ∈ nest.opened

instance (nest : Nest) : Decidable nest.Inside :=
  inferInstanceAs (Decidable (nest.tag.isSome ∨ linkElement ∈ nest.opened))

theorem not_inside_mk {opened : List Text} (h : linkElement ∉ opened) :
    ¬ Inside ⟨opened, none⟩ :=
  not_or.mpr ⟨Bool.false_ne_true, h⟩

/-- Something has been read before the inside of a tag or a link is reached. -/
theorem ne_nil_of_inside {opened : List Text} {nest : Nest} {before : Text}
    (h : linkElement ∉ opened) (hr : read ⟨opened, none⟩ before = some nest) (hin : nest.Inside) :
    before ≠ [] := by
  rintro rfl
  cases hr
  exact not_inside_mk h hin

theorem eq_mk_of_not_inside {nest : Nest} (h : ¬ nest.Inside) :
    ∃ opened, nest = ⟨opened, none⟩ ∧ linkElement ∉ opened := by
  obtain ⟨opened, tag⟩ := nest
  obtain ⟨htag, hopened⟩ := not_or.mp h
  cases tag with
  | none => exact ⟨opened, rfl, hopened⟩
  | some tag => exact absurd rfl htag

/-- The tag that opens an element. -/
theorem read_open {body name : Text} {opened : List Text} (hb : TagFree body)
    (he : element? body = some name) (hl : name = linkElement → linkElement ∉ opened) :
    read ⟨opened, none⟩ ('<' :: body ++ ['>']) = some ⟨name :: opened, none⟩ := by
  have hfree : (name == linkElement && opened.contains linkElement) = false := by
    simpa using hl
  rw [read_tag hb, openAfter?_of_element? he, hfree]
  rfl

/-- An element: its opening tag, a content that leads back to where it starts, and its closing
tag. -/
theorem read_element {body name content : Text} {opened : List Text} (hb : TagFree body)
    (he : element? body = some name) (hl : name = linkElement → linkElement ∉ opened)
    (hc : read ⟨name :: opened, none⟩ content = some ⟨name :: opened, none⟩) :
    read ⟨opened, none⟩ ('<' :: body ++ ['>'] ++ content ++ ('<' :: '/' :: name ++ ['>'])) =
      some ⟨opened, none⟩ := by
  have hslash : TagFree ('/' :: name) :=
    tagFree_cons.mpr ⟨by decide, hb.subset (element?_isPrefix he).subset⟩
  have hclose : read ⟨name :: opened, none⟩ ('<' :: '/' :: name ++ ['>']) =
      some ⟨opened, none⟩ := by
    rw [read_tag hslash, openAfter?_close]
    rfl
  rw [read_append_of ((read_append_of (read_open hb he hl) content).trans hc), hclose]

/-- **A link outside of all tags and links is read like nothing.** -/
theorem read_link {nest : Nest} (h : ¬ nest.Inside) {body text : Text} (hb : TagFree body)
    (he : element? body = some linkElement) (ht : TagFree text) :
    nest.read ('<' :: body ++ ['>'] ++ text ++ ('<' :: "/a".toList ++ ['>'])) = some nest := by
  obtain ⟨opened, rfl, hl⟩ := eq_mk_of_not_inside h
  exact read_element hb he (fun _ => hl) (read_tagFree ht _)

/-- **A link inside a tag or another link is refused.** -/
theorem read_link_inside {nest : Nest} (h : nest.Inside) {body : Text} (hb : TagFree body)
    (he : element? body = some linkElement) (rest : Text) :
    nest.read ('<' :: body ++ ['>'] ++ rest) = none := by
  obtain ⟨opened, tag⟩ := nest
  cases tag with
  | some tag => exact read_start_inTag opened tag _
  | none =>
    have hl : linkElement ∈ opened := h.resolve_left Bool.false_ne_true
    have hrefused : (linkElement == linkElement && opened.contains linkElement) = true := by
      simpa using hl
    rw [read_append, read_tag hb, openAfter?_of_element? he, hrefused]
    rfl

end Nest

/-! ## 4. Well-formed and balanced texts -/

/-- Markup whose tags are all complete and closed in the order they were opened, without a link
inside a link. -/
def WellFormed (html : Text) : Prop := Nest.outside.read html = some Nest.outside

instance (html : Text) : Decidable (WellFormed html) :=
  inferInstanceAs (Decidable (Nest.outside.read html = some Nest.outside))

/-- A text that is read like nothing wherever no link is open. -/
def Balanced (html : Text) : Prop :=
  ∀ opened, linkElement ∉ opened → Nest.read ⟨opened, none⟩ html = some ⟨opened, none⟩

namespace Balanced

theorem wellFormed {html : Text} (h : Balanced html) : WellFormed html := h [] List.not_mem_nil

theorem tagFree {text : Text} (h : TagFree text) : Balanced text :=
  fun _ _ => Nest.read_tagFree h _

theorem append {a b : Text} (ha : Balanced a) (hb : Balanced b) : Balanced (a ++ b) :=
  fun opened hl => (Nest.read_append_of (ha opened hl) b).trans (hb opened hl)

/-- A balanced text inside an element other than a link. -/
theorem element {body name content : Text} (hb : TagFree body) (he : element? body = some name)
    (hn : name ≠ linkElement) (hc : Balanced content) :
    Balanced ('<' :: body ++ ['>'] ++ content ++ ('<' :: '/' :: name ++ ['>'])) := by
  intro opened hl
  have hmore : linkElement ∉ name :: opened := by
    rw [List.mem_cons, not_or]
    exact ⟨fun e => hn e.symm, hl⟩
  exact Nest.read_element hb he (fun e => absurd e hn) (hc _ hmore)

/-- A text without tags inside a link. -/
theorem link {body text : Text} (hb : TagFree body) (he : element? body = some linkElement)
    (ht : TagFree text) :
    Balanced ('<' :: body ++ ['>'] ++ text ++ ('<' :: "/a".toList ++ ['>'])) :=
  fun _ hl => Nest.read_link (Nest.not_inside_mk hl) hb he ht

theorem nameLink {name : Text} (h : TagFree name) (href : Text) :
    Balanced (nameLink href name) := by
  rw [nameLink_eq_wrap]
  exact link (tagFree_linkTag href) (element?_linkTag href) h

theorem uriLink {uri : Text} (h : IsUri uri) : Balanced (uriLink uri) := by
  have hopen : UriTag uri ("a href=\"" ++ uri ++ "\" target=\"alexandria_uri\"") := Or.inl rfl
  rw [uriLink_eq_wrap]
  exact link (hopen.tagFree h.tagFree) (element?_uriTag (h.not_mem (by decide) (by decide)))
    h.tagFree

end Balanced

end CodeAtlas.Markup
