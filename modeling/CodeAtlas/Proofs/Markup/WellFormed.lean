/-
  File:      CodeAtlas/Proofs/Markup/WellFormed.lean
  Subject:   When a marked-up line is well-formed markup.

  Comments, literals and the starts of statements are balanced, whatever the line
  is. Plain code is balanced up to the links on its names, of which one may lie
  inside a tag or another link.

  * `plainTexts`: the parts of a line that are shown as plain code.
  * `Linker.plainParts`: these, each with the anchors placed before it.
  * `Linker.Renders`: markup of some plain texts with balanced parts between them.
    It is refused or well-formed by the links on their names, and goes through
    concatenation.
  * `Linker.wellFormed_highlight_iff`: a line is well-formed markup exactly if none
    of its links lies inside; and none does if no address in plain code holds a
    round bracket.
-/
import CodeAtlas.Proofs.Markup.Lines
import CodeAtlas.Proofs.Markup.Shielded

namespace CodeAtlas.Markup

/-! ## 1. The plain code of a line -/

/-- What is split at double quotes of a piece of code: the tail of a statement, or all of it. -/
def literalsText (text : Text) : Text :=
  match Statement.ofText? text with
  | some statement => statement.tail
  | none => text

/-- Of pieces that were split at double quotes, those that are no literals. -/
def plainPieces : (literal : Bool) → List Text → List Text
  | _, [] => []
  | true, _ :: rest => plainPieces false rest
  | false, piece :: rest => piece :: plainPieces true rest

/-- The plain code of a piece of a line. -/
def Segment.plainTexts : Segment → List Text
  | .code text => plainPieces false ((literalsText text).splitOn '"')
  | .comment _ _ => []

/-- The plain code of a line that starts in a given state. -/
def plainTexts (state : CommentState) (line : Text) : List Text :=
  (segments state (escapeLine line)).1.flatMap Segment.plainTexts

theorem mem_of_mem_plainPieces {literal : Bool} {pieces : List Text} {text : Text}
    (h : text ∈ plainPieces literal pieces) : text ∈ pieces := by
  fun_induction plainPieces literal pieces with
  | case1 => exact h
  | case2 piece rest ih => exact List.mem_cons_of_mem piece (ih h)
  | case3 piece rest ih =>
    rcases List.mem_cons.mp h with rfl | h
    · exact List.mem_cons_self
    · exact List.mem_cons_of_mem piece (ih h)

/-- The plain code of a line is part of the escaped line. -/
theorem infix_of_mem_plainTexts {state : CommentState} {line text : Text}
    (h : text ∈ plainTexts state line) : text <:+: escapeLine line := by
  obtain ⟨segment, hs, ht⟩ := List.mem_flatMap.mp h
  refine List.IsInfix.trans ?_ (segment_isInfix hs)
  cases segment with
  | comment kind comment => exact absurd ht List.not_mem_nil
  | code code =>
    refine (infix_of_mem_splitOn (mem_of_mem_plainPieces ht)).trans ?_
    unfold literalsText Segment.text
    split
    · rename_i statement hst
      obtain ⟨rfl, -⟩ := Statement.ofText?_spec hst
      exact (List.suffix_append _ _).isInfix
    · exact List.infix_rfl

namespace Linker

/-- Plain texts, each with the anchors that are placed before it. -/
def withPlaced (linker : Linker) (line : Nat) : Placed → List Text → List (Placed × Text)
  | _, [] => []
  | placed, text :: rest =>
    (placed, text) :: linker.withPlaced line (linker.showPlain line placed text).2 rest

/-- The anchors that are placed after some plain texts. -/
def anchorsAfter (linker : Linker) (line : Nat) (placed : Placed) (texts : List Text) : Placed :=
  texts.foldl (fun placed text => (linker.showPlain line placed text).2) placed

/-- The plain code of a line, each part with the anchors that are placed before it. -/
def plainParts (linker : Linker) (number : Nat) (placed : Placed) (state : CommentState)
    (line : Text) : List (Placed × Text) :=
  linker.withPlaced number placed (plainTexts state line)

theorem withPlaced_append (linker : Linker) (line : Nat) (placed : Placed) (a b : List Text) :
    linker.withPlaced line placed (a ++ b) =
      linker.withPlaced line placed a ++
        linker.withPlaced line (linker.anchorsAfter line placed a) b := by
  induction a generalizing placed with
  | nil => rfl
  | cons text a ih => exact congrArg ((placed, text) :: ·) (ih _)

theorem mem_of_mem_withPlaced {linker : Linker} {line : Nat} {placed : Placed}
    {texts : List Text} {part : Placed × Text} (h : part ∈ linker.withPlaced line placed texts) :
    part.2 ∈ texts := by
  induction texts generalizing placed with
  | nil => exact absurd h List.not_mem_nil
  | cons text texts ih =>
    rcases List.mem_cons.mp h with rfl | h
    · exact List.mem_cons_self
    · exact List.mem_cons_of_mem text (ih h)

/-! ## 2. Markup of plain texts -/

/-- `out` is markup of plain texts with balanced parts between them: refused by a reader of
well-formed markup if a name of theirs is linked inside a tag or a link, well-formed otherwise. -/
structure Renders (linker : Linker) (line : Nat) (placed : Placed) (texts : List Text)
    (out : Text × Placed) : Prop where
  anchors_eq : out.2 = linker.anchorsAfter line placed texts
  wellFormed : (∀ part ∈ linker.withPlaced line placed texts,
    ¬ linker.LinksInside line part.1 part.2) → WellFormed out.1
  refused : (∃ part ∈ linker.withPlaced line placed texts,
    linker.LinksInside line part.1 part.2) → Nest.outside.read out.1 = none

namespace Renders

variable {linker : Linker} {line : Nat} {placed : Placed}

theorem of_balanced {html : Text} (h : Balanced html) :
    Renders linker line placed [] (html, placed) := by
  refine ⟨rfl, fun _ => h.wellFormed, ?_⟩
  rintro ⟨part, hp, _⟩
  exact absurd hp List.not_mem_nil

theorem append {x y : List Text} {a b : Text × Placed} (ha : Renders linker line placed x a)
    (hb : Renders linker line a.2 y b) :
    Renders linker line placed (x ++ y) (a.1 ++ b.1, b.2) := by
  have hparts : ∀ part, part ∈ linker.withPlaced line placed (x ++ y) ↔
      part ∈ linker.withPlaced line placed x ∨ part ∈ linker.withPlaced line a.2 y := by
    intro part
    rw [withPlaced_append, ← ha.anchors_eq, List.mem_append]
  refine ⟨?_, fun hno => ?_, ?_⟩
  · rw [hb.anchors_eq, ha.anchors_eq]
    exact List.foldl_append.symm
  · have h1 := ha.wellFormed fun part hp => hno part ((hparts part).mpr (Or.inl hp))
    have h2 := hb.wellFormed fun part hp => hno part ((hparts part).mpr (Or.inr hp))
    exact (Nest.read_append_of h1 b.1).trans h2
  · rintro ⟨part, hp, hin⟩
    by_cases hfirst : ∃ part ∈ linker.withPlaced line placed x,
        linker.LinksInside line part.1 part.2
    · rw [Nest.read_append, ha.refused hfirst]
      rfl
    · -- what is refused lies in the second part, which is read from the outside
      have hleft := ha.wellFormed fun p hm hi => hfirst ⟨p, hm, hi⟩
      have hright : part ∈ linker.withPlaced line a.2 y :=
        ((hparts part).mp hp).resolve_left fun hm => hfirst ⟨part, hm, hin⟩
      exact (Nest.read_append_of hleft b.1).trans (hb.refused ⟨part, hright, hin⟩)

theorem wellFormed_iff {texts : List Text} {out : Text × Placed}
    (h : Renders linker line placed texts out) :
    WellFormed out.1 ↔ ∀ part ∈ linker.withPlaced line placed texts,
      ¬ linker.LinksInside line part.1 part.2 := by
  refine ⟨fun hw part hp hin => ?_, h.wellFormed⟩
  exact absurd (hw.symm.trans (h.refused ⟨part, hp, hin⟩)) (Option.some_ne_none _)

end Renders

theorem showPlain_eq_linkTypes (linker : Linker) (line : Nat) (placed : Placed) (text : Text) :
    linker.showPlain line placed text =
      linker.linkTypes line placed (linkUris (highlightKeywords linker.reservedWords text)) := by
  unfold showPlain
  split
  · rename_i he
    rw [List.isEmpty_iff.mp he, linkTypes_eq_linkWords]
    simp [highlightKeywords, highlightKeywordsFrom, linkUris, linkUrisFrom, linkWords]
  · rfl

/-- Plain code. -/
theorem renders_showPlain (linker : Linker) (line : Nat) (placed : Placed) {text : Text}
    (ht : TagFree text) :
    Renders linker line placed [text] (linker.showPlain line placed text) := by
  have hprep : Marked IsUri (linkUris (highlightKeywords linker.reservedWords text)) :=
    marked_prepared linker.reservedWords ht fun _ hu _ => hu
  obtain ⟨hin, hout⟩ := linker.read_linkWords line .outside placed []
    (linkUris (highlightKeywords linker.reservedWords text))
  refine ⟨rfl, fun hno => ?_, ?_⟩
  · rw [showPlain_eq_linkTypes, linkTypes_eq_linkWords]
    exact (hout (hno (placed, text) List.mem_cons_self)).trans hprep.balanced.wellFormed
  · rintro ⟨part, hp, hi⟩
    rw [List.mem_singleton.mp hp] at hi
    rw [showPlain_eq_linkTypes, linkTypes_eq_linkWords]
    exact hin hi

end Linker

/-! ## 3. The parts that are balanced -/

theorem Emphasised.balanced {html text : Text} (h : Emphasised html text) : Balanced html := by
  have hmarked : Marked IsUri html := by
    induction h with
    | nil => exact .text TagFree.nil
    | char h1 h2 _ ih => exact .append (.text (tagFree_cons.mpr ⟨⟨h1, h2⟩, TagFree.nil⟩)) ih
    | word hw _ ih => exact .append (.keyword (.text hw)) ih
  exact hmarked.balanced

theorem balanced_highlightKeywords (reserved : List Text) {text : Text} (h : TagFree text) :
    Balanced (highlightKeywords reserved text) :=
  (emphasised_highlightKeywords reserved h).balanced

theorem balanced_linkUris {text : Text} (h : TagFree text) : Balanced (linkUris text) :=
  (marked_linkUrisFrom (U := IsUri) h (fun _ hu _ => hu) 0).balanced

theorem balanced_showComment (kind : CommentState) {text : Text} (h : TagFree text) :
    Balanced (showComment kind text) := by
  unfold showComment
  split
  · exact .tagFree TagFree.nil
  · have hbody : TagFree ("em class=\"".toList ++ kind.style ++ "\"".toList) := by
      cases kind <;> decide
    have hname : element? ("em class=\"".toList ++ kind.style ++ "\"".toList) =
        some "em".toList := by
      cases kind <;> decide
    have e : "<em class=\"".toList ++ kind.style ++ "\">".toList =
        '<' :: ("em class=\"".toList ++ kind.style ++ "\"".toList) ++ ['>'] := by
      cases kind <;> rfl
    have hclose : "</em>".toList = '<' :: '/' :: "em".toList ++ ['>'] := rfl
    rw [e, hclose]
    exact Balanced.element hbody hname (by decide) (balanced_linkUris h)

theorem balanced_showLiteral {body : Text} (closed : Bool) (h : TagFree body) :
    Balanced (showLiteral body closed) := by
  have hname : element? "span class=\"jxr_string\"".toList = some "span".toList := by decide
  have hquote : Balanced (if closed then ['"'] else []) := by
    cases closed <;> exact .tagFree (by decide)
  have hcontent : Balanced ('"' :: linkUris body ++ if closed then ['"'] else []) :=
    ((Balanced.tagFree (by decide : TagFree ['"'])).append (balanced_linkUris h)).append hquote
  have := Balanced.element (by decide) hname (by decide) hcontent
  have e : showLiteral body closed = '<' :: "span class=\"jxr_string\"".toList ++ ['>'] ++
      ('"' :: linkUris body ++ if closed then ['"'] else []) ++
      ('<' :: '/' :: "span".toList ++ ['>']) := by
    have hopen : "<span class=\"jxr_string\">\"".toList =
        '<' :: "span class=\"jxr_string\"".toList ++ ['>', '"'] := rfl
    unfold showLiteral
    rw [hopen]
    simp only [List.append_assoc, List.cons_append, List.nil_append]
    rfl
  rw [e]
  exact this

namespace Linker

theorem balanced_showPackage (linker : Linker) {package : Text} (h : TagFree package) :
    Balanced (linker.showPackage package) := by
  unfold showPackage
  split
  · exact .nameLink h _
  · exact .tagFree h

theorem balanced_showImport (linker : Linker) {name : Text} (h : IsDottedName name) :
    Balanced (linker.showImport name) := by
  rcases linker.showImport_cases h with hself | ⟨package, simple, rfl, hshown⟩
  · rw [hself]
    exact .tagFree h.tagFree
  · obtain ⟨hpackage, hdot⟩ := tagFree_append.mp h.tagFree
    obtain ⟨-, hsimple⟩ := tagFree_cons.mp hdot
    have hlead := (linker.balanced_showPackage hpackage).append
      (Balanced.tagFree (by decide : TagFree ".".toList))
    rcases hshown with hshown | ⟨target, -, hshown⟩
    · rw [hshown]
      exact hlead.append (.tagFree hsimple)
    · rw [hshown]
      exact hlead.append (.nameLink hsimple _)

theorem balanced_showStatementName (linker : Linker) {statement : Statement}
    (h : IsDottedName statement.name) : Balanced (linker.showStatementName statement) := by
  unfold showStatementName
  split
  · exact .nameLink h.tagFree _
  · split
    · exact linker.balanced_showPackage h.tagFree
    · exact linker.balanced_showImport h

/-! ## 4. The whole line -/

theorem renders_showPieces (linker : Linker) (line : Nat) (literal : Bool) (placed : Placed)
    {pieces : List Text} (ht : ∀ piece ∈ pieces, TagFree piece) :
    Renders linker line placed (plainPieces literal pieces)
      (linker.showPieces line literal placed pieces) := by
  induction pieces generalizing literal placed with
  | nil => cases literal <;> exact .of_balanced (.tagFree TagFree.nil)
  | cons piece rest ih =>
    have hpiece := ht piece List.mem_cons_self
    have hrest := fun other placed =>
      ih other placed fun p hp => ht p (List.mem_cons_of_mem piece hp)
    cases literal with
    | true =>
      have hlit : Renders linker line placed [] (showLiteral piece (!rest.isEmpty), placed) :=
        .of_balanced (balanced_showLiteral _ hpiece)
      exact hlit.append (hrest false placed)
    | false => exact (linker.renders_showPlain line placed hpiece).append (hrest true _)

theorem renders_showLiterals (linker : Linker) (line : Nat) (placed : Placed) {text : Text}
    (ht : TagFree text) :
    Renders linker line placed (plainPieces false (text.splitOn '"'))
      (linker.showLiterals line placed text) :=
  linker.renders_showPieces line false placed fun _ hp => ht.subset (infix_of_mem_splitOn hp).subset

theorem renders_showStatement (linker : Linker) (line : Nat) (placed : Placed)
    {statement : Statement} (hn : IsDottedName statement.name) (hl : TagFree statement.lead)
    (ht : TagFree statement.tail) :
    Renders linker line placed (plainPieces false (statement.tail.splitOn '"'))
      (linker.showStatement line placed statement) := by
  unfold Statement.lead at hl
  simp only [tagFree_append] at hl
  obtain ⟨⟨⟨⟨⟨hindent, hkeyword⟩, hgap⟩, hstatic⟩, _⟩, hmark⟩ := hl
  have hlead := (((((Balanced.tagFree hindent).append
    (balanced_highlightKeywords linker.reservedWords hkeyword)).append (.tagFree hgap)).append
    (balanced_highlightKeywords linker.reservedWords hstatic)).append
    (linker.balanced_showStatementName hn)).append (.tagFree hmark)
  exact (Renders.of_balanced hlead).append (linker.renders_showLiterals line placed ht)

theorem renders_showCode (linker : Linker) (line : Nat) (placed : Placed) {text : Text}
    (ht : TagFree text) :
    Renders linker line placed (Segment.code text).plainTexts
      (linker.showCode line placed text) := by
  simp only [showCode, Segment.plainTexts, literalsText]
  cases hs : Statement.ofText? text with
  | some statement =>
    obtain ⟨rfl, _, hname⟩ := Statement.ofText?_spec hs
    obtain ⟨hlead, htail⟩ := tagFree_append.mp ht
    exact linker.renders_showStatement line placed hname hlead htail
  | none => exact linker.renders_showLiterals line placed ht

theorem renders_showSegments (linker : Linker) (line : Nat) (placed : Placed)
    {pieces : List Segment} (ht : ∀ piece ∈ pieces, TagFree piece.text) :
    Renders linker line placed (pieces.flatMap Segment.plainTexts)
      (linker.showSegments line placed pieces) := by
  induction pieces generalizing placed with
  | nil => exact .of_balanced (.tagFree TagFree.nil)
  | cons piece pieces ih =>
    have hrest := fun placed => ih placed fun p hp => ht p (List.mem_cons_of_mem piece hp)
    have hfree := ht piece List.mem_cons_self
    rw [List.flatMap_cons]
    cases piece with
    | comment kind text =>
      have hcomment : Renders linker line placed [] (showComment kind text, placed) :=
        .of_balanced (balanced_showComment kind hfree)
      exact hcomment.append (hrest placed)
    | code text => exact (linker.renders_showCode line placed hfree).append (hrest _)

theorem renders_highlight (linker : Linker) (number : Nat) (placed : Placed)
    (state : CommentState) (line : Text) :
    Renders linker number placed (plainTexts state line)
      ((linker.highlight number placed state line).1,
        (linker.highlight number placed state line).2.1) :=
  linker.renders_showSegments number placed fun _ hp =>
    (tagFree_escapeLine line).subset (segment_isInfix hp).subset

/-- **When a marked-up line is well-formed markup.** It is, exactly if no name of its plain code
is linked inside a tag or another link. For that it is enough that no address in plain code holds
a round bracket. -/
theorem wellFormed_highlight_iff (linker : Linker) (number : Nat) (placed : Placed)
    (state : CommentState) (line : Text) :
    (WellFormed (linker.highlight number placed state line).1 ↔
      ∀ part ∈ linker.plainParts number placed state line,
        ¬ linker.LinksInside number part.1 part.2) ∧
    ((∀ text ∈ plainTexts state line, ∀ uri, IsUri uri → uri <:+: text →
        '(' ∉ uri ∧ ')' ∉ uri) →
      WellFormed (linker.highlight number placed state line).1) := by
  have hiff := (linker.renders_highlight number placed state line).wellFormed_iff
  refine ⟨hiff, fun hno => hiff.mpr fun part hp => ?_⟩
  have htext := mem_of_mem_withPlaced hp
  have hfree := (tagFree_escapeLine line).subset (infix_of_mem_plainTexts htext).subset
  exact linker.not_linksInside number part.1 hfree (hno part.2 htext)

/-- An address and a name of plain code, both linked. -/
theorem wellFormed_highlight_iff_apart :
    let source : SourceFile := ⟨⟨.root, ["A.java"]⟩, "", [], [⟨"Foo", "A", 2⟩], none, "A"⟩
    let linker := ofLanguage source (.ofSources [source]) Language.java
    plainTexts .code "mailto:a Foo;" = ["mailto:a Foo;".toList] ∧
      (linker.highlight 1 [] .code "mailto:a Foo;").1 =
        uriLink "mailto:a" ++ ' ' :: nameLink "A.html#Foo" "Foo" ++ [';'] ∧
      WellFormed (linker.highlight 1 [] .code "mailto:a Foo;").1 := by
  intro source linker
  have htexts : plainTexts .code "mailto:a Foo;" = ["mailto:a Foo;".toList] := by decide +kernel
  refine ⟨htexts, by decide +kernel, (linker.wellFormed_highlight_iff 1 [] .code _).2 ?_⟩
  intro text ht uri _ hi
  rw [htexts, List.mem_singleton] at ht
  subst ht
  exact ⟨fun hm => absurd (hi.subset hm) (by decide), fun hm => absurd (hi.subset hm) (by decide)⟩

/-- A name in round brackets inside an address is linked in the attribute and in the link. -/
theorem highlight_not_wellFormed :
    let source : SourceFile := ⟨⟨.root, ["A.java"]⟩, "", [], [⟨"Foo", "A", 2⟩], none, "A"⟩
    let linker := ofLanguage source (.ofSources [source]) Language.java
    (linker.highlight 1 [] .code "mailto:a(Foo)").1 =
        "<a href=\"mailto:a(<a href=\"A.html#Foo\">Foo</a>)\" ".toList ++
          "target=\"alexandria_uri\">mailto:a(<a href=\"A.html#Foo\">Foo</a>)</a>" ∧
      ¬ WellFormed (linker.highlight 1 [] .code "mailto:a(Foo)").1 := by
  decide +kernel

end Linker

end CodeAtlas.Markup
