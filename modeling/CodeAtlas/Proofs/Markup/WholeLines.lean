/-
  File:      CodeAtlas/Proofs/Markup/WholeLines.lean
  Subject:   When the entities of a marked-up line are whole.

  A line is escaped first, and everything that it is cut at afterwards is a character
  that no entity holds. Comments, literals and the starts of statements keep their
  entities. Plain code keeps them if emphasising reserved words does.

  * `whole_of_mem_segments`, `whole_of_mem_plainTexts`: no entity is cut.
  * `Linker.Tears`: markup of some plain texts that is torn exactly where emphasising
    reserved words tears one of them. It goes through concatenation.
  * `Linker.whole_highlight_iff`: every line keeps its entities exactly if no reserved
    word is the name of an entity; and when a single line does.
-/
import CodeAtlas.Proofs.Markup.Markers
import CodeAtlas.Proofs.Markup.WellFormed
import CodeAtlas.Proofs.Markup.WholeEntities

namespace CodeAtlas.Markup

/-! ## 1. Where a line is cut -/

theorem closeComment?_ends {skip : Nat} {text comment rest : Text}
    (h : closeComment? skip text = some (comment, rest)) :
    ∃ start, comment = start ++ ['*', '/'] := by
  unfold closeComment? at h
  obtain ⟨⟨before, after⟩, -, e⟩ := Option.map_eq_some_iff.mp h
  obtain ⟨rfl, -⟩ := Prod.mk.inj e
  exact ⟨text.take skip ++ before, rfl⟩

/-- The end of a comment cuts no entity. -/
theorem whole_closeComment? {skip : Nat} {text comment rest : Text}
    (h : closeComment? skip text = some (comment, rest)) (hw : Whole lineEntities text) :
    Whole lineEntities comment ∧ Whole lineEntities rest := by
  rw [closeComment?_eq_append h] at hw
  refine ⟨?_, hw.of_append_right⟩
  obtain ⟨start, rfl⟩ := closeComment?_ends h
  have hstar : ∀ form ∈ lineEntities, '*' ∉ form := by decide
  rw [List.append_assoc] at hw
  refine Whole.append (hw.of_append_left fun c hc => ?_) (.of_not_mem (by decide))
  obtain rfl : '*' = c := Option.some.inj hc
  exact hstar

/-- The start of a comment cuts no entity. -/
theorem whole_commentMarker? {text : Text} {position : Nat}
    (h : commentMarker? text = some position) (hw : Whole lineEntities text) :
    Whole lineEntities (text.take position) ∧ Whole lineEntities (text.drop position) := by
  have hmarker : MarkerAt text position := markerAt_of_commentMarker? h
  rw [← List.take_append_drop position text] at hw
  refine ⟨hw.of_append_left fun c hc => ?_, hw.of_append_right⟩
  have hslash : ∀ form ∈ lineEntities, '/' ∉ form := by decide
  unfold MarkerAt startsComment at hmarker
  split at hmarker <;> rename_i hdrop
  · rw [hdrop] at hc
    exact Option.some.inj hc ▸ hslash
  · rw [hdrop] at hc
    exact Option.some.inj hc ▸ hslash
  · exact nomatch hmarker

theorem whole_codeSegments {text : Text} (h : Whole lineEntities text) :
    ∀ segment ∈ (codeSegments text).1, Whole lineEntities segment.text := by
  fun_induction codeSegments text with
  | case1 text hm =>
    intro segment hs
    rw [List.mem_singleton.mp hs]
    exact h
  | case2 text position hm opener =>
    obtain ⟨hbefore, hcomment⟩ := whole_commentMarker? hm h
    exact List.forall_mem_cons.mpr ⟨hbefore, List.forall_mem_singleton.mpr hcomment⟩
  | case3 text position hm opener =>
    obtain ⟨hbefore, hcomment⟩ := whole_commentMarker? hm h
    exact List.forall_mem_cons.mpr ⟨hbefore, List.forall_mem_singleton.mpr hcomment⟩
  | case4 text position hm opener hs comment rest hc more state he ih =>
    rw [he] at ih
    obtain ⟨hbefore, hopener⟩ := whole_commentMarker? hm h
    obtain ⟨hcomment, hrest⟩ := whole_closeComment? hc hopener
    exact List.forall_mem_cons.mpr ⟨hbefore, List.forall_mem_cons.mpr ⟨hcomment, ih hrest⟩⟩

/-- **Cutting a line into code and comments cuts no entity.** -/
theorem whole_of_mem_segments {state : CommentState} {text : Text} (h : Whole lineEntities text) :
    ∀ segment ∈ (segments state text).1, Whole lineEntities segment.text := by
  unfold segments
  split
  · exact whole_codeSegments h
  · split
    · exact List.forall_mem_singleton.mpr h
    · rename_i hc
      obtain ⟨hcomment, hrest⟩ := whole_closeComment? hc h
      exact List.forall_mem_cons.mpr ⟨hcomment, whole_codeSegments hrest⟩

/-- Splitting a text at double quotes cuts no entity. -/
theorem whole_of_mem_splitOn {text piece : Text} (h : Whole lineEntities text)
    (hp : piece ∈ text.splitOn '"') : Whole lineEntities piece := by
  have hjoined : Whole lineEntities (['"'].intercalate (text.splitOn '"')) := by
    rwa [List.intercalate_splitOn]
  have hquote : ∀ form ∈ lineEntities, '"' ∉ form := by decide
  revert hjoined hp
  induction text.splitOn '"' with
  | nil => exact fun hp => absurd hp List.not_mem_nil
  | cons first pieces ih =>
    intro hp hjoined
    cases pieces with
    | nil =>
      rw [List.intercalate_singleton] at hjoined
      exact List.mem_singleton.mp hp ▸ hjoined
    | cons next pieces =>
      rw [List.intercalate_cons_cons, List.append_assoc] at hjoined
      rcases List.mem_cons.mp hp with rfl | hp
      · exact hjoined.of_append_left fun c hc => Option.some.inj hc ▸ hquote
      · exact ih hp hjoined.of_append_right.of_append_right

namespace Linker

/-! ## 2. Markup of plain texts -/

/-- `html` is markup of plain texts: its entities are whole, unless emphasising the reserved words
tears one of the texts. -/
structure Tears (linker : Linker) (texts : List Text) (html : Text) : Prop where
  whole : (∀ text ∈ texts, ¬ Torn (highlightKeywords linker.reservedWords text)) →
    Whole shownEntities html
  torn : ∀ text ∈ texts, Torn (highlightKeywords linker.reservedWords text) → Torn html

namespace Tears

variable {linker : Linker}

theorem of_whole {html : Text} (h : Whole shownEntities html) : Tears linker [] html :=
  ⟨fun _ => h, fun _ hm => absurd hm List.not_mem_nil⟩

theorem append {x y : List Text} {a b : Text} (ha : Tears linker x a) (hb : Tears linker y b) :
    Tears linker (x ++ y) (a ++ b) := by
  refine ⟨fun hno => ?_, fun text hm ht => ?_⟩
  · have hleft := ha.whole fun text hm => hno text (List.mem_append_left y hm)
    have hright := hb.whole fun text hm => hno text (List.mem_append_right x hm)
    exact hleft.append hright
  · rcases List.mem_append.mp hm with hm | hm
    · exact (ha.torn text hm ht).append_left b
    · exact (hb.torn text hm ht).append_right a

end Tears

theorem tears_showPlain (linker : Linker) (line : Nat) (placed : Placed) {text : Text}
    (h : Whole lineEntities text) : Tears linker [text] (linker.showPlain line placed text).1 := by
  have hkeeps := highlightKeywords_keeps linker.reservedWords h false
  rw [showPlain_eq_linkTypes, linkTypes_eq_linkWords]
  refine ⟨fun hno => ?_, fun other hm ht => ?_⟩
  · have hnot := hno text List.mem_cons_self
    cases hkeeps with
    | whole hwhole => exact linker.whole_linkWords line placed [] (whole_linkUris hwhole).shown
    | torn htorn => exact absurd htorn hnot
  · rw [List.mem_singleton.mp hm] at ht
    exact linker.torn_linkWords line placed [] (torn_linkUris ht)

theorem whole_showComment (kind : CommentState) {text : Text} (h : Whole lineEntities text) :
    Whole shownEntities (showComment kind text) := by
  have hstyle : '&' ∉ kind.style := by cases kind <;> decide
  unfold showComment
  split
  · exact .of_not_mem List.not_mem_nil
  · exact ((((Whole.of_not_mem (by decide)).append (.of_not_mem hstyle)).append
      (.of_not_mem (by decide))).append (whole_linkUris h).shown).append (.of_not_mem (by decide))

theorem whole_showLiteral {body : Text} (closed : Bool) (h : Whole lineEntities body) :
    Whole shownEntities (showLiteral body closed) := by
  have hquote : '&' ∉ (if closed then ['"'] else []) := by cases closed <;> decide
  exact (((Whole.of_not_mem (by decide)).append (whole_linkUris h).shown).append
    (.of_not_mem hquote)).append (.of_not_mem (by decide))

/-- Emphasising reserved words in a text without entities. -/
theorem whole_highlightKeywords (reserved : List Text) {text : Text} (h : '&' ∉ text) :
    Whole shownEntities (highlightKeywords reserved text) := by
  cases highlightKeywords_keeps reserved (Whole.of_not_mem h) false with
  | whole hwhole => exact hwhole.shown
  | torn _ _ _ hin => exact absurd (hin.subset List.mem_cons_self) h

theorem whole_showPackage (linker : Linker) {package : Text} (h : '&' ∉ package) :
    Whole shownEntities (linker.showPackage package) := by
  unfold showPackage
  split
  · exact whole_nameLink _ h
  · exact .of_not_mem h

theorem whole_showImport (linker : Linker) {name : Text} (h : IsDottedName name) :
    Whole shownEntities (linker.showImport name) := by
  have hfree : '&' ∉ name := h.not_mem (by decide) (by decide)
  rcases linker.showImport_cases h with hself | ⟨package, simple, rfl, hshown⟩
  · rw [hself]
    exact .of_not_mem hfree
  · rw [List.mem_append, List.mem_cons, not_or, not_or] at hfree
    obtain ⟨hpackage, -, hsimple⟩ := hfree
    have hlead := (linker.whole_showPackage hpackage).append
      (Whole.of_not_mem (by decide : '&' ∉ ".".toList))
    rcases hshown with hshown | ⟨target, -, hshown⟩
    · rw [hshown]
      exact hlead.append (.of_not_mem hsimple)
    · rw [hshown]
      exact hlead.append (whole_nameLink _ hsimple)

theorem whole_showStatementName (linker : Linker) {statement : Statement}
    (h : IsDottedName statement.name) :
    Whole shownEntities (linker.showStatementName statement) := by
  have hfree : '&' ∉ statement.name := h.not_mem (by decide) (by decide)
  unfold showStatementName
  split
  · exact whole_nameLink _ hfree
  · split
    · exact linker.whole_showPackage hfree
    · exact linker.whole_showImport h

/-! ## 3. The whole line -/

theorem tears_showPieces (linker : Linker) (line : Nat) (literal : Bool) (placed : Placed)
    {pieces : List Text} (h : ∀ piece ∈ pieces, Whole lineEntities piece) :
    Tears linker (plainPieces literal pieces)
      (linker.showPieces line literal placed pieces).1 := by
  induction pieces generalizing literal placed with
  | nil => cases literal <;> exact .of_whole (.of_not_mem List.not_mem_nil)
  | cons piece rest ih =>
    have hpiece := h piece List.mem_cons_self
    have hrest := fun other placed =>
      ih other placed fun p hp => h p (List.mem_cons_of_mem piece hp)
    cases literal with
    | true =>
      have hliteral : Tears linker [] (showLiteral piece (!rest.isEmpty)) :=
        .of_whole (whole_showLiteral _ hpiece)
      exact hliteral.append (hrest false placed)
    | false => exact (linker.tears_showPlain line placed hpiece).append (hrest true _)

theorem tears_showLiterals (linker : Linker) (line : Nat) (placed : Placed) {text : Text}
    (h : Whole lineEntities text) :
    Tears linker (plainPieces false (text.splitOn '"')) (linker.showLiterals line placed text).1 :=
  linker.tears_showPieces line false placed fun _ => whole_of_mem_splitOn h

theorem tears_showStatement (linker : Linker) (line : Nat) (placed : Placed)
    {statement : Statement} (hname : IsDottedName statement.name) (hlead : '&' ∉ statement.lead)
    (htail : Whole lineEntities statement.tail) :
    Tears linker (plainPieces false (statement.tail.splitOn '"'))
      (linker.showStatement line placed statement).1 := by
  unfold Statement.lead at hlead
  simp only [List.mem_append, not_or] at hlead
  obtain ⟨⟨⟨⟨⟨hindent, hkeyword⟩, hgap⟩, hstatic⟩, -⟩, hmark⟩ := hlead
  have hshown := (((((Whole.of_not_mem hindent).append
    (whole_highlightKeywords linker.reservedWords hkeyword)).append (.of_not_mem hgap)).append
    (whole_highlightKeywords linker.reservedWords hstatic)).append
    (linker.whole_showStatementName hname)).append (.of_not_mem hmark)
  exact (Tears.of_whole hshown).append (linker.tears_showLiterals line placed htail)

theorem tears_showCode (linker : Linker) (line : Nat) (placed : Placed) {text : Text}
    (h : Whole lineEntities text) :
    Tears linker (Segment.code text).plainTexts (linker.showCode line placed text).1 := by
  simp only [showCode, Segment.plainTexts, literalsText]
  cases hs : Statement.ofText? text with
  | some statement =>
    obtain ⟨rfl, hchars, hname⟩ := Statement.ofText?_spec hs
    have hlead : '&' ∉ statement.lead := fun hm => absurd (hchars _ hm) (by decide)
    exact linker.tears_showStatement line placed hname hlead h.of_append_right
  | none => exact linker.tears_showLiterals line placed h

theorem tears_showSegments (linker : Linker) (line : Nat) (placed : Placed)
    {pieces : List Segment} (h : ∀ piece ∈ pieces, Whole lineEntities piece.text) :
    Tears linker (pieces.flatMap Segment.plainTexts) (linker.showSegments line placed pieces).1 := by
  induction pieces generalizing placed with
  | nil => exact .of_whole (.of_not_mem List.not_mem_nil)
  | cons piece pieces ih =>
    have hrest := fun placed => ih placed fun p hp => h p (List.mem_cons_of_mem piece hp)
    have hpiece := h piece List.mem_cons_self
    rw [List.flatMap_cons]
    cases piece with
    | comment kind text =>
      have hcomment : Tears linker [] (showComment kind text) :=
        .of_whole (whole_showComment kind hpiece)
      exact hcomment.append (hrest placed)
    | code text => exact (linker.tears_showCode line placed hpiece).append (hrest _)

theorem tears_highlight (linker : Linker) (number : Nat) (placed : Placed) (state : CommentState)
    (line : Text) :
    Tears linker (plainTexts state line) (linker.highlight number placed state line).1 :=
  linker.tears_showSegments number placed (whole_of_mem_segments (whole_escapeLine line))

theorem whole_of_mem_plainTexts {state : CommentState} {line text : Text}
    (h : text ∈ plainTexts state line) : Whole lineEntities text := by
  obtain ⟨segment, hs, ht⟩ := List.mem_flatMap.mp h
  have hsegment := whole_of_mem_segments (whole_escapeLine line) segment hs
  cases segment with
  | comment kind comment => exact absurd ht List.not_mem_nil
  | code code =>
    have hcode : Whole lineEntities (literalsText code) := by
      unfold literalsText
      split
      · rename_i statement hst
        obtain ⟨rfl, -⟩ := Statement.ofText?_spec hst
        exact hsegment.of_append_right
      · exact hsegment
    exact whole_of_mem_splitOn hcode (mem_of_mem_plainPieces ht)

/-- A reserved name of an entity is torn out of it. -/
theorem torn_namedEntity {reserved : List Text} {name : Text} (hname : name ∈ entityNames)
    (hreserved : name ∈ reserved) (later : Text) :
    Torn (highlightKeywordsFrom reserved false 0 (namedEntity name ++ later)) := by
  rw [highlightKeywordsFrom_namedEntity reserved false hname, showWord_of_mem hreserved hname]
  exact ⟨[], _, rfl⟩

/-- Each entity that has a name stands in the plain code of some line. -/
theorem exists_torn {reserved : List Text} {name : Text} (hname : name ∈ entityNames)
    (hreserved : name ∈ reserved) :
    ∃ line, ∃ text ∈ plainTexts .code line, Torn (highlightKeywords reserved text) := by
  have htorn := torn_namedEntity hname hreserved []
  simp only [entityNames, List.mem_cons, List.not_mem_nil, or_false] at hname
  rcases hname with rfl | rfl | rfl | rfl
  · exact ⟨"&", "&amp;", by decide +kernel, htorn⟩
  · exact ⟨"<", "&lt;", by decide +kernel, htorn⟩
  · exact ⟨">", "&gt;", by decide +kernel, htorn⟩
  · -- a double quote is written so behind a backslash only
    exact ⟨"\\\"", "\\&quot;", by decide +kernel, htorn.append_right ['\\']⟩

/-- **When the entities of marked-up lines are whole.** Every line keeps them, exactly if no
reserved word is the name of an entity. A single line keeps them, exactly if they are whole in its
plain code after reserved words were emphasised there. -/
theorem whole_highlight_iff (linker : Linker) :
    ((∀ number placed state line,
        Whole shownEntities (linker.highlight number placed state line).1) ↔
      ∀ name ∈ entityNames, name ∉ linker.reservedWords) ∧
    ∀ number placed state line,
      (Whole shownEntities (linker.highlight number placed state line).1 ↔
        ∀ text ∈ plainTexts state line,
          Whole lineEntities (highlightKeywords linker.reservedWords text)) := by
  have hline (number placed state line) :
      Whole shownEntities (linker.highlight number placed state line).1 ↔
        ∀ text ∈ plainTexts state line,
          Whole lineEntities (highlightKeywords linker.reservedWords text) := by
    have htears := linker.tears_highlight number placed state line
    constructor
    · intro h text hm
      cases highlightKeywords_keeps linker.reservedWords (whole_of_mem_plainTexts hm) false with
      | whole hwhole => exact hwhole
      | torn htorn => exact absurd (htears.torn text hm htorn) h.not_torn
    · exact fun h => htears.whole fun text hm => (h text hm).shown.not_torn
  refine ⟨⟨fun h name hname hreserved => ?_, fun hno number placed state line => ?_⟩, hline⟩
  · obtain ⟨line, text, hm, htorn⟩ := exists_torn hname hreserved
    have hline := (linker.tears_highlight 0 [] .code line).torn text hm htorn
    exact (h 0 [] .code line).not_torn hline
  · refine (hline number placed state line).mpr fun text hm => ?_
    cases highlightKeywords_keeps linker.reservedWords (whole_of_mem_plainTexts hm) false with
    | whole hwhole => exact hwhole
    | torn _ hname hreserved _ => exact absurd hreserved (hno _ hname)

/-- With the reserved words of the language itself, every line keeps its entities. -/
theorem whole_highlight_iff_java :
    let source : SourceFile := ⟨⟨.root, ["A.java"]⟩, "", [], [], none, "A"⟩
    let linker := ofLanguage source (.ofSources [source]) Language.java
    ∀ number placed state line,
      Whole shownEntities (linker.highlight number placed state line).1 := by
  intro source linker
  exact (linker.whole_highlight_iff).1.mpr (by decide)

/-- A further reserved word tears the entities that have its name. -/
theorem highlight_torn :
    let source : SourceFile := ⟨⟨.root, ["A.java"]⟩, "", [], [], none, "A"⟩
    let linker := ofLanguage source (.ofSources [source]) (Language.java.withReservedWords ["lt"])
    (linker.highlight 1 [] .code "a < b").1 =
        "a &<strong class=\"jxr_keyword\">lt</strong>; b".toList ∧
      ¬ Whole shownEntities (linker.highlight 1 [] .code "a < b").1 := by
  intro source linker
  have hshown : (linker.highlight 1 [] .code "a < b").1 =
      "a &<strong class=\"jxr_keyword\">lt</strong>; b".toList := by decide +kernel
  refine ⟨hshown, fun h => ?_⟩
  rw [hshown] at h
  exact h.not_torn ⟨"a ".toList, "strong class=\"jxr_keyword\">lt</strong>; b".toList, by decide⟩

end Linker

end CodeAtlas.Markup
