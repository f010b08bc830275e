/-
  File:      CodeAtlas/Proofs/Markup/PlainCode.lean
  Subject:   No comment marker in plain code, and no web address linked there.

  * `LinePart`: a part of a line as it is handed to the function that shows it:
    plain code, a literal, a comment, or the start of a package or import statement.
  * `Linker.highlight_eq_showParts`: a line is shown part by part.
  * `markerFree_of_mem_lineParts`: a marker that the search passes over has an odd
    number of double quotes before it, in the piece of code that is cut off before the
    next comment and in the tail of a statement just as in the whole; so the cutting at
    double quotes puts it into a literal.
  * `Linker.no_link_in_plain`, `Linker.no_link_in_lead`: an address that starts with
    `http://` or `https://` holds a marker, and links on names add none to what is shown.
-/
import CodeAtlas.Proofs.Markup.WellFormed

namespace CodeAtlas.Markup

/-! ## 1. The parts of a line -/

/-- A part of a line. -/
inductive LinePart where
  /-- Code outside of literals. -/
  | plain (text : Text)
  | literal (body : Text) (closed : Bool)
  | comment (kind : CommentState) (text : Text)
  /-- A package or import statement up to its tail. -/
  | lead (statement : Statement)
  deriving DecidableEq

/-- Neither a comment nor a literal. -/
def LinePart.isCode : LinePart → Bool
  | .plain _ | .lead _ => true
  | .literal _ _ | .comment _ _ => false

/-- The parts of code that was split at double quotes. -/
def literalParts : (literal : Bool) → List Text → List LinePart
  | _, [] => []
  | true, piece :: rest => .literal piece (!rest.isEmpty) :: literalParts false rest
  | false, piece :: rest => .plain piece :: literalParts true rest

/-- The parts of a piece of code. -/
def codeParts (text : Text) : List LinePart :=
  (Statement.ofText? text).toList.map .lead ++
    literalParts false ((literalsText text).splitOn '"')

def Segment.parts : Segment → List LinePart
  | .code text => codeParts text
  | .comment kind text => [.comment kind text]

/-- The parts of a line that starts in a given state. -/
def lineParts (state : CommentState) (line : Text) : List LinePart :=
  (segments state (escapeLine line)).1.flatMap Segment.parts

namespace Linker

/-- What is shown of a statement before its tail. -/
def showLead (linker : Linker) (statement : Statement) : Text :=
  statement.indent ++ highlightKeywords linker.reservedWords statement.kind.keyword ++
    statement.gap ++ highlightKeywords linker.reservedWords statement.static ++
    linker.showStatementName statement ++ (if statement.wildcard then ['.', '*'] else [])

/-- Shows one part. -/
def showPart (linker : Linker) (number : Nat) (placed : Placed) : LinePart → Text × Placed
  | .plain text => linker.showPlain number placed text
  | .literal body closed => (showLiteral body closed, placed)
  | .comment kind text => (showComment kind text, placed)
  | .lead statement => (linker.showLead statement, placed)

/-- Shows parts one after the other. -/
def showParts (linker : Linker) (number : Nat) : Placed → List LinePart → Text × Placed
  | placed, [] => ([], placed)
  | placed, part :: rest =>
    let (shown, after) := linker.showPart number placed part
    let (more, final) := linker.showParts number after rest
    (shown ++ more, final)

variable (linker : Linker) (number : Nat)

theorem showParts_append (placed : Placed) (a b : List LinePart) :
    linker.showParts number placed (a ++ b) =
      ((linker.showParts number placed a).1 ++
          (linker.showParts number (linker.showParts number placed a).2 b).1,
        (linker.showParts number (linker.showParts number placed a).2 b).2) := by
  induction a generalizing placed with
  | nil => rfl
  | cons part a ih => simp only [List.cons_append, showParts, ih, List.append_assoc]

theorem showPieces_eq_showParts (literal : Bool) (placed : Placed) (pieces : List Text) :
    linker.showPieces number literal placed pieces =
      linker.showParts number placed (literalParts literal pieces) := by
  induction pieces generalizing literal placed with
  | nil => cases literal <;> rfl
  | cons piece rest ih =>
    cases literal <;> simp only [showPieces, literalParts, showParts, showPart, ih]

theorem showCode_eq_showParts (placed : Placed) (text : Text) :
    linker.showCode number placed text = linker.showParts number placed (codeParts text) := by
  unfold showCode codeParts literalsText
  cases Statement.ofText? text with
  | none => exact linker.showPieces_eq_showParts number false placed _
  | some statement =>
    simp only [showStatement, showLiterals, showPieces_eq_showParts]
    rfl

theorem showSegments_eq_showParts (placed : Placed) (pieces : List Segment) :
    linker.showSegments number placed pieces =
      linker.showParts number placed (pieces.flatMap Segment.parts) := by
  induction pieces generalizing placed with
  | nil => rfl
  | cons piece pieces ih =>
    rw [List.flatMap_cons, showParts_append]
    cases piece with
    | code text => simp only [showSegments, Segment.parts, showCode_eq_showParts, ih]
    | comment kind text =>
      simp only [showSegments, Segment.parts, showParts, showPart, List.append_nil, ih]

/-- **A line is shown part by part.** -/
theorem highlight_eq_showParts (placed : Placed) (state : CommentState) (line : Text) :
    ((linker.highlight number placed state line).1,
        (linker.highlight number placed state line).2.1) =
      linker.showParts number placed (lineParts state line) :=
  linker.showSegments_eq_showParts number placed _

end Linker

/-! ## 2. Markers -/

/-- Neither `//` nor `/*` occurs in the text. -/
def MarkerFree (text : Text) : Prop := ¬ ['/', '/'] <:+: text ∧ ¬ ['/', '*'] <:+: text

theorem MarkerFree.of_split {text : Text}
    (h : ∀ before after, text = before ++ after → startsComment after = false) :
    MarkerFree text := by
  constructor
  · rintro ⟨before, after, rfl⟩
    exact nomatch h before (['/', '/'] ++ after) (List.append_assoc _ _ _)
  · rintro ⟨before, after, rfl⟩
    exact nomatch h before (['/', '*'] ++ after) (List.append_assoc _ _ _)

theorem mem_plainPieces_iff {literal : Bool} {pieces : List Text} {text : Text} :
    .plain text ∈ literalParts literal pieces ↔ text ∈ plainPieces literal pieces := by
  induction pieces generalizing literal with
  | nil => cases literal <;> simp [literalParts, plainPieces]
  | cons piece rest ih => cases literal <;> simp [literalParts, plainPieces, ih]

/-- Pieces in which markers stand in literals only. -/
theorem markerFree_of_mem_literalParts {literal : Bool} {pieces : List Text} {text : Text}
    (hquote : ∀ piece ∈ pieces, '"' ∉ piece)
    (hmarkers : MarkersQuoted literal (joinPieces false pieces))
    (h : .plain text ∈ literalParts literal pieces) : MarkerFree text := by
  induction pieces generalizing literal with
  | nil => cases literal <;> exact absurd h List.not_mem_nil
  | cons piece rest ih =>
    obtain ⟨hfree, hnext⟩ := hmarkers.pieces (hquote piece List.mem_cons_self)
    have hmore := ih (fun p hp => hquote p (List.mem_cons_of_mem piece hp)) hnext
    cases literal with
    | true =>
      rcases List.mem_cons.mp h with e | h
      · cases e
      · exact hmore h
    | false =>
      rcases List.mem_cons.mp h with e | h
      · cases e
        exact .of_split (hfree rfl)
      · exact hmore h

theorem markerFree_of_mem_splitOn {code text : Text} (hmarkers : MarkersQuoted false code)
    (h : .plain text ∈ literalParts false (code.splitOn '"')) : MarkerFree text := by
  have hjoin : joinPieces false (code.splitOn '"') = code := by simp [joinPieces, Text.join]
  exact markerFree_of_mem_literalParts (fun _ hp => not_mem_of_mem_splitOn hp)
    (hjoin.symm ▸ hmarkers) h

theorem not_lead_mem_literalParts {literal : Bool} {pieces : List Text} {statement : Statement} :
    .lead statement ∉ literalParts literal pieces := by
  induction pieces generalizing literal with
  | nil => cases literal <;> simp [literalParts]
  | cons piece rest ih => cases literal <;> simp [literalParts, ih]

/-- A part of a line that is no comment is part of a piece of code. -/
theorem exists_code_of_mem_lineParts {state : CommentState} {line : Text} {part : LinePart}
    (h : part ∈ lineParts state line) (hpart : ∀ kind text, part ≠ .comment kind text) :
    ∃ code, .code code ∈ (segments state (escapeLine line)).1 ∧ part ∈ codeParts code := by
  obtain ⟨segment, hsegment, hm⟩ := List.mem_flatMap.mp h
  cases segment with
  | code code => exact ⟨code, hsegment, hm⟩
  | comment kind text => exact absurd (List.mem_singleton.mp hm) (hpart kind text)

theorem plain_mem_codeParts_iff {code text : Text} :
    .plain text ∈ codeParts code ↔
      .plain text ∈ literalParts false ((literalsText code).splitOn '"') := by
  simp [codeParts]

theorem lead_mem_codeParts_iff {code : Text} {statement : Statement} :
    .lead statement ∈ codeParts code ↔ Statement.ofText? code = some statement := by
  simp [codeParts, not_lead_mem_literalParts]

/-- The markers in what is split at double quotes stand in literals, as those of the whole do. -/
theorem MarkersQuoted.literalsText {code : Text} (h : MarkersQuoted false code) :
    MarkersQuoted false (literalsText code) := by
  unfold Markup.literalsText
  split
  · rename_i statement hstatement
    obtain ⟨rfl, hchars, -⟩ := Statement.ofText?_spec hstatement
    exact h.of_append fun hm => absurd (hchars _ hm) (by decide)
  · exact h

/-- **Plain code holds no comment marker.** -/
theorem markerFree_of_mem_lineParts {state : CommentState} {line text : Text}
    (h : .plain text ∈ lineParts state line) : MarkerFree text := by
  obtain ⟨code, hsegment, hpart⟩ := exists_code_of_mem_lineParts h (by simp)
  exact markerFree_of_mem_splitOn (markersQuoted_of_mem_segments hsegment).literalsText
    (plain_mem_codeParts_iff.mp hpart)

/-- The plain parts are the plain texts of the line. -/
theorem mem_plainTexts_of_mem_lineParts {state : CommentState} {line text : Text}
    (h : .plain text ∈ lineParts state line) : text ∈ plainTexts state line := by
  obtain ⟨code, hsegment, hpart⟩ := exists_code_of_mem_lineParts h (by simp)
  exact List.mem_flatMap.mpr
    ⟨.code code, hsegment, mem_plainPieces_iff.mp (plain_mem_codeParts_iff.mp hpart)⟩

/-! ## 3. Web addresses -/

/-- How a web address starts. -/
def webStarts : List Text := ["http://", "https://"]

/-- A part of a tagged text without angle brackets is part of what is shown, or of a tag. -/
theorem Tagged.infix_cases {P : Text → Prop} {html text part : Text} (h : Tagged P html text)
    (hpart : TagFree part) (hi : part <:+: html) :
    part <:+: text ∨ ∃ body, P body ∧ part <:+: body := by
  induction h with
  | nil => exact Or.inl hi
  | @char c html text h1 h2 h ih =>
    rcases List.infix_cons_iff.mp hi with ⟨rest, e⟩ | hi
    · obtain ⟨more, e, -⟩ := (Tagged.char h1 h2 h).split e.symm hpart.1
      exact Or.inl (e ▸ (List.prefix_append part more).isInfix)
    · exact (ih hi).imp_left fun ht => ht.trans (List.suffix_cons c text).isInfix
  | @tag body html text hP _ _ ih =>
    rcases infix_of_infix_append_cons hpart.2 hi with hi | hi
    · have hsplit : '<' :: body = [] ++ '<' :: body := rfl
      rcases infix_of_infix_append_cons hpart.1 (hsplit ▸ hi) with hi | hi
      · rw [List.infix_nil.mp hi]
        exact Or.inl List.nil_infix
      · exact Or.inr ⟨body, hP, hi⟩
    · exact ih hi

/-- Emphasised words and linked addresses do not put two slashes together. -/
theorem no_slashes_prepared (reserved : List Text) {text : Text} (ht : TagFree text)
    (h : ¬ ['/', '/'] <:+: text) :
    ¬ ['/', '/'] <:+: linkUris (highlightKeywords reserved text) := by
  intro hi
  have htagged := tagged_linkUris (U := (· <:+: text)) (fun _ hb => KeywordTag.not_mem hb)
    (tagged_highlightKeywords reserved ht) fun _ _ hu => hu
  rcases htagged.infix_cases (by decide) hi with hi | ⟨body, hbody | ⟨uri, huri, hbody⟩, hi⟩
  · exact h hi
  · rcases hbody with rfl | rfl <;> exact absurd hi (by decide)
  · rcases hbody with rfl | rfl
    · -- the slashes are those of the address, which stands between double quotes
      have hopen : "a href=\"".toList = "a href=".toList ++ ['"'] := rfl
      have hclose : "\" target=\"alexandria_uri\"".toList =
          '"' :: " target=\"alexandria_uri\"".toList := rfl
      rw [hopen, hclose] at hi
      rcases infix_of_infix_append_cons (by decide) hi with hi | hi
      · rw [List.append_assoc, List.singleton_append] at hi
        rcases infix_of_infix_append_cons (by decide) hi with hi | hi
        · exact absurd hi (by decide)
        · exact h (hi.trans huri)
      · exact absurd hi (by decide)
    · exact absurd hi (by decide)

/-- The link of an address has the address behind a tag. -/
theorem tag_isInfix_uriLink {start uri : Text} (h : start <+: uri) :
    '>' :: start <:+: uriLink uri := by
  obtain ⟨rest, rfl⟩ := h
  rw [uriLink_eq_wrap]
  exact ⟨'<' :: ("a href=\"" ++ (start ++ rest) ++ "\" target=\"alexandria_uri\""),
    rest ++ ('<' :: "/a".toList ++ ['>']), by simp⟩

/-- What stands behind a tag up to the next one is shown. -/
theorem Shows.infix_of_tag {html text part : Text} (h : Shows html text) (hpart : '<' ∉ part)
    (hi : '>' :: part <:+: html) : part <:+: text := by
  obtain ⟨before, after, rfl⟩ := hi
  have hshown : ∀ {part : Text}, '<' ∉ part →
      outsideTags false (part ++ after) = part ++ outsideTags false after := by
    intro part hp
    induction part with
    | nil => rfl
    | cons c part ih =>
      rw [List.mem_cons, not_or] at hp
      simp [outsideTags, Ne.symm hp.1, ih hp.2]
  have hvisible := outsideTags_append none before ('>' :: (part ++ after))
  have hwhole : before ++ '>' :: (part ++ after) = before ++ '>' :: part ++ after := by simp
  rw [hwhole, Option.isSome_none, h.visible] at hvisible
  rw [hvisible]
  cases (tagAfter none before).isSome with
  | true =>
    have e : outsideTags true ('>' :: (part ++ after)) = outsideTags false (part ++ after) := rfl
    rw [e, hshown hpart]
    exact ⟨outsideTags false before, outsideTags false after, by simp⟩
  | false =>
    have e : outsideTags false ('>' :: (part ++ after)) =
        '>' :: outsideTags false (part ++ after) := rfl
    rw [e, hshown hpart]
    exact ⟨outsideTags false before ++ ['>'], outsideTags false after, by simp⟩

namespace Linker

variable {linker : Linker} {number : Nat}

/-- A linked name holds no slash, so that a web address behind a tag is part of the word. -/
theorem slashes_of_tag_isInfix_rewriteWord {placed after : Placed} {previous word start : Text}
    {link : Option (Text × Text)} (hs : start ∈ webStarts)
    (h : linker.linkWord number placed previous word = (link, after))
    (hi : '>' :: start <:+: rewriteWord link word) : ['/', '/'] <:+: word := by
  have hstarts : ∀ start ∈ webStarts, '<' ∉ start ∧ '/' ∈ start ∧ ['/', '/'] <:+: start := by
    decide
  obtain ⟨hopen, hslash, hslashes⟩ := hstarts start hs
  have hopen' : '<' ∉ '>' :: start := by simp [hopen]
  have hbehind : ['/', '/'] <:+: '>' :: start := hslashes.trans (List.suffix_cons '>' start).isInfix
  cases link with
  | none => exact hbehind.trans hi
  | some found =>
    obtain ⟨name, replacement⟩ := found
    obtain ⟨-, body, hbody, -, rfl⟩ := replacement_eq_link h
    have hname : '/' ∉ name := by
      have hchar : ∀ n ∈ nameCandidates word, '/' ∉ n := fun n hm hc =>
        absurd ((nameCandidates_spec hm).2 '/' hc) (by decide)
      rcases linker.linkWord_cases number placed previous word with
        e | ⟨n, d, hm, -, e⟩ | ⟨n, t, hm, -, e⟩
      · cases e.symm.trans h
      · have e := Prod.mk.inj (e.symm.trans h)
        exact (Prod.mk.inj (Option.some.inj e.1)).1 ▸ hchar n hm
      · have e := Prod.mk.inj (e.symm.trans h)
        exact (Prod.mk.inj (Option.some.inj e.1)).1 ▸ hchar n hm
    have hparts : rewriteWord
        (some (name, '<' :: body ++ ['>'] ++ name ++ ('<' :: "/a".toList ++ ['>']))) word =
          ('<' :: body ++ '>' :: name) ++ '<' :: ("/a".toList ++ '>' :: word.drop name.length) := by
      simp [rewriteWord]
    rw [hparts] at hi
    rcases infix_of_infix_append_cons hopen' hi with hi | hi
    · have hclose : '>' ∉ '<' :: body := by simp [hbody.2]
      have hin : '/' ∈ '>' :: name :=
        (infix_of_infix_append hclose hi).subset (List.mem_cons_of_mem _ hslash)
      exact absurd (List.mem_of_ne_of_mem (by decide) hin) hname
    · have hrest : '>' :: start <:+: '>' :: word.drop name.length :=
        infix_of_infix_append (by decide) hi
      have hdrop : ['/', '/'] <:+: word.drop name.length :=
        infix_of_infix_append (a := ['>']) (by decide) (hbehind.trans hrest)
      exact hdrop.trans (List.drop_suffix _ _).isInfix

theorem isBreaker_of_head?_linkWords {placed : Placed} {previous text : Text}
    (h : ∀ c, text.head? = some c → isBreaker c = true) :
    ∀ c, (linker.linkWords number placed previous text).1.head? = some c → isBreaker c = true := by
  cases text with
  | nil => simp [linkWords]
  | cons d text =>
    have hd := h d rfl
    intro c hc
    rw [linkWords, if_pos hd] at hc
    exact Option.some.inj hc ▸ hd

/-- Linking names puts no web address behind a tag. -/
theorem no_tag_isInfix_linkWords {start : Text} (hs : start ∈ webStarts) (placed : Placed)
    (previous : Text) {html : Text} (h : ¬ ['/', '/'] <:+: html) :
    ¬ '>' :: start <:+: (linker.linkWords number placed previous html).1 := by
  have hstarts : ∀ start ∈ webStarts,
      (('>' :: start).all fun c => decide (isBreaker c = false)) = true := by decide
  have hwhole := forall_mem_of_all (hstarts start hs)
  fun_induction linkWords linker number placed previous html with
  | case1 => simp
  | case2 placed previous c rest hc shown final he ih =>
    rw [he] at ih
    intro hi
    refine ih (fun hr => h (hr.trans (List.suffix_cons c rest).isInfix)) ?_
    rcases List.infix_cons_iff.mp hi with ⟨more, e⟩ | hi
    · obtain ⟨rfl, -⟩ := List.cons.inj e
      exact absurd hc (by decide)
    · exact hi
  | case3 placed previous c rest hc word link after hl shown final he ih =>
    have htext : c :: rest = word ++ rest.dropWhile (!isBreaker ·) := by simp [word]
    have hword : ¬ ['/', '/'] <:+: word := fun hi =>
      h (htext ▸ hi.trans (List.prefix_append word _).isInfix)
    have hrest : ¬ ['/', '/'] <:+: rest.dropWhile (!isBreaker ·) := fun hi =>
      h (htext ▸ hi.trans (List.suffix_append word _).isInfix)
    have hmore := ih hrest
    have hhead : ∀ d, (linker.linkWords number after (shownAfter previous word)
        (rest.dropWhile (!isBreaker ·))).1.head? = some d → isBreaker d = true :=
      isBreaker_of_head?_linkWords (isBreaker_of_head?_dropWhile rest)
    rw [he] at hmore hhead
    intro hi
    -- a breaker, or the end, separates the word from what follows
    cases shown with
    | nil =>
      rw [List.append_nil] at hi
      exact hword (slashes_of_tag_isInfix_rewriteWord hs hl hi)
    | cons d shown =>
      have hd : d ∉ '>' :: start := fun hm =>
        absurd ((hwhole d hm).symm.trans (hhead d rfl)) Bool.false_ne_true
      rcases infix_of_infix_append_cons hd hi with hi | hi
      · exact hword (slashes_of_tag_isInfix_rewriteWord hs hl hi)
      · exact hmore (hi.trans (List.suffix_cons d shown).isInfix)

/-- No web address is linked in plain code. -/
theorem no_link_in_plain {start uri : Text} (hs : start ∈ webStarts) (hu : start <+: uri)
    (placed : Placed) {text : Text} (ht : TagFree text) (h : MarkerFree text) :
    ¬ uriLink uri <:+: (linker.showPlain number placed text).1 := by
  rw [showPlain_eq_linkTypes, linkTypes_eq_linkWords]
  exact fun hi => no_tag_isInfix_linkWords hs placed []
    (no_slashes_prepared linker.reservedWords ht h.1) ((tag_isInfix_uriLink hu).trans hi)

/-- No web address is linked at the start of a statement. -/
theorem no_link_in_lead {start uri text : Text} (hs : start ∈ webStarts) (hu : start <+: uri)
    {statement : Statement} (h : Statement.ofText? text = some statement) (ht : TagFree text) :
    ¬ uriLink uri <:+: linker.showLead statement := by
  have hstarts : ∀ start ∈ webStarts, '<' ∉ start ∧ '/' ∈ start := by decide
  obtain ⟨hopen, hslash⟩ := hstarts start hs
  obtain ⟨rfl, hchars, hname⟩ := Statement.ofText?_spec h
  obtain ⟨html, hout, hshows, -⟩ :=
    linker.showStatement_lead hname (tagFree_append.mp ht).1 0 []
  have hlead : linker.showLead statement = html := by
    have e := congrArg Prod.fst (hout _ rfl)
    exact List.append_cancel_right e
  intro hi
  rw [hlead] at hi
  have hin := (hshows.infix_of_tag hopen ((tag_isInfix_uriLink hu).trans hi)).subset hslash
  exact absurd (hchars _ hin) (by decide)

/-! ## 4. The whole line -/

/-- **No comment marker is shown as plain code.** A line is shown part by part: plain code,
literals, comments and starts of statements. No plain part holds `//` or `/*`, and a part that is
neither a comment nor a literal has no link to an address that starts with `http://` or
`https://`. -/
theorem plain_code_markerFree (linker : Linker) (number : Nat) (placed : Placed)
    (state : CommentState) (line : Text) :
    ((linker.highlight number placed state line).1,
        (linker.highlight number placed state line).2.1) =
        linker.showParts number placed (lineParts state line) ∧
      (∀ text, .plain text ∈ lineParts state line →
        ¬ ['/', '/'] <:+: text ∧ ¬ ['/', '*'] <:+: text) ∧
      ∀ part ∈ lineParts state line, part.isCode = true →
        ∀ start ∈ webStarts, ∀ uri, start <+: uri → ∀ before : Placed,
          ¬ uriLink uri <:+: (linker.showPart number before part).1 := by
  refine ⟨linker.highlight_eq_showParts number placed state line,
    fun text h => markerFree_of_mem_lineParts h, ?_⟩
  intro part hpart hcode start hs uri hu before
  cases part with
  | plain text =>
    have htext := infix_of_mem_plainTexts (mem_plainTexts_of_mem_lineParts hpart)
    exact no_link_in_plain hs hu before ((tagFree_escapeLine line).subset htext.subset)
      (markerFree_of_mem_lineParts hpart)
  | literal body closed => exact nomatch hcode
  | comment kind text => exact nomatch hcode
  | lead statement =>
    obtain ⟨code, hsegment, hlead⟩ := exists_code_of_mem_lineParts hpart (by simp)
    exact no_link_in_lead hs hu (lead_mem_codeParts_iff.mp hlead)
      ((tagFree_escapeLine line).subset (segment_isInfix hsegment).subset)

/-- Two addresses, one of them behind a literal with a marker and the other in a comment. -/
theorem plain_code_markerFree_mail :
    let source : SourceFile := ⟨⟨.root, ["A.java"]⟩, "", [], [], none, "A"⟩
    let linker := ofLanguage source (.ofSources [source]) Language.java
    let line : Text := "import a.B; \"//\" mailto:c // http://d"
    (∃ statement, .lead statement ∈ lineParts .code line) ∧
      .plain " mailto:c ".toList ∈ lineParts .code line ∧
      uriLink "mailto:c" <:+: (linker.showPart 1 [] (.plain " mailto:c ")).1 ∧
      MarkerFree " mailto:c " ∧
      uriLink "http://d" <:+: (linker.highlight 1 [] .code line).1 ∧
      ¬ uriLink "http://d" <:+: (linker.showPart 1 [] (.plain " mailto:c ")).1 := by
  intro source linker line
  obtain ⟨-, hplain, hlink⟩ := linker.plain_code_markerFree 1 [] .code line
  have hlead : ∃ statement, .lead statement ∈ lineParts .code line :=
    ⟨⟨"", .importLine, " ", "", "a.B", false, "; \"//\" mailto:c "⟩, by decide +kernel⟩
  have hmail : .plain " mailto:c ".toList ∈ lineParts .code line := by decide +kernel
  have hstart : "http://".toList ∈ webStarts := by decide
  exact ⟨hlead, hmail, by decide +kernel, hplain _ hmail, by decide +kernel,
    hlink _ hmail rfl "http://" hstart "http://d" (by decide) []⟩

end Linker

end CodeAtlas.Markup
