/-
  File:      CodeAtlas/Proofs/Source/Comments.lean
  Subject:   The scanner and the pages see the same comments.

  * `Mode.zone`: what a mode of the scanner says of comments. Reading a character
    changes it as it changes a zone (`Mode.zone_read`), but for a `*` in code: it hides
    the rest of its line from the scanner, and not from the pages.
  * `starLines`: the lines with such a `*`.
  * `stateAfter`: lines shown one after the other, each with its own linker, number
    and anchors; only the state goes from one to the next.
  * `zone_lines`: at the start of every line both are in the same zone, if no line with
    such a `*` leaves a comment open. The proof goes line by line: either the line has no
    such `*`, and both read the same characters, or it ends in code for both.
  * `comments_agree`: without such a `*` both agree on block comments.
    `declared_outside_comments`: no type is declared inside a block comment, unless such
    a `*` hides the start of it; `declared_inside_comment` is a text where it does.
-/
import CodeAtlas.Proofs.Markup.Zones
import CodeAtlas.Proofs.Source.Lines
import CodeAtlas.Proofs.Source.Modes
import CodeAtlas.Proofs.Source.Outline

namespace CodeAtlas

open Markup

/-! ## 1. The zones of the scanner -/

namespace Mode

/-- What a mode says of comments. -/
def zone : Mode → Zone
  | .slash => .slash
  | .lineComment => .line
  | .blockComment star => .block star
  | _ => .code

/-- Outside of literals. -/
def unquoted : Mode → Bool
  | .literal _ _ | .escape _ _ => false
  | _ => true

/-- A `*` hides the rest of its line: it opens a line comment. -/
def starHides (mode : Mode) : Bool := mode != .lineComment && (mode.read '*').2 == .lineComment

theorem zone_of_calm {mode : Mode} (h : mode.calm = true) :
    mode.unquoted = true ∧ mode.zone = .code := by
  cases mode with
  | between | word | number | dot => exact ⟨rfl, rfl⟩
  | slash | literal | escape | lineComment | blockComment => cases h

theorem starHides_of_calm {mode : Mode} (h : mode.calm = true) : mode.starHides = true := by
  have hstart : start '*' = ([], .lineComment) := by decide
  have hne : mode ≠ .lineComment := by
    rintro rfl
    cases h
  have hread : mode.read '*' = mode.restart '*' := read_calm_of_not_part h (by decide)
  simp [starHides, hne, hread, restart, hstart]

theorem zone_start {c : Char} (h1 : c ≠ '"') (h2 : c ≠ '\'') (h3 : c ≠ '*') :
    (start c).2.unquoted = true ∧ (start c).2.zone = Zone.code.read c := by
  by_cases hslash : c = '/'
  · subst hslash
    decide
  · have hcode : Zone.code.read c = .code := by simp [Zone.read, hslash]
    rw [hcode]
    unfold start
    split_ifs <;> simp_all [unquoted, zone]

/-- **Reading a character changes the zone of a mode as it changes a zone**, outside of literals
and unless the character is a `*` that hides the rest of its line. -/
theorem zone_read {mode : Mode} (h : mode.unquoted = true) {c : Char} (h1 : c ≠ '"')
    (h2 : c ≠ '\'') (hstar : (c == '*' && mode.starHides) = false) :
    (mode.read c).2.unquoted = true ∧ (mode.read c).2.zone = mode.zone.read c := by
  by_cases hcalm : mode.calm = true
  · have hne : c ≠ '*' := by
      rintro rfl
      rw [starHides_of_calm hcalm] at hstar
      cases hstar
    rw [(zone_of_calm hcalm).2]
    rcases read_calm hcalm c with hrestart | ⟨hpart, -, hnext⟩
    · rw [hrestart]
      exact zone_start h1 h2 hne
    · have hslash : c ≠ '/' := by
        rintro rfl
        exact absurd hpart (by decide)
      have hcode : Zone.code.read c = .code := by simp [Zone.read, hslash]
      rw [hcode]
      exact zone_of_calm hnext
  · cases mode with
    | slash =>
      simp only [read]
      split_ifs with hslash hopen
      · exact ⟨rfl, by simp [zone, Zone.read, hslash]⟩
      · exact ⟨rfl, by simp_all [zone, Zone.read]⟩
      · obtain ⟨hunquoted, hzone⟩ := zone_start h1 h2 (by simpa using hopen)
        have hsame : Zone.code.read c = Zone.slash.read c := by simp_all [Zone.read]
        exact ⟨hunquoted, hzone.trans hsame⟩
    | lineComment =>
      simp only [read]
      split_ifs with hfeed
      · exact ⟨rfl, by simp [zone, Zone.read, hfeed]⟩
      · exact ⟨rfl, by simp [zone, Zone.read, hfeed]⟩
    | blockComment star =>
      simp only [read]
      split_ifs with hclose
      · exact ⟨rfl, by simp [zone, Zone.read, hclose]⟩
      · exact ⟨rfl, by simp [zone, Zone.read, hclose]⟩
    | literal | escape => cases h
    | between | word | number | dot => exact absurd rfl hcalm

end Mode

/-! ## 2. Lines with a `*` in code -/

/-- The lines on which a `*` hides what follows, in a text that is read in `mode` from `line` on. -/
def starLinesFrom : Mode → Nat → Text → List Nat
  | _, _, [] => []
  | mode, line, c :: text =>
    (if c == '*' && mode.starHides then [line] else []) ++
      starLinesFrom (mode.read c).2 (lineAfter line c) text

/-- The lines of a text on which a `*` hides what follows from the scanner. -/
def starLines (text : Text) : List Nat := starLinesFrom .between 1 text

theorem count_newline_cons (c : Char) (text : Text) (line : Nat) :
    line + (c :: text).count '\n' = lineAfter line c + text.count '\n' := by
  rw [List.count_cons]
  unfold lineAfter
  split_ifs <;> omega

theorem starLinesFrom_append (mode : Mode) (line : Nat) (a b : Text) :
    starLinesFrom mode line (a ++ b) =
      starLinesFrom mode line a ++ starLinesFrom (mode.after a) (line + a.count '\n') b := by
  induction a generalizing mode line with
  | nil => rfl
  | cons c a ih =>
    rw [List.cons_append, starLinesFrom, starLinesFrom, ih, count_newline_cons, Mode.after_cons,
      List.append_assoc]

theorem le_of_mem_starLinesFrom {mode : Mode} {line n : Nat} {text : Text}
    (h : n ∈ starLinesFrom mode line text) : line ≤ n := by
  induction text generalizing mode line with
  | nil => exact absurd h List.not_mem_nil
  | cons c text ih =>
    rcases List.mem_append.mp h with h | h
    · split_ifs at h
      · rw [List.mem_singleton.mp h]
      · exact absurd h List.not_mem_nil
    · have hle := ih h
      unfold lineAfter at hle
      split_ifs at hle <;> omega

theorem lineComment_after {text : Text} (h : '\n' ∉ text) :
    Mode.lineComment.after text = .lineComment := by
  induction text with
  | nil => rfl
  | cons c text ih =>
    rw [List.mem_cons, not_or] at h
    have hc : c ≠ '\n' := Ne.symm h.1
    have hread : (Mode.lineComment.read c).2 = .lineComment := by simp [Mode.read, hc]
    rw [Mode.after_cons, hread, ih h.2]

/-- A line with such a `*` ends in a line comment, for the scanner. -/
theorem after_of_mem_starLinesFrom {mode : Mode} {line n : Nat} {text : Text}
    (hfeed : '\n' ∉ text) (h : n ∈ starLinesFrom mode line text) :
    n = line ∧ mode.after text = .lineComment := by
  induction text generalizing mode with
  | nil => exact absurd h List.not_mem_nil
  | cons c text ih =>
    rw [List.mem_cons, not_or] at hfeed
    rcases List.mem_append.mp h with hhere | hlater
    · split_ifs at hhere with hstar
      · rw [Bool.and_eq_true, beq_iff_eq] at hstar
        obtain ⟨rfl, hhides⟩ := hstar
        have hread : (mode.read '*').2 = .lineComment := by
          simpa using (Bool.and_eq_true_iff.mp hhides).2
        rw [Mode.after_cons, hread]
        exact ⟨List.mem_singleton.mp hhere, lineComment_after hfeed.2⟩
      · exact absurd hhere List.not_mem_nil
    · have hline : lineAfter line c = line := by
        have hc : c ≠ '\n' := Ne.symm hfeed.1
        simp [lineAfter, hc]
      rw [hline] at hlater
      exact ih hfeed.2 hlater

/-- Over a text without such a `*` a mode keeps to its zone. -/
theorem Mode.zone_after {mode : Mode} (h : mode.unquoted = true) {line : Nat} {text : Text}
    (hquote : '"' ∉ text) (hapostrophe : '\'' ∉ text) (hstar : starLinesFrom mode line text = []) :
    (mode.after text).unquoted = true ∧ (mode.after text).zone = mode.zone.after text := by
  induction text generalizing mode line with
  | nil => exact ⟨h, rfl⟩
  | cons c text ih =>
    rw [List.mem_cons, not_or] at hquote hapostrophe
    obtain ⟨hhere, hlater⟩ := List.append_eq_nil_iff.mp hstar
    have hc : (c == '*' && mode.starHides) = false := by
      cases hhides : c == '*' && mode.starHides with
      | false => rfl
      | true =>
        rw [hhides] at hhere
        cases hhere
    obtain ⟨hread, hzone⟩ := Mode.zone_read h (Ne.symm hquote.1) (Ne.symm hapostrophe.1) hc
    rw [Mode.after_cons, Zone.after_cons, ← hzone]
    exact ih hread hquote.2 hapostrophe.2 hlater

/-! ## 3. Line by line -/

/-- What a line is shown with. -/
structure LineContext where
  linker : Linker
  number : Nat
  placed : Placed

/-- The state after a line that is shown. -/
def LineContext.after (context : LineContext) (state : CommentState) (line : Text) :
    CommentState :=
  (context.linker.highlight context.number context.placed state line).2.2

/-- The state after lines that are shown one after the other, each in its own context. -/
def stateAfter (contexts : Nat → LineContext) (state : CommentState) : List Text → CommentState
  | [] => state
  | line :: lines => stateAfter (fun n => contexts (n + 1)) ((contexts 0).after state line) lines

/-- A line without quotes of either kind. -/
structure PlainLine (line : Text) : Prop where
  quote : '"' ∉ line
  apostrophe : '\'' ∉ line
  feed : '\n' ∉ line

/-- A line keeps the scanner in the zone that the pages show. Either it has no `*` in code, and
both read the same characters, or it ends in code for both. -/
theorem zone_line (context : LineContext) {state : CommentState} {mode : Mode} {number : Nat}
    {line : Text} (h : mode.unquoted = true) (hzone : mode.zone = state.zone)
    (hline : PlainLine line)
    (hstar : starLinesFrom mode number line ≠ [] → context.after state line = .code) :
    (mode.after (line ++ ['\n'])).unquoted = true ∧
      (mode.after (line ++ ['\n'])).zone = (context.after state line).zone := by
  rw [Mode.after_append]
  cases hlines : starLinesFrom mode number line with
  | nil =>
    obtain ⟨hafter, hkeep⟩ := Mode.zone_after h hline.quote hline.apostrophe hlines
    have hfeed : ('\n' == '*' && (mode.after line).starHides) = false := rfl
    obtain ⟨hend, hend'⟩ := Mode.zone_read hafter (by decide) (by decide) hfeed
    have hshown : (context.after state line).zone = state.zone.after (line ++ ['\n']) :=
      zone_highlight context.linker context.number context.placed state hline.quote hline.feed
    refine ⟨hend, ?_⟩
    rw [hshown, Zone.after_append, ← hzone, ← hkeep]
    exact hend'
  | cons n rest =>
    have hmem : n ∈ starLinesFrom mode number line := by
      rw [hlines]
      exact List.mem_cons_self
    obtain ⟨-, hafter⟩ := after_of_mem_starLinesFrom hline.feed hmem
    rw [hafter, hstar (by rw [hlines]; exact List.cons_ne_nil _ _)]
    exact ⟨rfl, rfl⟩

theorem starLinesFrom_unlines_cons (mode : Mode) (number : Nat) {line : Text} (h : '\n' ∉ line)
    (lines : List Text) : starLinesFrom mode number (unlines (line :: lines)) =
      starLinesFrom mode number line ++
        starLinesFrom (mode.after (line ++ ['\n'])) (number + 1) (unlines lines) := by
  have hcount : (line ++ ['\n']).count '\n' = 1 := by
    rw [List.count_append, List.count_eq_zero.mpr h]
    rfl
  have hfeed : ∀ mode n, starLinesFrom mode n ['\n'] = [] := fun _ _ => rfl
  rw [unlines_cons, starLinesFrom_append, starLinesFrom_append, hcount, hfeed, List.append_nil]

theorem lt_of_mem_starLinesFrom {mode : Mode} {number n : Nat} {lines : List Text}
    (h : ∀ line ∈ lines, PlainLine line) (hn : n ∈ starLinesFrom mode number (unlines lines)) :
    n < number + lines.length := by
  induction lines generalizing mode number with
  | nil => exact absurd hn List.not_mem_nil
  | cons line lines ih =>
    obtain ⟨hline, hmore⟩ := List.forall_mem_cons.mp h
    rw [starLinesFrom_unlines_cons mode number hline.feed] at hn
    rw [List.length_cons]
    rcases List.mem_append.mp hn with hn | hn
    · have := (after_of_mem_starLinesFrom hline.feed hn).1
      omega
    · have := ih hmore hn
      omega

/-- **At the end of lines the scanner is in the zone that the pages show**, if it is so at their
start and no line with a `*` in code leaves a comment open. -/
theorem zone_lines (contexts : Nat → LineContext) {state : CommentState} {mode : Mode}
    {number : Nat} {lines : List Text} (h : mode.unquoted = true) (hzone : mode.zone = state.zone)
    (hlines : ∀ line ∈ lines, PlainLine line)
    (hstars : ∀ n ∈ starLinesFrom mode number (unlines lines),
      stateAfter contexts state (lines.take (n + 1 - number)) = .code) :
    (mode.after (unlines lines)).zone = (stateAfter contexts state lines).zone := by
  induction lines generalizing contexts state mode number with
  | nil => exact hzone
  | cons line lines ih =>
    obtain ⟨hline, hmore⟩ := List.forall_mem_cons.mp hlines
    rw [starLinesFrom_unlines_cons mode number hline.feed] at hstars
    have hfirst : starLinesFrom mode number line ≠ [] →
        (contexts 0).after state line = .code := by
      intro hne
      obtain ⟨n, hn⟩ := List.exists_mem_of_ne_nil _ hne
      have hstate := hstars n (List.mem_append_left _ hn)
      rw [(after_of_mem_starLinesFrom hline.feed hn).1, Nat.add_sub_cancel_left] at hstate
      exact hstate
    have hlater : ∀ n ∈ starLinesFrom (mode.after (line ++ ['\n'])) (number + 1) (unlines lines),
        stateAfter (fun n => contexts (n + 1)) ((contexts 0).after state line)
          (lines.take (n + 1 - (number + 1))) = .code := by
      intro n hn
      have hle := le_of_mem_starLinesFrom hn
      have hstate := hstars n (List.mem_append_right _ hn)
      have htake : n + 1 - number = (n + 1 - (number + 1)) + 1 := by omega
      rw [htake, List.take_succ_cons] at hstate
      exact hstate
    obtain ⟨hend, hend'⟩ := zone_line (contexts 0) h hzone hline hfirst
    rw [unlines_cons, Mode.after_append]
    exact ih _ hend hend' hmore hlater

theorem plainLine_of_mem_splitLines {text : Text} (hquote : '"' ∉ text) (hapostrophe : '\'' ∉ text)
    (hreturn : '\r' ∉ text) : ∀ line ∈ splitLines text, PlainLine line := by
  intro line hm
  obtain ⟨n, hn⟩ := List.mem_iff_getElem?.mp hm
  obtain ⟨rest, htext, -⟩ := splitLines_split hreturn hn
  have hmem : ∀ c ∈ line, c ∈ text := by
    intro c hc
    rw [htext]
    exact List.mem_append_right _ (List.mem_append_left rest hc)
  exact ⟨fun h => hquote (hmem _ h), fun h => hapostrophe (hmem _ h),
    newline_not_mem_splitLines hreturn line hm⟩

/-- **The scanner and the pages at the start of a line**: they are in the same zone, if no line
before it with a `*` in code leaves a comment open. -/
theorem zone_firstLines (contexts : Nat → LineContext) {text : Text} (hquote : '"' ∉ text)
    (hapostrophe : '\'' ∉ text) (hreturn : '\r' ∉ text) {k : Nat} {line : Text}
    (hk : (splitLines text)[k]? = some line)
    (hstars : ∀ n ∈ starLines text, n ≤ k →
      stateAfter contexts .code ((splitLines text).take n) = .code) :
    (Mode.between.after (firstLines k text)).zone =
      (stateAfter contexts .code ((splitLines text).take k)).zone := by
  obtain ⟨rest, htext, -⟩ := splitLines_split hreturn hk
  have hplain : ∀ line ∈ (splitLines text).take k, PlainLine line := fun line hm =>
    plainLine_of_mem_splitLines hquote hapostrophe hreturn line (List.mem_of_mem_take hm)
  have hbetween : Mode.between.unquoted = true := rfl
  rw [firstLines_eq hreturn hk]
  refine zone_lines contexts hbetween rfl hplain fun n (hn : n ∈ starLines _) => ?_
  have hle : n ≤ k := by
    have hlt := lt_of_mem_starLinesFrom hplain hn
    have hlen := List.length_take_le k (splitLines text)
    omega
  have hmem : n ∈ starLines text := by
    unfold starLines
    rw [htext, starLinesFrom_append]
    exact List.mem_append_left _ hn
  rw [Nat.add_sub_cancel, List.take_take, Nat.min_eq_left hle]
  exact hstars n hmem hle

/-! ## 4. Block comments -/

theorem Mode.inBlock_eq_false_iff {mode : Mode} {state : CommentState}
    (h : mode.zone = state.zone) : mode.inBlock = false ↔ state = .code := by
  cases state with
  | code => cases mode <;> simp_all [zone, CommentState.zone, inBlock]
  | block | doc => cases mode <;> simp_all [zone, CommentState.zone, inBlock]

/-- **The scanner and the pages agree on block comments.** In a text without quotes and without a
`*` that hides the rest of its line, a line starts in code on the pages if and only if the scanner
is outside of block comments at the first character of the line. -/
theorem comments_agree (contexts : Nat → LineContext) {text : Text} (hquote : '"' ∉ text)
    (hapostrophe : '\'' ∉ text) (hreturn : '\r' ∉ text) (hstars : starLines text = []) {n : Nat}
    (hpos : 1 ≤ n) (hn : n ≤ (splitLines text).length) :
    stateAfter contexts .code ((splitLines text).take (n - 1)) = .code ↔
      (Mode.between.after (firstLines (n - 1) text)).inBlock = false := by
  have hlt : n - 1 < (splitLines text).length := by omega
  have hzone := zone_firstLines contexts hquote hapostrophe hreturn
    (List.getElem?_eq_getElem hlt) fun m hm => by
      rw [hstars] at hm
      exact absurd hm List.not_mem_nil
  exact (Mode.inBlock_eq_false_iff hzone).symm

/-- The contexts of the lines of a text, in a file on its own and without anchors. -/
def loneContexts (text : Text) (n : Nat) : LineContext :=
  ⟨.ofLanguage (.ofText text ⟨.relative, ["Test.java"]⟩ .java none) ⟨[]⟩ .java, n + 1, []⟩

/-- Markers of either kind of comment inside the other, and a close that follows an opening
slash. -/
def markersText : Text := "x /* // \n/*/ a(1) / 2; // /*\ny /**/ z"

theorem comments_agree_markers :
    starLines markersText = [] ∧
      stateAfter (loneContexts markersText) .code ((splitLines markersText).take 1) ≠ .code ∧
      stateAfter (loneContexts markersText) .code ((splitLines markersText).take 2) = .code := by
  refine ⟨by decide +kernel, fun h => ?_, ?_⟩
  · have hinside := (@comments_agree (loneContexts markersText) markersText (by decide) (by decide)
      (by decide) (by decide +kernel) 2 (by decide) (by decide)).mp h
    exact absurd hinside (by decide +kernel)
  · exact (@comments_agree (loneContexts markersText) markersText (by decide) (by decide)
      (by decide) (by decide +kernel) 3 (by decide) (by decide)).mpr (by decide +kernel)

/-! ## 5. Declarations -/

theorem Mode.eq_blockComment_of_zone {mode : Mode} {star : Bool} (h : mode.zone = .block star) :
    mode = .blockComment star := by
  cases mode <;> simp_all [zone]

/-- A block comment without a close stays open. -/
theorem Mode.blockComment_after {star : Bool} {text : Text}
    (hstar : star = true → text.head? ≠ some '/') (h : Text.cut? ['*', '/'] text = none) :
    ((blockComment star).after text).inBlock = true := by
  induction text generalizing star with
  | nil => rfl
  | cons c text ih =>
    unfold Text.cut? at h
    split at h
    · cases h
    · rename_i hclose
      obtain ⟨hread, hnext⟩ := Zone.block_read hstar hclose
      have hmode : ((blockComment star).read c).2 = .blockComment (c == '*') := by
        simp only [Zone.read] at hread
        split_ifs at hread with hend
        simp [read, hend]
      rw [after_cons, hmode]
      exact ih hnext (Option.map_eq_none_iff.mp h)

theorem Outline.types_notice (outline : Outline) (lexeme : Lexeme) :
    (outline.notice lexeme).1.types = outline.types := by
  unfold Outline.notice
  split
  · split_ifs <;> rfl
  · rfl

/-- Every declaration has the line of a word that was read. -/
theorem Reader.steps_words (tokens : List Token) (page : Text) :
    Steps (· ∈ tokens) (fun _ => True) page fun outline =>
      ∀ declaration ∈ outline.types, ∃ name, ⟨.word name, declaration.line⟩ ∈ tokens where
  notice outline lexeme h := by
    rw [Outline.types_notice]
    exact h
  package outline token name ht hlex h := h
  imports outline name h := by
    unfold Outline.addImport
    split_ifs <;> exact h
  types outline scope token name ht hlex hs h := by
    intro declaration hm
    rcases List.mem_append.mp hm with hm | hm
    · exact h declaration hm
    · rw [List.mem_singleton.mp hm]
      obtain ⟨lexeme, line⟩ := token
      cases hlex
      exact ⟨name, ht⟩
  scope scope token name ht hlex hs := trivial

namespace SourceFile

variable {text : Text} {path : Path} {language : Language} {encoding : Option Text}

theorem word_ofText {declaration : Declaration}
    (h : declaration ∈ (ofText text path language encoding).types) :
    ∃ name, ⟨.word name, declaration.line⟩ ∈ Token.scan text := by
  refine (Reader.body_keeps (Reader.steps_words (Token.scan text) _) false 0 trivial ?_ ?_).1
    declaration h
  · exact fun d hd => absurd hd List.not_mem_nil
  · exact fun token hm => hm

/-- A declaration on a line that starts in a block comment, for the scanner, stands behind the
close of the comment. -/
theorem close_of_declared (hreturn : '\r' ∉ text) {declaration : Declaration}
    (h : declaration ∈ (ofText text path language encoding).types) {line : Text}
    (hline : (splitLines text)[declaration.line - 1]? = some line)
    (hblock : (Mode.between.after (firstLines (declaration.line - 1) text)).zone = .block false) :
    ['*', '/'] <:+: line := by
  obtain ⟨name, hword⟩ := word_ofText h
  obtain ⟨before, after, htext, hname, hnumber⟩ := Token.exists_mode_of_mem_scan hword
  have hcount : declaration.line - 1 = before.count '\n' := by omega
  obtain ⟨part, hbefore, hfeed⟩ := exists_firstLines_append before after
  rw [← htext, ← hcount] at hbefore
  -- the word stands in the line, behind `part`
  have hpart : part <+: line := by
    have hsplit : text = firstLines (declaration.line - 1) text ++ (part ++ after) := by
      rw [← List.append_assoc, ← hbefore]
      exact htext
    exact prefix_of_firstLines_append hreturn hline hfeed hsplit
  have hafter : (Mode.blockComment false).after part = .word name := by
    rw [← Mode.eq_blockComment_of_zone hblock, ← Mode.after_append, ← hbefore, hname]
  cases hcut : Text.cut? ['*', '/'] part with
  | none =>
    have hstill := Mode.blockComment_after (fun hstar => absurd hstar Bool.false_ne_true) hcut
    rw [hafter] at hstill
    cases hstill
  | some parts =>
    obtain ⟨inside, behind⟩ := parts
    have hclose : ['*', '/'] <:+: part := ⟨inside, behind, (Text.cut?_eq_append hcut).symm⟩
    exact hclose.trans hpart.isInfix

/-- **No type is declared inside a block comment.** In a text without quotes, the line of a
declaration starts in code on the pages, or closes a comment, or there is a line before it with a
`*` that hides the rest of the line from the scanner, and that leaves a comment open on the
pages. -/
theorem declared_outside_comments (contexts : Nat → LineContext) (hquote : '"' ∉ text)
    (hapostrophe : '\'' ∉ text) (hreturn : '\r' ∉ text) {declaration : Declaration}
    (h : declaration ∈ (ofText text path language encoding).types) :
    ∃ line, (splitLines text)[declaration.line - 1]? = some line ∧
      (stateAfter contexts .code ((splitLines text).take (declaration.line - 1)) = .code ∨
        ['*', '/'] <:+: line ∨
        ∃ n ∈ starLines text, n < declaration.line ∧
          stateAfter contexts .code ((splitLines text).take n) ≠ .code) := by
  obtain ⟨hpos, hle⟩ := line_ofText h
  have hlt : declaration.line - 1 < (splitLines text).length := by omega
  refine ⟨_, List.getElem?_eq_getElem hlt, ?_⟩
  by_cases hstars : ∃ n ∈ starLines text, n < declaration.line ∧
      stateAfter contexts .code ((splitLines text).take n) ≠ .code
  · exact Or.inr (Or.inr hstars)
  · have hclosed : ∀ n ∈ starLines text, n ≤ declaration.line - 1 →
        stateAfter contexts .code ((splitLines text).take n) = .code := by
      intro n hn hbefore
      by_contra hne
      exact hstars ⟨n, hn, by omega, hne⟩
    have hzone := zone_firstLines contexts hquote hapostrophe hreturn
      (List.getElem?_eq_getElem hlt) hclosed
    cases hstate : stateAfter contexts .code ((splitLines text).take (declaration.line - 1)) with
    | code => exact Or.inl rfl
    | block | doc =>
      rw [hstate] at hzone
      exact Or.inr (Or.inl (close_of_declared hreturn h (List.getElem?_eq_getElem hlt) hzone))

/-- A declaration on the line on which a comment is closed. -/
def closedText : Text := "/* class A \x7b\n*/ class B \x7b\x7d"

theorem declared_outside_comments_closed :
    ∃ line, (splitLines closedText)[1]? = some line ∧
      (stateAfter (loneContexts closedText) .code ((splitLines closedText).take 1) = .code ∨
        ['*', '/'] <:+: line ∨
        ∃ n ∈ starLines closedText, n < 2 ∧
          stateAfter (loneContexts closedText) .code ((splitLines closedText).take n) ≠ .code) :=
  @declared_outside_comments closedText ⟨.relative, ["Test.java"]⟩ .java none
    (loneContexts closedText) (by decide) (by decide) (by decide) ⟨"B", "Test", 2⟩
    (by decide +kernel)

/-- A `*` in code, and a comment behind it that reaches over the next line. -/
def hiddenText : Text := "a * b /*\nclass X \x7b\x7d\n*/"

/-- The scanner does not see the comment behind the `*`, and declares the type in it. -/
theorem declared_inside_comment :
    ('"' ∉ hiddenText ∧ '\'' ∉ hiddenText ∧ '\r' ∉ hiddenText) ∧
      ⟨"X", "Test", 2⟩ ∈ (ofText hiddenText ⟨.relative, ["Test.java"]⟩ .java none).types ∧
      stateAfter (loneContexts hiddenText) .code ((splitLines hiddenText).take 1) ≠ .code ∧
      ∃ line, (splitLines hiddenText)[1]? = some line ∧ ¬ ['*', '/'] <:+: line := by
  refine ⟨by decide, by decide +kernel, by decide +kernel, "class X \x7b\x7d", by decide, by decide⟩

end SourceFile

end CodeAtlas
