/-
  File:      CodeAtlas/Proofs/Source/TextBlocks.lean
  Subject:   A text block counts as a literal that takes the rest of its line with it.

  * `afterQuote`: what a double-quoted literal leaves of a text.
  * `Mode.calm_text`: the content of a text block keeps the scanner calm, and yields no
    literal.
  * `read_textBlock`: over a text block the machine forgets an awaited name, and
    changes nothing else. Over a literal with text it does the same (`read_oneLetter`).
  * `read_block_eq_read_literal`: a text block in a text, against a literal in its
    place. The third quote of the closing delimiter begins a literal of its own, so
    that it takes what follows on its line, up to a quote.
  * `Inert`: a line that is passed over. `textBlock_transparent`: if what follows the
    delimiter is inert, a text block may stand for a literal; `textBlock_not_transparent`
    has a declaration on the line of the delimiter, and a text that ends inside
    another text block.
-/
import CodeAtlas.Proofs.Source.Machine
import CodeAtlas.Proofs.Source.Modes
import CodeAtlas.Proofs.Text

namespace CodeAtlas

/-! ## 1. Lexemes of a text block -/

/-- What is left of a text when a double-quoted literal has been read at its front: what follows
the first quote that is not escaped, or what is left from the end of the line on. -/
def afterQuote : Text → Text
  | [] => []
  | '"' :: text => text
  | '\n' :: text => '\n' :: text
  | '\\' :: '\n' :: text => '\n' :: text
  | '\\' :: _ :: text => afterQuote text
  | _ :: text => afterQuote text

/-- A character that begins no comment and no literal. -/
def isMild (c : Char) : Bool := c != '"' && c != '\'' && c != '/' && c != '*'

/-- A literal, in quotes of either kind. -/
def Lexeme.isLiteral : Lexeme → Bool
  | .literal _ _ => true
  | _ => false

/-- A literal in double quotes. -/
def Lexeme.isDoubleQuoted : Lexeme → Bool
  | .literal quote _ => quote == '"'
  | _ => false

namespace Mode

theorem lexemes_newline (text : Text) : between.lexemes ('\n' :: text) = between.lexemes text := by
  rw [lexemes_cons, read_newline rfl]
  rfl

/-- A literal is one lexeme, and what it leaves is read anew. -/
theorem lexemes_literal (body text : Text) :
    ∃ taken, (literal '"' body).lexemes text =
      .literal '"' taken :: between.lexemes (afterQuote text) := by
  fun_induction afterQuote text generalizing body with
  | case1 => exact ⟨body, rfl⟩
  | case2 text => exact ⟨body, rfl⟩
  | case3 text =>
    rw [lexemes_newline]
    exact ⟨body, rfl⟩
  | case4 text =>
    rw [lexemes_newline]
    exact ⟨body ++ ['\\'], rfl⟩
  | case5 c text hc ih =>
    obtain ⟨taken, htaken⟩ := ih (body ++ [c])
    have hne : (c == '\n') = false := beq_eq_false_iff_ne.mpr hc
    refine ⟨taken, ?_⟩
    rw [← htaken, lexemes_cons, lexemes_cons]
    simp [read, hne]
  | case6 c text h1 h2 h3 h4 ih =>
    by_cases hc : c = '\\'
    · -- a backslash at the end of the text
      cases text with
      | nil =>
        subst hc
        exact ⟨body ++ ['\\'], rfl⟩
      | cons d text => exact absurd rfl (h4 d text hc)
    · obtain ⟨taken, htaken⟩ := ih (body ++ [c])
      have hquote : c ≠ '"' := h1
      have hfeed : c ≠ '\n' := h2
      refine ⟨taken, ?_⟩
      rw [← htaken, lexemes_cons]
      simp [read, hquote, hfeed, hc]

theorem calm_start {c : Char} (h : isMild c = true) :
    (start c).2.calm = true ∧ ∀ lexeme ∈ (start c).1, lexeme.isLiteral = false := by
  unfold start
  split_ifs
  · exact ⟨rfl, List.forall_mem_nil _⟩
  · simp_all [isMild]
  · simp_all [isMild]
  · exact ⟨rfl, List.forall_mem_nil _⟩
  · exact ⟨rfl, List.forall_mem_nil _⟩
  · exact ⟨rfl, List.forall_mem_nil _⟩
  · simp_all [isMild]
  · refine ⟨rfl, fun lexeme hm => ?_⟩
    rw [List.mem_singleton.mp hm]
    rfl

theorem calm_rest {mode : Mode} (hm : mode.calm = true) :
    ∀ lexeme ∈ mode.rest, lexeme.isLiteral = false := by
  cases mode <;> simp_all [calm, rest, Lexeme.isLiteral]

theorem calm_restart {mode : Mode} (hm : mode.calm = true) {c : Char} (h : isMild c = true) :
    (mode.restart c).2.calm = true ∧ ∀ lexeme ∈ (mode.restart c).1, lexeme.isLiteral = false := by
  obtain ⟨hcalm, hlexemes⟩ := calm_start h
  refine ⟨hcalm, fun lexeme hmem => ?_⟩
  exact (List.mem_append.mp hmem).elim (calm_rest hm lexeme) (hlexemes lexeme)

theorem calm_read {mode : Mode} (hm : mode.calm = true) {c : Char} (h : isMild c = true) :
    (mode.read c).2.calm = true ∧ ∀ lexeme ∈ (mode.read c).1, lexeme.isLiteral = false := by
  rcases read_calm hm c with hrestart | ⟨-, hnone, hcalm⟩
  · rw [hrestart]
    exact calm_restart hm h
  · rw [hnone]
    exact ⟨hcalm, List.forall_mem_nil _⟩

/-- A text of mild characters holds no literal and opens no comment. -/
theorem calm_text {mode : Mode} (hm : mode.calm = true) {text : Text}
    (h : ∀ c ∈ text, isMild c = true) :
    (mode.after text).calm = true ∧ ∀ lexeme ∈ mode.lexemes text, lexeme.isLiteral = false := by
  induction text generalizing mode with
  | nil => exact ⟨hm, calm_rest hm⟩
  | cons c text ih =>
    obtain ⟨hcalm, hlexemes⟩ := calm_read hm (h c List.mem_cons_self)
    obtain ⟨hafter, hlater⟩ := ih hcalm fun d hd => h d (List.mem_cons_of_mem c hd)
    refine ⟨hafter, fun lexeme hmem => ?_⟩
    rw [lexemes_cons] at hmem
    exact (List.mem_append.mp hmem).elim (hlexemes lexeme) (hlater lexeme)

end Mode

/-- **The lexemes of a text with a text block**: an empty literal twice, those of the content, the
empty literal again, and one more literal that is begun by the last quote of the delimiter. -/
theorem lexemes_textBlock {before content : Text} (after : Text)
    (hbefore : (Mode.between.after before).outside = true)
    (hcontent : ∀ c ∈ content, isMild c = true) :
    ∃ taken hidden, (∀ lexeme ∈ hidden, lexeme.isLiteral = false) ∧
      Mode.between.lexemes
        (before ++ "\"\"\"\n".toList ++ content ++ "\n\"\"\"".toList ++ after) =
      Mode.between.lexemes before ++ ([.literal '"' [], .literal '"' []] ++ hidden ++
        [.literal '"' [], .literal '"' taken]) ++ Mode.between.lexemes (afterQuote after) := by
  have hbetween : Mode.between.calm = true := rfl
  obtain ⟨hcalm, hhidden⟩ := Mode.calm_text hbetween hcontent
  obtain ⟨taken, htaken⟩ := Mode.lexemes_literal [] after
  have hopened : (Mode.between.after content).inBlock = false := by
    cases hmode : Mode.between.after content <;> simp_all [Mode.calm, Mode.inBlock]
  -- the text, cut at the first quote of each delimiter and at the line feed before the second
  have hsplit : before ++ "\"\"\"\n".toList ++ content ++ "\n\"\"\"".toList ++ after =
      before ++ '"' :: '"' :: '"' :: '\n' :: (content ++ '\n' :: '"' :: '"' :: '"' :: after) := by
    simp
  have hopen : ∀ text, (Mode.literal '"' []).lexemes ('"' :: '"' :: '\n' :: text) =
      .literal '"' [] :: .literal '"' [] :: Mode.between.lexemes text := fun _ => rfl
  have hclose : Mode.between.lexemes ('"' :: '"' :: '"' :: after) =
      .literal '"' [] :: (Mode.literal '"' []).lexemes after := rfl
  refine ⟨taken, Mode.between.lexemes content, hhidden, ?_⟩
  rw [hsplit, Mode.lexemes_append_cons (Mode.read_quote hbefore), hopen,
    Mode.lexemes_append_cons (Mode.read_newline hopened), hclose, htaken]
  simp

/-- The lexemes of a text with a literal in the same place. -/
theorem lexemes_oneLetter {before : Text} (after : Text)
    (hbefore : (Mode.between.after before).outside = true) :
    Mode.between.lexemes (before ++ "\"x\"".toList ++ after) =
      Mode.between.lexemes before ++ [.literal '"' ['x']] ++ Mode.between.lexemes after := by
  have hsplit : before ++ "\"x\"".toList ++ after = before ++ '"' :: 'x' :: '"' :: after := by simp
  have hread : (Mode.literal '"' []).lexemes ('x' :: '"' :: after) =
      .literal '"' ['x'] :: Mode.between.lexemes after := rfl
  rw [hsplit, Mode.lexemes_append_cons (Mode.read_quote hbefore), hread]
  simp

/-! ## 2. The machine over a text block -/

namespace Reader

open Machine

variable {language : Language} {page : Text}

/-- The machine forgets the name that it awaits. -/
def Machine.settle (machine : Machine) : Machine := { machine with awaited := .nothing }

theorem read_cons (machine : Machine) (lexeme : Lexeme) (lexemes : List Lexeme) :
    machine.read language page (lexeme :: lexemes) =
      (machine.step language page ⟨lexeme, 0⟩).read language page lexemes := rfl

/-- Inside a text block, what is no literal is passed over. -/
theorem read_hidden {outline : Outline} (hin : outline.inTextBlock = true)
    (hfresh : outline.afterEmpty = false) (frame : Frame) (outer : List Frame)
    {lexemes : List Lexeme} (h : ∀ lexeme ∈ lexemes, lexeme.isLiteral = false) :
    read language page ⟨outline, .nothing, frame, outer⟩ lexemes =
      ⟨outline, .nothing, frame, outer⟩ := by
  induction lexemes with
  | nil => rfl
  | cons lexeme lexemes ih =>
    have hnotice : outline.notice lexeme = (outline, true) := by
      obtain ⟨package, imports, types, inTextBlock, afterEmpty⟩ := outline
      cases hin
      cases hfresh
      cases lexeme with
      | literal quote body => exact nomatch h _ List.mem_cons_self
      | _ => rfl
    have hstep : step language page ⟨outline, .nothing, frame, outer⟩ ⟨lexeme, 0⟩ =
        ⟨outline, .nothing, frame, outer⟩ := by
      rw [step_of_nothing rfl, pass_hidden (congrArg Prod.snd hnotice), hnotice]
    rw [read_cons, hstep]
    exact ih fun l hl => h l (List.mem_cons_of_mem lexeme hl)

/-- A literal is hidden, and the machine takes note of it. -/
theorem step_literal (machine : Machine) (quote : Char) (body : Text) (line : Nat) :
    machine.step language page ⟨.literal quote body, line⟩ =
      ⟨(machine.outline.notice (.literal quote body)).1, .nothing, machine.frame,
        machine.outer⟩ := by
  have hhidden : (machine.outline.notice (.literal quote body)).2 = true := by
    unfold Outline.notice
    dsimp only
    split_ifs <;> rfl
  have hword : ∀ name, (⟨.literal quote body, line⟩ : Token).lexeme ≠ .word name := nofun
  rw [step_of_not_word _ hword, pass_hidden hhidden]

/-- A literal with text changes nothing but what is awaited. -/
theorem read_oneLetter {machine : Machine} (h : machine.outline.Plain) :
    machine.read language page [.literal '"' ['x']] = machine.settle := by
  have hnotice : machine.outline.notice (.literal '"' ['x']) = (machine.outline, true) :=
    h.notice_literal (Or.inr ⟨rfl, List.cons_ne_nil _ _⟩)
  rw [read_cons, step_literal, hnotice]
  rfl

/-- **A text block changes nothing but what is awaited.** -/
theorem read_textBlock {machine : Machine} (h : machine.outline.Plain) (taken : Text)
    {hidden : List Lexeme} (hhidden : ∀ lexeme ∈ hidden, lexeme.isLiteral = false) :
    machine.read language page ([.literal '"' [], .literal '"' []] ++ hidden ++
      [.literal '"' [], .literal '"' taken]) = machine.settle := by
  obtain ⟨⟨package, imports, types, inTextBlock, afterEmpty⟩, awaited, frame, outer⟩ := machine
  obtain ⟨rfl, rfl⟩ : inTextBlock = false ∧ afterEmpty = false := ⟨h.outside, h.fresh⟩
  have hopen : read language page ⟨⟨package, imports, types, false, false⟩, awaited, frame, outer⟩
      [.literal '"' [], .literal '"' []] =
      ⟨⟨package, imports, types, true, false⟩, .nothing, frame, outer⟩ := by
    rw [read_cons, read_cons, step_literal, step_literal]
    rfl
  have hclose : read language page ⟨⟨package, imports, types, true, false⟩, .nothing, frame, outer⟩
      [.literal '"' [], .literal '"' taken] =
      ⟨⟨package, imports, types, false, false⟩, .nothing, frame, outer⟩ := by
    rw [read_cons, read_cons, step_literal, step_literal]
    rfl
  rw [read_append, read_append, hopen, read_hidden rfl rfl frame outer hhidden, hclose]
  rfl

/-! ## 3. The machine before a text block -/

/-- A name is awaited only behind a word. -/
def Machine.Settled (machine : Machine) : Prop :=
  machine.awaited = .nothing ∨ machine.outline.afterEmpty = false

theorem outline_closeBrace (machine : Machine) : machine.closeBrace.outline = machine.outline := by
  unfold closeBrace
  split
  · rfl
  · split_ifs <;> rfl

theorem outline_pass (machine : Machine) (lexeme : Lexeme) :
    (machine.pass language lexeme).outline = (machine.outline.notice lexeme).1 := by
  unfold Machine.pass
  dsimp only
  split_ifs
  · rfl
  · split
    · rfl
    · exact outline_closeBrace _
    · rfl
    · rfl

theorem afterEmpty_notice (outline : Outline) {lexeme : Lexeme}
    (h : lexeme.isDoubleQuoted = false) : (outline.notice lexeme).1.afterEmpty = false := by
  cases lexeme with
  | literal quote body =>
    have hquote : (quote == '"') = false := h
    simp [Outline.notice, hquote]
  | _ => rfl

theorem afterEmpty_addImport (outline : Outline) (name : Text) :
    (outline.addImport name).afterEmpty = outline.afterEmpty := by
  unfold Outline.addImport
  split_ifs <;> rfl

/-- A step keeps the machine settled, and only a double-quoted literal can be an empty one. -/
theorem settled_step {machine : Machine} (h : machine.Settled) (token : Token) :
    (machine.step language page token).Settled ∧
      (token.lexeme.isDoubleQuoted = false →
        (machine.step language page token).outline.afterEmpty = false) := by
  obtain ⟨outline, awaited, frame, outer⟩ := machine
  obtain ⟨lexeme, line⟩ := token
  have hpass : lexeme.isDoubleQuoted = false →
      (pass language ⟨outline, awaited, frame, outer⟩ lexeme).outline.afterEmpty = false := by
    intro hl
    rw [outline_pass]
    exact afterEmpty_notice outline hl
  cases lexeme with
  | literal quote body =>
    rw [step_literal]
    exact ⟨Or.inl rfl, afterEmpty_notice outline⟩
  | number =>
    have hstep : step language page ⟨outline, awaited, frame, outer⟩ ⟨.number, line⟩ =
        pass language ⟨outline, awaited, frame, outer⟩ .number := step_of_not_word _ nofun
    rw [hstep]
    exact ⟨Or.inr (hpass rfl), hpass⟩
  | sign char =>
    have hstep : step language page ⟨outline, awaited, frame, outer⟩ ⟨.sign char, line⟩ =
        pass language ⟨outline, awaited, frame, outer⟩ (.sign char) := step_of_not_word _ nofun
    rw [hstep]
    exact ⟨Or.inr (hpass rfl), hpass⟩
  | word name =>
    have hkeep : (step language page ⟨outline, awaited, frame, outer⟩
        ⟨.word name, line⟩).outline.afterEmpty = false := by
      rcases h with hnothing | hfresh
      · rw [step_of_nothing hnothing]
        exact hpass rfl
      · cases awaited with
        | nothing => exact hpass rfl
        | package => exact hfresh
        | imported =>
          simp only [step]
          split_ifs
          · exact hfresh
          · exact (afterEmpty_addImport _ _).trans hfresh
        | staticMember => exact (afterEmpty_addImport _ _).trans hfresh
        | typeName => exact hfresh
    exact ⟨Or.inr hkeep, fun _ => hkeep⟩

theorem settled_run {machine : Machine} (h : machine.Settled) (tokens : List Token) :
    (machine.run language page tokens).Settled := by
  induction tokens generalizing machine with
  | nil => exact h
  | cons token tokens ih => exact ih (settled_step h token).1

/-- After a token that is no double-quoted literal, no text block can be opened by one literal. -/
theorem afterEmpty_run {tokens : List Token}
    (h : ∀ token ∈ tokens.getLast?, token.lexeme.isDoubleQuoted = false) :
    ((start language).run language page tokens).outline.afterEmpty = false := by
  cases hlast : tokens.getLast? with
  | none =>
    rw [List.getLast?_eq_none_iff.mp hlast]
    rfl
  | some token =>
    obtain ⟨before, rfl⟩ := List.getLast?_eq_some_iff.mp hlast
    have hstart : (start language).Settled := Or.inl rfl
    rw [run_append]
    exact (settled_step (settled_run hstart before) token).2 (h token hlast)

end Reader

/-! ## 4. What follows on the line -/

theorem afterQuote_append {line rest : Text} (hline : '\n' ∉ line) (hrest : AtLineEnd rest) :
    afterQuote (line ++ rest) = afterQuote line ++ rest := by
  fun_induction afterQuote line with
  | case1 => rcases hrest with rfl | ⟨more, rfl⟩ <;> rfl
  | case2 text => rfl
  | case3 text => exact absurd List.mem_cons_self hline
  | case4 text => exact absurd (List.mem_cons_of_mem _ List.mem_cons_self) hline
  | case5 c text hc ih =>
    have htext : '\n' ∉ text := fun h => hline (List.mem_cons_of_mem _ (List.mem_cons_of_mem _ h))
    have hc' : c ≠ '\n' := hc
    simpa [afterQuote, hc'] using ih htext
  | case6 c text h1 h2 h3 h4 ih =>
    have htext : '\n' ∉ text := fun h => hline (List.mem_cons_of_mem _ h)
    by_cases hc : c = '\\'
    · cases text with
      | nil =>
        subst hc
        rcases hrest with rfl | ⟨more, rfl⟩ <;> rfl
      | cons d text => exact absurd rfl (h4 d text hc)
    · have hquote : c ≠ '"' := h1
      have hfeed : c ≠ '\n' := h2
      simpa [afterQuote, hc, hquote, hfeed] using ih htext

theorem Mode.lexemes_append_lineEnd {line rest : Text}
    (h : (Mode.between.after line).inBlock = false) (hrest : AtLineEnd rest) :
    Mode.between.lexemes (line ++ rest) =
      Mode.between.lexemes line ++ Mode.between.lexemes rest := by
  rcases hrest with rfl | ⟨more, rfl⟩
  · rw [List.append_nil]
    exact (List.append_nil _).symm
  · rw [Mode.lexemes_append_cons (Mode.read_newline h), Mode.lexemes_newline]

/-- The rest of a line that is passed over: all its tokens are fillers, and no block comment is
open at its end. -/
structure Inert (language : Language) (line : Text) : Prop where
  fillers : ∀ token ∈ Token.scan line, IsFiller language token.lexeme
  closed : (Mode.between.after line).inBlock = false

namespace Reader

open Machine

variable {language : Language} {page : Text}

theorem read_inert {machine : Machine} (h : machine.outline.Plain)
    (hnothing : machine.awaited = .nothing) {line rest : Text} (hline : Inert language line)
    (hrest : AtLineEnd rest) :
    machine.read language page (Mode.between.lexemes (line ++ rest)) =
      machine.read language page (Mode.between.lexemes rest) := by
  obtain ⟨outline, awaited, frame, outer⟩ := machine
  cases hnothing
  have hfillers : ∀ token ∈ (Mode.between.lexemes line).map (⟨·, 0⟩ : Lexeme → Token),
      IsFiller language token.lexeme := by
    intro token hm
    obtain ⟨lexeme, hl, rfl⟩ := List.mem_map.mp hm
    rw [← Mode.lexemes_scanFrom .between 1 line] at hl
    obtain ⟨scanned, hscanned, rfl⟩ := List.mem_map.mp hl
    exact hline.fillers scanned hscanned
  have hsame : read language page ⟨outline, .nothing, frame, outer⟩ (Mode.between.lexemes line) =
      ⟨outline, .nothing, frame, outer⟩ := run_fillers h frame outer hfillers
  rw [Mode.lexemes_append_lineEnd hline.closed hrest, read_append, hsame]

/-- But for the lines, the outline of a text is what the machine has read in its lexemes. -/
theorem unlined_outline (language : Language) (page text : Text) :
    (Reader.outline language page (Token.scan text)).unlined =
      ((start language).read language page (Mode.between.lexemes text)).outline := by
  have hrun : ((start language).run language page (Token.scan text)).unlined =
      (start language).unlined.read language page ((Token.scan text).map (·.lexeme)) :=
    unlined_run (start language) (Token.scan text)
  have hlexemes : (Token.scan text).map (·.lexeme) = Mode.between.lexemes text :=
    Mode.lexemes_scanFrom .between 1 text
  rw [hlexemes] at hrun
  rw [outline_eq_run]
  exact congrArg Machine.outline hrun

/-- **A text block against a literal in its place.** The machine has read the same after both, if
what follows on the line is inert, both as it stands and behind a literal that takes up its
front. -/
theorem read_block_eq_read_literal {before content : Text} {line rest : Text}
    (hbefore : (Mode.between.after before).outside = true)
    (hplain : ((start language).read language page (Mode.between.lexemes before)).outline.Plain)
    (hcontent : ∀ c ∈ content, isMild c = true) (hend : '\n' ∉ line) (hrest : AtLineEnd rest)
    (hline : Inert language line) (hquoted : Inert language (afterQuote line)) :
    (start language).read language page (Mode.between.lexemes
        (before ++ "\"\"\"\n".toList ++ content ++ "\n\"\"\"".toList ++ (line ++ rest))) =
      (start language).read language page (Mode.between.lexemes
        (before ++ "\"x\"".toList ++ (line ++ rest))) := by
  obtain ⟨taken, hidden, hhidden, hblock⟩ := lexemes_textBlock (line ++ rest) hbefore hcontent
  have hsettled : (settle ((start language).read language page
      (Mode.between.lexemes before))).outline.Plain := hplain
  -- both sides come down to what the settled machine reads in the rest of the text
  rw [hblock, afterQuote_append hend hrest, read_append, read_append (start language),
    read_textBlock hplain taken hhidden, read_inert hsettled rfl hquoted hrest,
    lexemes_oneLetter (line ++ rest) hbefore, read_append, read_append (start language),
    read_oneLetter hplain, read_inert hsettled rfl hline hrest]

end Reader

/-! ## 5. Text blocks and literals -/

/-- What stands before the first line feed of a text. -/
def firstLine (text : Text) : Text := text.takeWhile (· != '\n')

theorem newline_not_mem_firstLine (text : Text) : '\n' ∉ firstLine text := by
  intro h
  unfold firstLine at h
  simpa using List.mem_takeWhile_imp h

theorem Outline.agree_of_unlined_eq {a b : Outline} (h : a.unlined = b.unlined) :
    a.package = b.package ∧ a.imports = b.imports ∧
      a.types.map (·.name) = b.types.map (·.name) := by
  have htypes : ∀ outline : Outline,
      outline.unlined.types.map (·.name) = outline.types.map (·.name) := fun outline => by
    simp [Outline.unlined]
  have hpackage : a.unlined.package = b.unlined.package := by rw [h]
  have himports : a.unlined.imports = b.unlined.imports := by rw [h]
  refine ⟨hpackage, himports, ?_⟩
  rw [← htypes a, ← htypes b, h]

namespace SourceFile

open Reader Machine

/-- **A text block stands for a literal.** Let a text end outside of comments and literals, not
inside a text block, and not with a double-quoted literal. Then a text block after it can be
replaced by a literal without a change to the package, the imports or the names of the types, if
what follows the closing delimiter on its line is inert, also behind a literal that takes up its
front. -/
theorem textBlock_transparent (path : Path) (language : Language) (encoding : Option Text)
    {before content after : Text} (hcontent : ∀ c ∈ content, isMild c = true)
    (hbefore : (Mode.between.after before).outside = true)
    (hlast : ∀ token ∈ (Token.scan before).getLast?, token.lexeme.isDoubleQuoted = false)
    (hblock : (Reader.outline language (language.pageName path.name)
      (Token.scan before)).inTextBlock = false)
    (hline : Inert language (firstLine after))
    (hquoted : Inert language (afterQuote (firstLine after))) :
    let block := ofText (before ++ "\"\"\"\n".toList ++ content ++ "\n\"\"\"".toList ++ after)
      path language encoding
    let literal := ofText (before ++ "\"x\"".toList ++ after) path language encoding
    block.package = literal.package ∧ block.imports = literal.imports ∧
      block.types.map (·.name) = literal.types.map (·.name) := by
  have hmachine := unlined_outline language (language.pageName path.name) before
  have hfresh : (Reader.outline language (language.pageName path.name)
      (Token.scan before)).afterEmpty = false := by
    rw [outline_eq_run]
    exact afterEmpty_run hlast
  have hplain : ((start language).read language (language.pageName path.name)
      (Mode.between.lexemes before)).outline.Plain := by
    rw [← hmachine]
    exact ⟨hblock, hfresh⟩
  have hafter : after = firstLine after ++ after.dropWhile (· != '\n') :=
    List.takeWhile_append_dropWhile.symm
  have hread := read_block_eq_read_literal hbefore hplain hcontent
    (newline_not_mem_firstLine after) (atLineEnd_dropWhile after) hline hquoted
  rw [← hafter] at hread
  refine Outline.agree_of_unlined_eq ?_
  rw [unlined_outline, unlined_outline, hread]

/-- Half a declaration inside of a text block, and a type after its line. -/
theorem textBlock_transparent_unbalanced :
    let before := "class A \x7b String s = ".toList
    let after := ";\n class C \x7b\x7d \x7d".toList
    let block := ofText (before ++ "\"\"\"\n".toList ++ "class B \x7b".toList ++ "\n\"\"\"".toList ++
      after) ⟨.relative, ["Test.java"]⟩ .java none
    let literal := ofText (before ++ "\"x\"".toList ++ after) ⟨.relative, ["Test.java"]⟩ .java none
    literal.types.map (·.name) = ["A".toList, "A.C"] ∧ block.package = literal.package ∧
      block.imports = literal.imports ∧ block.types.map (·.name) = literal.types.map (·.name) := by
  refine ⟨by decide +kernel, ?_⟩
  exact textBlock_transparent ⟨.relative, ["Test.java"]⟩ .java none
    (forall_mem_of_all (by decide)) (by decide +kernel) (by decide +kernel) (by decide +kernel)
    ⟨by decide +kernel, by decide +kernel⟩ ⟨by decide +kernel, by decide +kernel⟩

/-- A type on the line of the closing delimiter is lost, and with it the end of the type around
the text block. In a text that ends inside of a text block, a delimiter closes it. -/
theorem textBlock_not_transparent :
    (let before := "class A \x7b String s = ".toList
      let content := "".toList
      let after := "; class B \x7b\x7d \x7d".toList
      let block := ofText (before ++ "\"\"\"\n".toList ++ content ++ "\n\"\"\"".toList ++ after)
        ⟨.relative, ["Test.java"]⟩ .java none
      let literal := ofText (before ++ "\"x\"".toList ++ after) ⟨.relative, ["Test.java"]⟩ .java none
      (∀ c ∈ content, c ∉ "\"'\\/*".toList) ∧ (Mode.between.after before).outside = true ∧
        (∀ token ∈ (Token.scan before).getLast?, token.lexeme.isDoubleQuoted = false) ∧
        after.head? ≠ some '"' ∧ block.types.map (·.name) = ["A".toList] ∧
        literal.types.map (·.name) = ["A".toList, "A.B"]) ∧
    (let before := "\"\"\"\nx\n".toList
      let content := "class B \x7b\x7d".toList
      let after := "".toList
      let block := ofText (before ++ "\"\"\"\n".toList ++ content ++ "\n\"\"\"".toList ++ after)
        ⟨.relative, ["Test.java"]⟩ .java none
      let literal := ofText (before ++ "\"x\"".toList ++ after) ⟨.relative, ["Test.java"]⟩ .java none
      (∀ c ∈ content, c ∉ "\"'\\/*".toList) ∧ (Mode.between.after before).outside = true ∧
        (∀ token ∈ (Token.scan before).getLast?, token.lexeme.isDoubleQuoted = false) ∧
        after.head? ≠ some '"' ∧ block.types.map (·.name) = ["B".toList] ∧
        literal.types.map (·.name) = []) := by
  exact ⟨⟨forall_mem_of_all (by decide), by decide +kernel⟩,
    forall_mem_of_all (by decide), by decide +kernel⟩

end SourceFile

end CodeAtlas
