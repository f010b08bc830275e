/-
  File:      CodeAtlas/Proofs/Source/Machine.lean
  Subject:   The reader as a machine that takes one token at a time.

  Reading two lists of tokens one after the other is reading the second from where the
  first left off (`Machine.run_append`).

  * `run_eq_resume`: a body read from inside its frame, and then what the frames
    around it make of the tokens that are left. `outline_eq_run` is the case of a
    whole file.
  * `IsFiller`: the tokens that the reader passes over outside of text blocks;
    `run_fillers`: they leave the machine as it is.
  * `unlined_run`: the machine looks at lexemes, and at lines only to write them
    down.
-/
import CodeAtlas.Source.Machine
import CodeAtlas.Proofs.Source.Outline

namespace CodeAtlas

namespace Reader

/-! ## 1. Lists of tokens -/

namespace Machine

variable {language : Language} {page : Text}

theorem run_nil (machine : Machine) : machine.run language page [] = machine := rfl

theorem run_cons (machine : Machine) (token : Token) (tokens : List Token) :
    machine.run language page (token :: tokens) =
      (machine.step language page token).run language page tokens := rfl

theorem run_append (machine : Machine) (a b : List Token) :
    machine.run language page (a ++ b) = (machine.run language page a).run language page b :=
  List.foldl_append

end Machine

variable {language : Language} {page : Text}

/-! ## 2. One token -/

namespace Machine

theorem step_of_nothing {machine : Machine} (h : machine.awaited = .nothing) (token : Token) :
    machine.step language page token = machine.pass language token.lexeme := by
  unfold step
  rw [h]

theorem step_of_not_word (machine : Machine) {token : Token}
    (h : ∀ name, token.lexeme ≠ .word name) :
    machine.step language page token = machine.pass language token.lexeme := by
  unfold step
  split
  case h_5 => rfl
  all_goals
    rename_i hword
    exact absurd hword (h _)

variable {machine : Machine}

theorem pass_hidden {lexeme : Lexeme} (h : (machine.outline.notice lexeme).2 = true) :
    machine.pass language lexeme =
      { machine with outline := (machine.outline.notice lexeme).1, awaited := .nothing } := by
  simp only [pass, h, if_true]

theorem pass_open (h : (machine.outline.notice (.sign '{')).2 = false) :
    machine.pass language (.sign '{') =
      ⟨(machine.outline.notice (.sign '{')).1, .nothing,
        ⟨machine.frame.scope, machine.frame.depth + 1⟩, machine.outer⟩ := by
  simp only [pass, h, Bool.false_eq_true, if_false]
  rfl

theorem pass_close (h : (machine.outline.notice (.sign '}')).2 = false) :
    machine.pass language (.sign '}') =
      closeBrace ⟨(machine.outline.notice (.sign '}')).1, .nothing, machine.frame,
        machine.outer⟩ := by
  simp only [pass, h, Bool.false_eq_true, if_false]

theorem pass_word {keyword : Text} (h : (machine.outline.notice (.word keyword)).2 = false) :
    machine.pass language (.word keyword) =
      ⟨(machine.outline.notice (.word keyword)).1, .after language keyword, machine.frame,
        machine.outer⟩ := by
  simp only [pass, h, Bool.false_eq_true, if_false]

theorem pass_other (lexeme : Lexeme) (h1 : lexeme ≠ .sign '{') (h2 : lexeme ≠ .sign '}')
    (h3 : ∀ keyword, lexeme ≠ .word keyword) :
    machine.pass language lexeme =
      { machine with outline := (machine.outline.notice lexeme).1, awaited := .nothing } := by
  unfold Machine.pass
  dsimp only
  split_ifs
  · rfl
  · split
    · exact absurd rfl h1
    · exact absurd rfl h2
    · exact absurd rfl (h3 _)
    · rfl

end Machine

/-! ## 3. Nested bodies -/

open Machine

/-- The outline at the end of the file, after a body inside the frames `outer` has ended with
some tokens left. -/
def resume (language : Language) (page : Text) : List Frame → Outline → List Token → Outline
  | [], outline, _ => outline
  | frame :: outer, outline, left =>
    (run language page ⟨outline, .nothing, frame, outer⟩ left).outline

section Names

variable {outline : Outline} {frame : Frame} {outer : List Frame} {tokens : List Token}

theorem not_word_of_word?_eq_none {token : Token} {rest : List Token}
    (h : word? (token :: rest) = none) (name : Text) : token.lexeme ≠ .word name := by
  intro hl
  obtain ⟨lexeme, line⟩ := token
  cases hl
  exact nomatch h

/-- A name that is awaited and does not come is forgotten. -/
theorem run_of_word?_eq_none (awaited : Awaited) (h : word? tokens = none) :
    (run language page ⟨outline, awaited, frame, outer⟩ tokens).outline =
      (run language page ⟨outline, .nothing, frame, outer⟩ tokens).outline := by
  cases tokens with
  | nil => rfl
  | cons token rest =>
    have hword := not_word_of_word?_eq_none h
    rw [run_cons, run_cons, step_of_not_word _ hword, step_of_not_word _ hword]
    rfl

theorem run_package {token : Token} {name : Text} {later : Rest tokens}
    (h : word? tokens = some (token, name, later)) :
    run language page ⟨outline, .package, frame, outer⟩ tokens =
      run language page ⟨{ outline with package := name }, .nothing, frame, outer⟩ later.val := by
  obtain ⟨hl, e⟩ := word?_spec h
  refine (congrArg _ e).trans ?_
  simp only [run_cons, step, hl]

theorem run_typeName {token : Token} {name : Text} {later : Rest tokens}
    (h : word? tokens = some (token, name, later)) :
    run language page ⟨outline, .typeName, frame, outer⟩ tokens =
      run language page ⟨outline.addType ⟨frame.scope ++ name, page, token.line⟩, .nothing,
        ⟨frame.scope ++ name ++ ['.'], 0⟩, frame :: outer⟩ later.val := by
  obtain ⟨hl, e⟩ := word?_spec h
  refine (congrArg _ e).trans ?_
  simp only [run_cons, step, hl]

/-- After `import` the machine takes the name that is found by looking ahead. -/
theorem run_imported {found : Option Text} {later : Rest tokens}
    (h : importName? tokens = (found, later)) :
    (run language page ⟨outline, .imported, frame, outer⟩ tokens).outline =
      (run language page ⟨(found.map importedName).elim outline outline.addImport, .nothing, frame,
        outer⟩ later.val).outline := by
  unfold importName? at h
  split at h
  · rename_i hnone
    cases h
    exact run_of_word?_eq_none .imported hnone
  · rename_i token first rest hle hfirst
    obtain ⟨hl, e⟩ := word?_spec hfirst
    refine (congrArg (fun t => (run language page _ t).outline) e).trans ?_
    split at h
    · rename_i hstatic
      simp only [run_cons, step, hl, hstatic, if_true]
      split at h
      · rename_i hnone
        cases h
        exact run_of_word?_eq_none .staticMember hnone
      · rename_i second name more hmore hsecond
        cases h
        obtain ⟨hl', e'⟩ := word?_spec hsecond
        refine (congrArg (fun t => (run language page _ t).outline) e').trans ?_
        simp only [run_cons, step, hl', Option.map_some, Option.elim_some]
    · rename_i hstatic
      cases h
      simp only [run_cons, step, hl, hstatic, Bool.false_eq_true, if_false, Option.map_some,
        Option.elim_some]

end Names

/-- The first step of a body at a word that is not hidden. -/
theorem step_keyword {outline : Outline} {frame : Frame} {outer : List Frame} {token : Token}
    {keyword : Text} (hs : ¬(outline.notice token.lexeme).2 = true)
    (hl : token.lexeme = .word keyword) :
    step language page ⟨outline, .nothing, frame, outer⟩ token =
      ⟨(outline.notice token.lexeme).1, .after language keyword, frame, outer⟩ := by
  rw [step_of_nothing rfl]
  rw [hl, Bool.not_eq_true] at hs
  rw [hl, pass_word hs]

/-- **A body inside its frame.** The machine reads the tokens of a body, and then the frames
around it read those that the body has left. -/
theorem run_eq_resume {scope : Text} {nested : Bool} {depth : Nat} {outline : Outline}
    {tokens : List Token} (outer : List Frame) (h : nested = !outer.isEmpty) :
    (run language page ⟨outline, .nothing, ⟨scope, depth⟩, outer⟩ tokens).outline =
      resume language page outer (body language page scope nested depth outline tokens).1
        (body language page scope nested depth outline tokens).2.val := by
  fun_induction body language page scope nested depth outline tokens generalizing outer with
  | case1 =>
    cases outer <;> rfl
  | case2 scope nested depth outline token rest seen go here hs ih =>
    rw [run_cons, step_of_nothing rfl, pass_hidden hs]
    exact ih depth seen.1 here outer h
  | case3 scope nested depth outline token rest seen go here hs hl ih =>
    have hseen : (outline.notice (.sign '{')).2 = false := by simpa [seen, hl] using hs
    rw [run_cons, step_of_nothing rfl, hl, pass_open hseen, ← hl]
    exact ih (depth + 1) seen.1 here outer h
  | case4 scope nested depth outline token rest seen hs hl hend =>
    have hseen : (outline.notice (.sign '}')).2 = false := by simpa [seen, hl] using hs
    rw [run_cons, step_of_nothing rfl, hl, pass_close hseen, ← hl]
    obtain ⟨hnested, hdepth⟩ := Bool.and_eq_true_iff.mp hend
    cases outer with
    | nil => exact absurd (h.symm.trans hnested) (by decide)
    | cons frame outer =>
      simp only [closeBrace, of_decide_eq_true hdepth, if_true]
      rfl
  | case5 scope nested depth outline token rest seen go here hs hl hend ih =>
    have hseen : (outline.notice (.sign '}')).2 = false := by simpa [seen, hl] using hs
    have hclose : closeBrace ⟨seen.1, .nothing, ⟨scope, depth⟩, outer⟩ =
        ⟨seen.1, .nothing, ⟨scope, depth - 1⟩, outer⟩ := by
      cases outer with
      | nil => rfl
      | cons frame outer =>
        have hdepth : ¬ depth ≤ 1 := fun hle => hend (by simp [h, hle])
        simp only [closeBrace, hdepth, if_false]
    rw [run_cons, step_of_nothing rfl, hl, pass_close hseen, ← hl]
    exact (congrArg (fun m => (run language page m rest).outline) hclose).trans
      (ih (depth - 1) seen.1 here outer h)
  | case6 scope nested depth outline token rest seen go hs keyword hl hk first name later hw ih =>
    have hafter : Awaited.after language keyword = .package := by simp only [Awaited.after, hk, if_true]
    rw [run_cons, step_keyword hs hl, hafter, run_package hw]
    exact ih depth { seen.1 with package := name } later outer h
  | case7 scope nested depth outline token rest seen go here hs keyword hl hk hw ih =>
    rw [run_cons, step_keyword hs hl, run_of_word?_eq_none _ hw]
    exact ih depth seen.1 here outer h
  | case8 scope nested depth outline token rest seen go hs keyword hl hk1 hk2 name later hi ih =>
    have hafter : Awaited.after language keyword = .imported := by
      simp only [Awaited.after, hk1, hk2, Bool.false_eq_true, if_false, if_true]
    rw [run_cons, step_keyword hs hl, hafter, run_imported hi]
    exact ih depth (seen.1.addImport (importedName name)) later outer h
  | case9 scope nested depth outline token rest seen go hs keyword hl hk1 hk2 later hi ih =>
    have hafter : Awaited.after language keyword = .imported := by
      simp only [Awaited.after, hk1, hk2, Bool.false_eq_true, if_false, if_true]
    rw [run_cons, step_keyword hs hl, hafter, run_imported hi]
    exact ih depth seen.1 later outer h
  | case10 scope nested depth outline token rest seen go hs keyword hl hk1 hk2 hk3 first name later
      hw declared inner left hle hbody ih ihInner =>
    have hafter : Awaited.after language keyword = .typeName := by
      simp only [Awaited.after, hk1, hk2, hk3, Bool.false_eq_true, if_false, if_true]
    rw [run_cons, step_keyword hs hl, hafter, run_typeName hw]
    -- the body of the type first, with the frame of this body around it, then the rest of this body
    have hinner := ihInner (⟨scope, depth⟩ :: outer) rfl
    rw [hbody] at hinner
    exact hinner.trans (ih depth inner ⟨left, Nat.le_trans hle later.property⟩ outer h)
  | case11 scope nested depth outline token rest seen go here hs keyword hl hk1 hk2 hk3 hw ih =>
    rw [run_cons, step_keyword hs hl, run_of_word?_eq_none _ hw]
    exact ih depth seen.1 here outer h
  | case12 scope nested depth outline token rest seen go here hs keyword hl hk1 hk2 hk3 ih =>
    have hafter : Awaited.after language keyword = .nothing := by
      simp only [Awaited.after, hk1, hk2, hk3, Bool.false_eq_true, if_false]
    rw [run_cons, step_keyword hs hl, hafter]
    exact ih depth seen.1 here outer h
  | case13 scope nested depth outline token rest seen go here hs ho hc hw ih =>
    rw [run_cons, step_of_nothing rfl, pass_other _ ho hc hw]
    exact ih depth seen.1 here outer h

/-- **The outline of a file is what the machine has read at its end.** -/
theorem outline_eq_run (language : Language) (page : Text) (tokens : List Token) :
    Reader.outline language page tokens = ((start language).run language page tokens).outline :=
  (run_eq_resume [] rfl).symm

end Reader

/-! ## 4. Tokens that are passed over -/

/-- A lexeme that announces nothing, is no brace, and opens or closes no text block. -/
def IsFiller (language : Language) : Lexeme → Prop
  | .word name =>
    name ≠ "package".toList ∧ name ≠ "import".toList ∧ name ∉ language.typeKeywords
  | .number => True
  | .literal quote body => quote = '\'' ∨ quote = '"' ∧ body ≠ []
  | .sign char => char ≠ '{' ∧ char ≠ '}'

instance (language : Language) : DecidablePred (IsFiller language)
  | .word name => inferInstanceAs (Decidable
      (name ≠ "package".toList ∧ name ≠ "import".toList ∧ name ∉ language.typeKeywords))
  | .number => inferInstanceAs (Decidable True)
  | .literal quote body => inferInstanceAs (Decidable (quote = '\'' ∨ quote = '"' ∧ body ≠ []))
  | .sign char => inferInstanceAs (Decidable (char ≠ '{' ∧ char ≠ '}'))

/-- Neither inside a text block nor behind an empty literal, which may open one. -/
structure Outline.Plain (outline : Outline) : Prop where
  outside : outline.inTextBlock = false
  fresh : outline.afterEmpty = false

namespace Outline.Plain

variable {outline : Outline}

/-- What is no literal is visible, and changes nothing that was noticed before. -/
theorem notice_eq (h : outline.Plain) {lexeme : Lexeme}
    (hl : ∀ quote body, lexeme ≠ .literal quote body) : outline.notice lexeme = (outline, false) := by
  obtain ⟨package, imports, types, inTextBlock, afterEmpty⟩ := outline
  obtain ⟨rfl, rfl⟩ : inTextBlock = false ∧ afterEmpty = false := ⟨h.outside, h.fresh⟩
  cases lexeme with
  | literal quote body => exact absurd rfl (hl quote body)
  | _ => rfl

/-- A literal that opens no text block is hidden and changes nothing. -/
theorem notice_literal (h : outline.Plain) {quote : Char} {body : Text}
    (hb : quote = '\'' ∨ quote = '"' ∧ body ≠ []) :
    outline.notice (.literal quote body) = (outline, true) := by
  obtain ⟨package, imports, types, inTextBlock, afterEmpty⟩ := outline
  obtain ⟨rfl, rfl⟩ : inTextBlock = false ∧ afterEmpty = false := ⟨h.outside, h.fresh⟩
  have hempty : (quote == '"' && body.isEmpty) = false := by
    rcases hb with rfl | ⟨_, hne⟩
    · rfl
    · simp [hne]
  simp [notice, hempty]

end Outline.Plain

namespace Reader

open Machine

variable {language : Language} {page : Text}

theorem Awaited.after_filler {name : Text} (h : IsFiller language (.word name)) :
    Awaited.after language name = .nothing := by
  obtain ⟨h1, h2, h3⟩ := h
  have hp : (name == "package".toList) = false := beq_eq_false_iff_ne.mpr h1
  have hi : (name == "import".toList) = false := beq_eq_false_iff_ne.mpr h2
  have ht : language.typeKeywords.contains name = false := by simpa using h3
  simp only [Awaited.after, hp, hi, ht, Bool.false_eq_true, if_false]

section Plain

variable {outline : Outline} (h : outline.Plain) (frame : Frame) (outer : List Frame)
include h

theorem step_word (name : Text) (line : Nat) :
    step language page ⟨outline, .nothing, frame, outer⟩ ⟨.word name, line⟩ =
      ⟨outline, .after language name, frame, outer⟩ := by
  have hn : outline.notice (.word name) = (outline, false) := h.notice_eq nofun
  rw [step_of_nothing rfl, pass_word (congrArg Prod.snd hn), hn]

theorem step_open (line : Nat) :
    step language page ⟨outline, .nothing, frame, outer⟩ ⟨.sign '{', line⟩ =
      ⟨outline, .nothing, ⟨frame.scope, frame.depth + 1⟩, outer⟩ := by
  have hn : outline.notice (.sign '{') = (outline, false) := h.notice_eq nofun
  rw [step_of_nothing rfl, pass_open (congrArg Prod.snd hn), hn]

theorem step_close (line : Nat) :
    step language page ⟨outline, .nothing, frame, outer⟩ ⟨.sign '}', line⟩ =
      closeBrace ⟨outline, .nothing, frame, outer⟩ := by
  have hn : outline.notice (.sign '}') = (outline, false) := h.notice_eq nofun
  rw [step_of_nothing rfl, pass_close (congrArg Prod.snd hn), hn]

/-- A filler leaves the machine as it is. -/
theorem step_filler {token : Token} (hf : IsFiller language token.lexeme) :
    step language page ⟨outline, .nothing, frame, outer⟩ token =
      ⟨outline, .nothing, frame, outer⟩ := by
  obtain ⟨lexeme, line⟩ := token
  cases lexeme with
  | word name => rw [step_word h, Awaited.after_filler hf]
  | sign char =>
    have h1 : Lexeme.sign char ≠ .sign '{' := fun e => hf.1 (Lexeme.sign.inj e)
    have h2 : Lexeme.sign char ≠ .sign '}' := fun e => hf.2 (Lexeme.sign.inj e)
    have hn : outline.notice (.sign char) = (outline, false) := h.notice_eq nofun
    rw [step_of_nothing rfl, pass_other _ h1 h2 nofun, hn]
  | number =>
    have hn : outline.notice .number = (outline, false) := h.notice_eq nofun
    rw [step_of_nothing rfl, pass_other .number nofun nofun nofun, hn]
  | literal quote body =>
    rw [step_of_nothing rfl, pass_other (.literal quote body) nofun nofun nofun,
      h.notice_literal hf]

/-- **Fillers leave the machine as it is**, as long as no name is awaited. -/
theorem run_fillers {tokens : List Token}
    (hf : ∀ token ∈ tokens, IsFiller language token.lexeme) :
    run language page ⟨outline, .nothing, frame, outer⟩ tokens =
      ⟨outline, .nothing, frame, outer⟩ := by
  induction tokens with
  | nil => rfl
  | cons token tokens ih =>
    rw [run_cons, step_filler h frame outer (hf token List.mem_cons_self)]
    exact ih fun t hm => hf t (List.mem_cons_of_mem token hm)

end Plain

end Reader

/-! ## 5. Lines -/

namespace Outline

/-- An outline without the lines of its declarations. -/
def unlined (outline : Outline) : Outline :=
  { outline with types := outline.types.map fun declaration => { declaration with line := 0 } }

theorem unlined_notice (outline : Outline) (lexeme : Lexeme) :
    outline.unlined.notice lexeme =
      ((outline.notice lexeme).1.unlined, (outline.notice lexeme).2) := by
  cases lexeme with
  | literal quote body =>
    unfold notice
    by_cases h : (quote == '"' && outline.afterEmpty) = true
    · simp [unlined, h]
    · simp [unlined, h]
  | _ => rfl

theorem unlined_addImport (outline : Outline) (name : Text) :
    outline.unlined.addImport name = (outline.addImport name).unlined := by
  unfold addImport
  by_cases h : outline.imports.contains ⟨name⟩ = true
  · simp only [unlined, h, if_true]
  · simp only [unlined, h, Bool.false_eq_true, if_false]

theorem unlined_addType (outline : Outline) (name page : Text) (line : Nat) :
    outline.unlined.addType ⟨name, page, 0⟩ = (outline.addType ⟨name, page, line⟩).unlined := by
  simp [addType, unlined]

end Outline

namespace Reader

open Machine

/-- A machine without the lines of the declarations it has read. -/
def Machine.unlined (machine : Machine) : Machine :=
  { machine with outline := machine.outline.unlined }

variable {language : Language} {page : Text}

theorem unlined_closeBrace (machine : Machine) :
    machine.closeBrace.unlined = machine.unlined.closeBrace := by
  obtain ⟨outline, awaited, frame, outer⟩ := machine
  cases outer with
  | nil => rfl
  | cons next outer =>
    by_cases h : frame.depth ≤ 1
    · simp only [closeBrace, Machine.unlined, h, if_true]
    · simp only [closeBrace, Machine.unlined, h, if_false]

theorem unlined_pass (machine : Machine) (lexeme : Lexeme) :
    (machine.pass language lexeme).unlined = machine.unlined.pass language lexeme := by
  have hnotice : machine.unlined.outline.notice lexeme =
      ((machine.outline.notice lexeme).1.unlined, (machine.outline.notice lexeme).2) :=
    machine.outline.unlined_notice lexeme
  unfold Machine.pass
  simp only [hnotice]
  by_cases hs : (machine.outline.notice lexeme).2 = true
  · simp only [hs, if_true]
    rfl
  · simp only [hs, Bool.false_eq_true, if_false]
    split
    · rfl
    · exact unlined_closeBrace _
    · rfl
    · rfl

theorem unlined_step (machine : Machine) (token : Token) :
    (machine.step language page token).unlined =
      machine.unlined.step language page ⟨token.lexeme, 0⟩ := by
  obtain ⟨outline, awaited, frame, outer⟩ := machine
  obtain ⟨lexeme, line⟩ := token
  cases lexeme with
  | word name =>
    cases awaited with
    | nothing => exact unlined_pass _ _
    | package => rfl
    | imported =>
      simp only [step, Machine.unlined, Outline.unlined_addImport]
      split_ifs <;> rfl
    | staticMember => simp only [step, Machine.unlined, Outline.unlined_addImport]
    | typeName => simp only [step, Machine.unlined, Outline.unlined_addType _ _ _ line]
  | _ => cases awaited <;> exact @unlined_pass language _ _

/-- Reads lexemes, with no lines to write down. -/
def Machine.read (language : Language) (page : Text) (machine : Machine) (lexemes : List Lexeme) :
    Machine :=
  machine.run language page (lexemes.map (⟨·, 0⟩))

theorem Machine.read_append (machine : Machine) (a b : List Lexeme) :
    machine.read language page (a ++ b) = (machine.read language page a).read language page b := by
  unfold Machine.read
  rw [List.map_append, run_append]

/-- **Lines are only written down**: without them, reading tokens is reading their lexemes. -/
theorem unlined_run (machine : Machine) (tokens : List Token) :
    (machine.run language page tokens).unlined =
      machine.unlined.read language page (tokens.map Token.lexeme) := by
  induction tokens generalizing machine with
  | nil => rfl
  | cons token tokens ih =>
    rw [run_cons, ih, unlined_step]
    rfl

end Reader

end CodeAtlas
