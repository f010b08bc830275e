/-
  File:      CodeAtlas/Proofs/Source/OnePass.lean
  Subject:   The reader as an automaton that sees every token exactly once.

  `Reader.body` looks ahead for names, calls itself for every type inside a type,
  and goes on with the tokens that such a call has left. The automaton below has
  none of this. It takes one token after the other and keeps a stack of frames, the
  name it waits for, whether it is inside a text block, and the token before.

  * `Automaton.step`: one token.
  * `Automaton.view`: the machine of `Proofs/Source/Machine` that an automaton
    stands for. That machine remembers of the token before only whether it was an
    empty literal.
  * `Automaton.view_step`, `Automaton.view_run`: both take the same steps.
  * `Reader.body_left_eq_nil`: the body of a file leaves no token.
  * `Reader.outline_one_pass`: the outline of any list of tokens is what the
    automaton has read at its end.
-/
import CodeAtlas.Proofs.Source.TextBlocks

namespace CodeAtlas

namespace Reader

/-! ## 1. The automaton -/

/-- What is known between two tokens. The frames are a stack that is never empty: `frame` is the
innermost body, `outer` the bodies around it, and the last one of all belongs to the file. -/
structure Automaton where
  package : Text
  imports : List Import
  types : List Declaration
  inTextBlock : Bool
  /-- The token before. There is none at the start and behind the mark of a text block. -/
  previous : Option Token
  awaited : Awaited
  frame : Frame
  outer : List Frame
  deriving DecidableEq, Repr

namespace Automaton

/-- Before the first token. -/
def start (language : Language) : Automaton where
  package := []
  imports := language.implicitImports.map (⟨·⟩)
  types := []
  inTextBlock := false
  previous := none
  awaited := .nothing
  frame := ⟨[], 0⟩
  outer := []

/-- Whether the token before is an empty literal in double quotes. -/
def afterEmpty (automaton : Automaton) : Bool :=
  match automaton.previous with
  | some ⟨.literal quote body, _⟩ => quote == '"' && body.isEmpty
  | _ => false

/-- Whether a token completes the mark of a text block: a double-quoted literal right behind an
empty one. -/
def completesMark (automaton : Automaton) (lexeme : Lexeme) : Bool :=
  match lexeme with
  | .literal quote _ => quote == '"' && automaton.afterEmpty
  | _ => false

/-- A closing brace: the last one of a type's body takes its frame off the stack; the frame of
the file stays. -/
def close (automaton : Automaton) : Automaton :=
  match automaton.outer with
  | [] => { automaton with frame := ⟨automaton.frame.scope, automaton.frame.depth - 1⟩ }
  | next :: rest =>
    if automaton.frame.depth ≤ 1 then { automaton with frame := next, outer := rest }
    else { automaton with frame := ⟨automaton.frame.scope, automaton.frame.depth - 1⟩ }

/-- A token that is neither hidden nor awaited. -/
def visit (language : Language) (automaton : Automaton) (lexeme : Lexeme) : Automaton :=
  match lexeme with
  | .sign '{' => { automaton with frame := ⟨automaton.frame.scope, automaton.frame.depth + 1⟩ }
  | .sign '}' => automaton.close
  | .word keyword => { automaton with awaited := .after language keyword }
  | _ => automaton

/-- Goes past a token, which is the token before from then on. -/
def past (automaton : Automaton) (token : Token) : Automaton :=
  { automaton with previous := some token, awaited := .nothing }

/-- A token that is not awaited. Literals are hidden, and in a text block all tokens are. -/
def pass (language : Language) (automaton : Automaton) (token : Token) : Automaton :=
  if automaton.completesMark token.lexeme then
    { automaton with
      inTextBlock := !automaton.inTextBlock, previous := none, awaited := .nothing }
  else
    match token.lexeme with
    | .literal _ _ => automaton.past token
    | lexeme =>
      if automaton.inTextBlock then automaton.past token
      else (automaton.past token).visit language lexeme

/-- A name that was awaited after `import`. -/
def addImport (automaton : Automaton) (name : Text) : Automaton :=
  if ⟨importedName name⟩ ∈ automaton.imports then automaton
  else { automaton with imports := automaton.imports ++ [⟨importedName name⟩] }

/-- The name of a type: a declaration in the innermost body, and a new frame for its own body. -/
def addType (page : Text) (automaton : Automaton) (name : Text) (line : Nat) : Automaton :=
  { automaton with
    types := automaton.types ++ [⟨automaton.frame.scope ++ name, page, line⟩]
    frame := ⟨automaton.frame.scope ++ name ++ ['.'], 0⟩
    outer := automaton.frame :: automaton.outer }

/-- **One token.** A word that is awaited is taken as the name; any other token is read as if
nothing had been awaited. -/
def step (language : Language) (page : Text) (automaton : Automaton) (token : Token) :
    Automaton :=
  match automaton.awaited, token.lexeme with
  | .package, .word name => { automaton.past token with package := name }
  | .imported, .word name =>
    if name == "static".toList then { automaton.past token with awaited := .staticMember }
    else (automaton.past token).addImport name
  | .staticMember, .word name => (automaton.past token).addImport name
  | .typeName, .word name => (automaton.past token).addType page name token.line
  | _, _ => automaton.pass language token

/-- Tokens one after the other, each of them once. -/
def run (language : Language) (page : Text) (automaton : Automaton) (tokens : List Token) :
    Automaton :=
  tokens.foldl (step language page) automaton

variable {language : Language} {page : Text}

/-- A token that is no word is read as if nothing had been awaited. -/
theorem step_of_not_word (automaton : Automaton) {token : Token}
    (h : ∀ name, token.lexeme ≠ .word name) :
    automaton.step language page token = automaton.pass language token := by
  unfold step
  split
  case h_5 => rfl
  all_goals
    rename_i hword
    exact absurd hword (h _)

/-! ## 2. The machine behind it -/

/-- The outline that has been read. -/
def outline (automaton : Automaton) : Outline where
  package := automaton.package
  imports := automaton.imports
  types := automaton.types
  inTextBlock := automaton.inTextBlock
  afterEmpty := automaton.afterEmpty

/-- The machine that an automaton stands for. -/
def view (automaton : Automaton) : Machine :=
  ⟨automaton.outline, automaton.awaited, automaton.frame, automaton.outer⟩

theorem view_close (automaton : Automaton) : automaton.close.view = automaton.view.closeBrace := by
  obtain ⟨package, imports, types, inTextBlock, previous, awaited, frame, outer⟩ := automaton
  cases outer with
  | nil => rfl
  | cons next rest =>
    by_cases h : frame.depth ≤ 1
    · simp only [close, h, if_true, view, Machine.closeBrace]
      rfl
    · simp only [close, h, if_false, view, Machine.closeBrace]
      rfl

/-- A literal: the automaton remembers it, the machine whether it was empty. -/
theorem view_pass_literal (automaton : Automaton) (quote : Char) (body : Text) (line : Nat) :
    (automaton.pass language ⟨.literal quote body, line⟩).view =
      automaton.view.pass language (.literal quote body) := by
  have hmachine : automaton.view.pass language (.literal quote body) =
      ⟨(automaton.outline.notice (.literal quote body)).1, .nothing, automaton.frame,
        automaton.outer⟩ := Machine.pass_other _ nofun nofun nofun
  rw [hmachine]
  cases hm : (quote == '"' && automaton.afterEmpty) with
  | true =>
    simp only [pass, completesMark, hm, if_true, Outline.notice, outline, view]
    rfl
  | false =>
    simp only [pass, completesMark, hm, Bool.false_eq_true, if_false, Outline.notice, outline,
      view]
    rfl

section NotLiteral

variable {token : Token} (hl : ∀ quote body, token.lexeme ≠ .literal quote body)
include hl

theorem notice_outline (automaton : Automaton) :
    automaton.outline.notice token.lexeme =
      ((automaton.past token).outline, automaton.inTextBlock) := by
  obtain ⟨lexeme, line⟩ := token
  cases lexeme with
  | literal quote body => exact absurd rfl (hl quote body)
  | _ => rfl

theorem pass_of_not_literal (automaton : Automaton) :
    automaton.pass language token =
      if automaton.inTextBlock then automaton.past token
      else (automaton.past token).visit language token.lexeme := by
  obtain ⟨lexeme, line⟩ := token
  cases lexeme with
  | literal quote body => exact absurd rfl (hl quote body)
  | _ => rfl

/-- A token that can be seen. -/
theorem view_visit {automaton : Automaton} (hb : automaton.inTextBlock = false) :
    ((automaton.past token).visit language token.lexeme).view =
      automaton.view.pass language token.lexeme := by
  have hnotice : automaton.view.outline.notice token.lexeme =
      ((automaton.past token).outline, false) := hb ▸ notice_outline hl automaton
  unfold visit
  split
  · rename_i e
    rw [e] at hnotice ⊢
    rw [Machine.pass_open (congrArg Prod.snd hnotice), hnotice]
    rfl
  · rename_i e
    rw [e] at hnotice ⊢
    rw [Machine.pass_close (congrArg Prod.snd hnotice), hnotice, view_close]
    rfl
  · rename_i e
    rw [e] at hnotice ⊢
    rw [Machine.pass_word (congrArg Prod.snd hnotice), hnotice]
    rfl
  · rename_i hopen hclose hword
    rw [Machine.pass_other _ hopen hclose hword, hnotice]
    rfl

end NotLiteral

/-- **A token that is not awaited** is read alike. -/
theorem view_pass (automaton : Automaton) (token : Token) :
    (automaton.pass language token).view = automaton.view.pass language token.lexeme := by
  by_cases h : ∃ quote body, token.lexeme = .literal quote body
  · obtain ⟨quote, body, e⟩ := h
    obtain ⟨lexeme, line⟩ := token
    subst e
    exact view_pass_literal automaton quote body line
  · have hl : ∀ quote body, token.lexeme ≠ .literal quote body :=
      fun quote body e => h ⟨quote, body, e⟩
    rw [pass_of_not_literal hl]
    cases hb : automaton.inTextBlock with
    | false => exact view_visit hl hb
    | true =>
      have hnotice : automaton.view.outline.notice token.lexeme =
          ((automaton.past token).outline, true) := hb ▸ notice_outline hl automaton
      rw [Machine.pass_hidden (congrArg Prod.snd hnotice), hnotice]
      rfl

theorem view_addImport (automaton : Automaton) (name : Text) :
    (automaton.addImport name).view =
      { automaton.view with outline := automaton.outline.addImport (importedName name) } := by
  unfold addImport Outline.addImport
  by_cases h : ⟨importedName name⟩ ∈ automaton.imports
  · have hc : automaton.outline.imports.contains ⟨importedName name⟩ = true := by
      simpa [outline] using h
    rw [if_pos h, if_pos hc]
    rfl
  · have hc : ¬ automaton.outline.imports.contains ⟨importedName name⟩ = true := by
      simpa [outline] using h
    rw [if_neg h, if_neg hc]
    rfl

/-- Behind a word the machine has nothing to forget when the automaton goes past a word. -/
theorem outline_past_word {automaton : Automaton} (h : automaton.afterEmpty = false) (name : Text)
    (line : Nat) : (automaton.past ⟨.word name, line⟩).outline = automaton.outline := by
  simp only [outline, h]
  rfl

/-- **Both take the same step**, as long as a name is awaited only behind a word. -/
theorem view_step {automaton : Automaton} (h : automaton.view.Settled) (token : Token) :
    (automaton.step language page token).view = automaton.view.step language page token := by
  obtain ⟨lexeme, line⟩ := token
  cases lexeme with
  | literal quote body =>
    rw [step_of_not_word _ (by exact nofun), Machine.step_of_not_word _ (by exact nofun), view_pass]
  | number =>
    rw [step_of_not_word _ (by exact nofun), Machine.step_of_not_word _ (by exact nofun), view_pass]
  | sign char =>
    rw [step_of_not_word _ (by exact nofun), Machine.step_of_not_word _ (by exact nofun), view_pass]
  | word name =>
    have hpast : automaton.awaited ≠ .nothing →
        (automaton.past ⟨.word name, line⟩).outline = automaton.outline :=
      fun ha => outline_past_word (h.resolve_left ha) name line
    have hview : automaton.view.awaited = automaton.awaited := rfl
    cases ha : automaton.awaited with
    | nothing =>
      rw [Machine.step_of_nothing (hview.trans ha), ← view_pass]
      simp only [step, ha]
    | package =>
      simp only [step, Machine.step, hview, ha]
      rw [show automaton.view.outline = _ from (hpast (by rw [ha]; decide)).symm]
      rfl
    | imported =>
      simp only [step, Machine.step, hview, ha]
      rw [show automaton.view.outline = _ from (hpast (by rw [ha]; decide)).symm]
      split_ifs
      · rfl
      · exact view_addImport _ name
    | staticMember =>
      simp only [step, Machine.step, hview, ha]
      rw [show automaton.view.outline = _ from (hpast (by rw [ha]; decide)).symm]
      exact view_addImport _ name
    | typeName =>
      simp only [step, Machine.step, hview, ha]
      rw [show automaton.view.outline = _ from (hpast (by rw [ha]; decide)).symm]
      rfl

/-- **Both read the same run of tokens.** -/
theorem view_run {automaton : Automaton} (h : automaton.view.Settled) (tokens : List Token) :
    (automaton.run language page tokens).view = automaton.view.run language page tokens := by
  induction tokens generalizing automaton with
  | nil => rfl
  | cons token tokens ih =>
    have hstep : (automaton.step language page token).view =
        automaton.view.step language page token := view_step h token
    have hsettled : (automaton.step language page token).view.Settled :=
      hstep ▸ (settled_step h token).1
    rw [Machine.run_cons, ← hstep]
    exact ih hsettled

end Automaton

/-! ## 3. The whole file -/

variable {language : Language} {page : Text}

/-- Only the body of a type ends before the tokens do: that of the file leaves none. -/
theorem body_left_eq_nil {scope : Text} {depth : Nat} {outline : Outline} {tokens : List Token} :
    (body language page scope false depth outline tokens).2.val = [] := by
  generalize hn : false = nested
  fun_induction body language page scope nested depth outline tokens with
  | case1 => rfl
  | case2 scope nested depth outline token rest seen go here _ ih => exact ih depth seen.1 here hn
  | case3 scope nested depth outline token rest seen go here _ _ ih =>
    exact ih (depth + 1) seen.1 here hn
  | case4 scope nested depth outline token rest seen _ _ hend =>
    subst hn
    exact absurd hend Bool.false_ne_true
  | case5 scope nested depth outline token rest seen go here _ _ _ ih =>
    exact ih (depth - 1) seen.1 here hn
  | case6 scope nested depth outline token rest seen go _ keyword _ _ first name later _ ih =>
    exact ih depth { seen.1 with package := name } later hn
  | case7 scope nested depth outline token rest seen go here _ keyword _ _ _ ih =>
    exact ih depth seen.1 here hn
  | case8 scope nested depth outline token rest seen go _ keyword _ _ _ name later _ ih =>
    exact ih depth (seen.1.addImport (importedName name)) later hn
  | case9 scope nested depth outline token rest seen go _ keyword _ _ _ later _ ih =>
    exact ih depth seen.1 later hn
  | case10 scope nested depth outline token rest seen go _ keyword _ _ _ _ first name later _
      declared inner left hle _ ih _ =>
    exact ih depth inner ⟨left, Nat.le_trans hle later.property⟩ hn
  | case11 scope nested depth outline token rest seen go here _ keyword _ _ _ _ _ ih =>
    exact ih depth seen.1 here hn
  | case12 scope nested depth outline token rest seen go here _ keyword _ _ _ _ ih =>
    exact ih depth seen.1 here hn
  | case13 scope nested depth outline token rest seen go here _ _ _ _ ih =>
    exact ih depth seen.1 here hn

/-- **The reader is a one-pass stack automaton.** For every list of tokens the outline has the
package, the imports and the types of the automaton that takes the tokens one by one. The reader
leaves none of them, and a token that is no word is read in full where a name was awaited. -/
theorem outline_one_pass (language : Language) (page : Text) (tokens : List Token) :
    let final := (Automaton.start language).run language page tokens
    (Reader.outline language page tokens).package = final.package ∧
      (Reader.outline language page tokens).imports = final.imports ∧
      (Reader.outline language page tokens).types = final.types ∧
      (body language page [] false 0 (start language).outline tokens).2.val = [] ∧
      ∀ (automaton : Automaton) (token : Token), (∀ name, token.lexeme ≠ .word name) →
        automaton.step language page token =
          { automaton with awaited := .nothing }.step language page token := by
  intro final
  have hsettled : (Automaton.start language).view.Settled := Or.inl rfl
  have hview : final.view = (start language).run language page tokens :=
    Automaton.view_run hsettled tokens
  have houtline : Reader.outline language page tokens = final.outline := by
    rw [outline_eq_run, ← hview]
    rfl
  rw [houtline]
  refine ⟨rfl, rfl, rfl, body_left_eq_nil, fun automaton token hword => ?_⟩
  rw [Automaton.step_of_not_word _ hword, Automaton.step_of_not_word _ hword]
  rfl

/-- A keyword before a brace, and an end inside of two types: the brace is counted, and both
types are there. -/
theorem outline_one_pass_unfinished :
    let tokens : List Token := [⟨.word "class", 1⟩, ⟨.sign '{', 1⟩, ⟨.sign '}', 1⟩,
      ⟨.word "class", 2⟩, ⟨.word "A", 2⟩, ⟨.sign '{', 2⟩, ⟨.word "enum", 3⟩, ⟨.word "B", 3⟩]
    let final := (Automaton.start .java).run .java "A" tokens
    (∀ name, (⟨.sign '{', 1⟩ : Token).lexeme ≠ .word name) ∧
      final.frame = ⟨"A.B.", 0⟩ ∧ final.outer = [⟨"A.", 1⟩, ⟨"", 0⟩] ∧
      (Reader.outline .java "A" tokens).types = [⟨"A", "A", 2⟩, ⟨"A.B", "A", 3⟩] ∧
      (Automaton.start .java).step .java "A" ⟨.sign '{', 1⟩ =
        { Automaton.start .java with awaited := .nothing }.step .java "A" ⟨.sign '{', 1⟩ := by
  intro tokens final
  have hword : ∀ name, (⟨.sign '{', 1⟩ : Token).lexeme ≠ .word name := nofun
  obtain ⟨_, _, htypes, _, hstep⟩ := outline_one_pass .java "A" tokens
  exact ⟨hword, by decide, by decide, htypes.trans (by decide), hstep _ _ hword⟩

end Reader

end CodeAtlas
