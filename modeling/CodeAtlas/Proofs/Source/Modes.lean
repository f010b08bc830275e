/-
  File:      CodeAtlas/Proofs/Source/Modes.lean
  Subject:   The scanner between two parts of a text.

  * `Mode.after`, `Mode.lexemes`: the mode after a text, and all lexemes of it.
  * `Mode.lexemes_append_cons`: a character that completes what was being read
    separates the lexemes before it from those after it. A line feed does so
    outside of block comments, and a double quote outside of comments and literals.
  * `Mode.calm`: nothing is being read that a comment or a literal could be part of.
  * `Token.exists_mode_of_mem_scan`: where a word was read, the scanner was in the
    mode of that word.
-/
import CodeAtlas.Proofs.Source.Words

namespace CodeAtlas

namespace Mode

/-! ## 1. The mode after a text -/

/-- The mode after a text. -/
def after (mode : Mode) (text : Text) : Mode := text.foldl (fun mode c => (mode.read c).2) mode

theorem after_nil (mode : Mode) : mode.after [] = mode := rfl

theorem after_cons (mode : Mode) (c : Char) (text : Text) :
    mode.after (c :: text) = (mode.read c).2.after text := rfl

theorem after_append (mode : Mode) (a b : Text) : mode.after (a ++ b) = (mode.after a).after b :=
  List.foldl_append

/-- Inside a block comment. -/
def inBlock : Mode → Bool
  | .blockComment _ => true
  | _ => false

/-- Outside of comments and literals. -/
def outside : Mode → Bool
  | .literal _ _ | .escape _ _ | .lineComment | .blockComment _ => false
  | _ => true

/-- The lexemes of a text that is read from `mode` on, those that its end completes among them. -/
def lexemes : Mode → Text → List Lexeme
  | mode, [] => mode.rest
  | mode, c :: text => (mode.read c).1 ++ lexemes (mode.read c).2 text

theorem lexemes_nil (mode : Mode) : mode.lexemes [] = mode.rest := rfl

theorem lexemes_cons (mode : Mode) (c : Char) (text : Text) :
    mode.lexemes (c :: text) = (mode.read c).1 ++ (mode.read c).2.lexemes text := rfl

theorem lexemes_scanFrom (mode : Mode) (line : Nat) (text : Text) :
    (Token.scanFrom mode line text).map Token.lexeme = mode.lexemes text := by
  induction text generalizing mode line with
  | nil => simp [Token.scanFrom, lexemes_nil, Function.comp_def]
  | cons c text ih => simp [Token.scanFrom, lexemes_cons, Function.comp_def, ih]

/-! ## 2. Characters between lexemes -/

/-- **A character that completes what was being read** separates the lexemes before it from those
after it. -/
theorem lexemes_append_cons {mode next : Mode} {a : Text} {c : Char}
    (h : (mode.after a).read c = ((mode.after a).rest, next)) (b : Text) :
    mode.lexemes (a ++ c :: b) = mode.lexemes a ++ next.lexemes b := by
  induction a generalizing mode with
  | nil =>
    rw [after_nil] at h
    rw [List.nil_append, lexemes_cons, h, lexemes_nil]
  | cons d a ih => rw [List.cons_append, lexemes_cons, lexemes_cons, ih h, List.append_assoc]

/-- Nothing is being read that a comment or a literal could be part of. -/
def calm : Mode → Bool
  | .between | .word _ | .number | .dot => true
  | _ => false

/-- A character that a word or a number may go on with. -/
def isPart (c : Char) : Bool := isWordPart c || isNumberPart c

/-- In a calm mode a character begins something new, or goes on with what is being read. -/
theorem read_calm {mode : Mode} (h : mode.calm = true) (c : Char) :
    mode.read c = mode.restart c ∨
      isPart c = true ∧ (mode.read c).1 = [] ∧ (mode.read c).2.calm = true := by
  cases mode with
  | between => exact Or.inl rfl
  | word name =>
    simp only [read]
    split_ifs with hc
    · exact Or.inr ⟨by simp [isPart, hc], rfl, rfl⟩
    · exact Or.inl rfl
  | number =>
    simp only [read]
    split_ifs with hc
    · exact Or.inr ⟨by simp [isPart, hc], rfl, rfl⟩
    · exact Or.inl rfl
  | dot =>
    simp only [read]
    split_ifs with hc
    · exact Or.inr ⟨by simp [isPart, isNumberPart, hc], rfl, rfl⟩
    · exact Or.inl rfl
  | slash | literal | escape | lineComment | blockComment => cases h

theorem read_calm_of_not_part {mode : Mode} (h : mode.calm = true) {c : Char}
    (hc : isPart c = false) : mode.read c = mode.restart c := by
  rcases read_calm h c with hrestart | ⟨hpart, -⟩
  · exact hrestart
  · rw [hc] at hpart
    cases hpart

/-- A line feed ends everything but a block comment. -/
theorem read_newline {mode : Mode} (h : mode.inBlock = false) :
    mode.read '\n' = (mode.rest, .between) := by
  have hrestart : mode.restart '\n' = (mode.rest, .between) := by
    have hstart : start '\n' = ([], .between) := by decide
    simp [restart, hstart]
  by_cases hcalm : mode.calm = true
  · rw [read_calm_of_not_part hcalm (by decide), hrestart]
  · cases mode with
    | slash => exact hrestart
    | literal quote body => simp [read]
    | escape quote body => rfl
    | lineComment => rfl
    | blockComment star => cases h
    | between | word | number | dot => exact absurd rfl hcalm

/-- A double quote outside of comments and literals begins a literal. -/
theorem read_quote {mode : Mode} (h : mode.outside = true) :
    mode.read '"' = (mode.rest, .literal '"' []) := by
  have hrestart : mode.restart '"' = (mode.rest, .literal '"' []) := by
    have hstart : start '"' = ([], .literal '"' []) := by decide
    simp [restart, hstart]
  by_cases hcalm : mode.calm = true
  · rw [read_calm_of_not_part hcalm (by decide), hrestart]
  · cases mode with
    | slash => exact hrestart
    | literal | escape | lineComment | blockComment => cases h
    | between | word | number | dot => exact absurd rfl hcalm

end Mode

/-! ## 3. Where words are read -/

namespace Token

/-- A word that is still to be read is read in its own mode. -/
theorem exists_mode_of_mem_scanFrom {mode : Mode} (h : mode.Sound) {line n : Nat}
    {text name : Text} (hm : (⟨.word name, n⟩ : Token) ∈ scanFrom mode line text) :
    ∃ before after, text = before ++ after ∧ mode.after before = .word name ∧
      n = line + before.count '\n' := by
  induction text generalizing mode line with
  | nil =>
    obtain ⟨lexeme, hl, e⟩ := List.mem_map.mp hm
    cases e
    exact ⟨[], [], rfl, Mode.pending_of_mem_rest hl, rfl⟩
  | cons c text ih =>
    obtain ⟨hsound, hreads⟩ := Mode.reads_read h c
    rcases List.mem_append.mp hm with hm | hm
    · obtain ⟨lexeme, hl, e⟩ := List.mem_map.mp hm
      cases e
      cases hreads with
      | part hwords _ _ => exact absurd hl (hwords name)
      | done hwords _ => exact ⟨[], c :: text, rfl, hwords name hl, rfl⟩
    · obtain ⟨before, after, rfl, hmode, rfl⟩ := ih hsound hm
      refine ⟨c :: before, after, rfl, hmode, ?_⟩
      rw [List.count_cons]
      unfold lineAfter
      split_ifs <;> omega

/-- **At some point of its line the scanner is in the mode of a word that it gives.** -/
theorem exists_mode_of_mem_scan {text name : Text} {line : Nat}
    (h : (⟨.word name, line⟩ : Token) ∈ scan text) :
    ∃ before after, text = before ++ after ∧ Mode.between.after before = .word name ∧
      line = 1 + before.count '\n' := by
  have hmode : Mode.between.Sound := trivial
  exact exists_mode_of_mem_scanFrom hmode h

end Token

end CodeAtlas
