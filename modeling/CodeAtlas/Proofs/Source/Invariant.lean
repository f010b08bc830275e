/-
  File:      CodeAtlas/Proofs/Source/Invariant.lean
  Subject:   What holds of the outline of every source file.

  The machine of `Proofs/Source/Machine` reads one token at a time, so that what a
  token can do is said once, and every invariant is kept by that.

  * `Machine.Effect`: all that a token does to the imports, the declarations and the
    scopes of the bodies that are open (`Machine.effect_step`).
  * `Machine.Sound`: the invariant. The lines of the declarations are taken from the
    tokens in their order, and the scope of an open body is that of the file or belongs
    to a type declared before. It is kept by a token (`Machine.Sound.step`) and by a run
    of them (`Machine.Sound.run`).
  * `SourceFile.Outlines`: the invariant of a file; `SourceFile.ofText_outlines`: it
    holds for every text.
-/
import CodeAtlas.Proofs.Source.Comments
import CodeAtlas.Proofs.Source.TextBlocks
import Mathlib.Data.List.Nodup

namespace CodeAtlas

/-! ## 1. Lines ascend -/

namespace Token

theorem le_lineAfter (line : Nat) (c : Char) : line ≤ lineAfter line c := by
  unfold lineAfter
  split_ifs <;> omega

theorem le_of_mem_scanFrom {mode : Mode} {line : Nat} {text : Text} {token : Token}
    (h : token ∈ scanFrom mode line text) : line ≤ token.line := by
  induction text generalizing mode line with
  | nil =>
    obtain ⟨lexeme, -, rfl⟩ := List.mem_map.mp h
    exact Nat.le_refl _
  | cons c text ih =>
    rcases List.mem_append.mp h with h | h
    · obtain ⟨lexeme, -, rfl⟩ := List.mem_map.mp h
      exact Nat.le_refl _
    · exact (le_lineAfter line c).trans (ih h)

/-- Tokens that are completed by one character stand on one line. -/
theorem pairwise_line_completed (line : Nat) (lexemes : List Lexeme) :
    (lexemes.map (⟨·, line⟩ : Lexeme → Token)).Pairwise fun a b => a.line ≤ b.line :=
  List.pairwise_map.mpr (List.pairwise_of_forall fun _ _ => Nat.le_refl line)

/-- **The lines of tokens ascend.** -/
theorem pairwise_line_scanFrom (mode : Mode) (line : Nat) (text : Text) :
    (scanFrom mode line text).Pairwise fun a b => a.line ≤ b.line := by
  induction text generalizing mode line with
  | nil => exact pairwise_line_completed line _
  | cons c text ih =>
    refine List.pairwise_append.mpr ⟨pairwise_line_completed line _, ih _ _, ?_⟩
    intro first hfirst later hlater
    obtain ⟨lexeme, -, rfl⟩ := List.mem_map.mp hfirst
    exact (le_lineAfter line c).trans (le_of_mem_scanFrom hlater)

end Token

/-! ## 2. What a token does -/

namespace Outline

theorem imports_notice (outline : Outline) (lexeme : Lexeme) :
    (outline.notice lexeme).1.imports = outline.imports := by
  unfold notice
  split
  · split_ifs <;> rfl
  · rfl

theorem types_addImport (outline : Outline) (name : Text) :
    (outline.addImport name).types = outline.types := by
  unfold addImport
  split_ifs <;> rfl

/-- An import that is added comes last, and only if it is not there. -/
theorem imports_addImport (outline : Outline) (name : Text) :
    (outline.addImport name).imports = outline.imports ∨
      ⟨name⟩ ∉ outline.imports ∧
        (outline.addImport name).imports = outline.imports ++ [⟨name⟩] := by
  unfold addImport
  split_ifs with hc
  · exact Or.inl rfl
  · exact Or.inr ⟨by simpa using hc, rfl⟩

end Outline

namespace Reader

variable {language : Language} {page : Text}

namespace Machine

/-- The scopes of the bodies that are open. -/
def scopes (machine : Machine) : List Text := (machine.frame :: machine.outer).map Frame.scope

/-- What a token can do to the imports, the declarations and the open bodies. -/
inductive Effect (page : Text) (machine : Machine) (token : Token) (next : Machine) : Prop where
  | keeps (himports : next.outline.imports = machine.outline.imports)
      (htypes : next.outline.types = machine.outline.types) (hscopes : next.scopes ⊆ machine.scopes)
  | imports (name : Text)
      (himports : next.outline.imports = (machine.outline.addImport name).imports)
      (htypes : next.outline.types = machine.outline.types) (hscopes : next.scopes ⊆ machine.scopes)
  /-- The token names a type in the innermost body, and opens a body for it. -/
  | declares (name : Text) (hword : token.lexeme = .word name)
      (himports : next.outline.imports = machine.outline.imports)
      (htypes : next.outline.types =
        machine.outline.types ++ [⟨machine.frame.scope ++ name, page, token.line⟩])
      (hscopes : next.scopes = (machine.frame.scope ++ name ++ ['.']) :: machine.scopes)

theorem scopes_closeBrace (machine : Machine) : machine.closeBrace.scopes ⊆ machine.scopes := by
  obtain ⟨outline, awaited, frame, outer⟩ := machine
  cases outer with
  | nil => exact List.Subset.refl _
  | cons next rest =>
    unfold closeBrace
    dsimp only
    split_ifs
    · exact List.subset_cons_self _ _
    · exact List.Subset.refl _

theorem scopes_pass (machine : Machine) (lexeme : Lexeme) :
    (machine.pass language lexeme).scopes ⊆ machine.scopes := by
  unfold pass
  dsimp only
  split_ifs
  · exact List.Subset.refl _
  · split
    · exact List.Subset.refl _
    · exact scopes_closeBrace _
    · exact List.Subset.refl _
    · exact List.Subset.refl _

/-- **All that a token does.** -/
theorem effect_step (machine : Machine) (token : Token) :
    Effect page machine token (machine.step language page token) := by
  unfold step
  split
  · exact .keeps rfl rfl (List.Subset.refl _)
  · split_ifs
    · exact .keeps rfl rfl (List.Subset.refl _)
    · exact .imports _ rfl (Outline.types_addImport _ _) (List.Subset.refl _)
  · exact .imports _ rfl (Outline.types_addImport _ _) (List.Subset.refl _)
  · rename_i name _ hword
    exact .declares name hword rfl rfl rfl
  · refine .keeps ?_ ?_ (scopes_pass machine token.lexeme)
    · rw [outline_pass, Outline.imports_notice]
    · rw [outline_pass, Outline.types_notice]

/-! ## 3. The invariant -/

/-- The name of a declaration among those before it: a word that was read on its line, alone or
behind the name of a type before it. -/
def Named (read : List Token) (before : List Declaration) (declaration : Declaration) : Prop :=
  ∃ name, ⟨.word name, declaration.line⟩ ∈ read ∧
    (declaration.name = name ∨ ∃ outer ∈ before, declaration.name = outer.name ++ '.' :: name)

theorem Named.mono {read more : List Token} {before : List Declaration} {declaration : Declaration}
    (h : Named read before declaration) (hread : read ⊆ more) : Named more before declaration := by
  obtain ⟨name, hm, hname⟩ := h
  exact ⟨name, hread hm, hname⟩

/-- What holds of the machine after it has `read` tokens, if it began with the imports
`implicit`. -/
structure Sound (implicit : List Import) (read : List Token) (machine : Machine) : Prop where
  nodup : machine.outline.imports.Nodup
  implicit_first : implicit <+: machine.outline.imports
  lines : (machine.outline.types.map Declaration.line).Sublist (read.map Token.line)
  named : ∀ before declaration after, machine.outline.types = before ++ declaration :: after →
    Named read before declaration
  /-- An open body is that of the file or of a type that is declared. -/
  scopes : ∀ scope ∈ machine.scopes,
    scope = [] ∨ ∃ declaration ∈ machine.outline.types, scope = declaration.name ++ ['.']

variable {implicit : List Import} {read : List Token} {machine : Machine}

theorem nodup_addImport {outline : Outline} (h : outline.imports.Nodup) (name : Text) :
    (outline.addImport name).imports.Nodup := by
  rcases outline.imports_addImport name with hsame | ⟨hnew, hadded⟩
  · rwa [hsame]
  · rw [hadded]
    refine List.nodup_append.mpr ⟨h, List.nodup_singleton _, fun spec hold added hm => ?_⟩
    rintro rfl
    exact hnew (List.mem_singleton.mp hm ▸ hold)

theorem prefix_addImport (outline : Outline) (name : Text) :
    outline.imports <+: (outline.addImport name).imports := by
  rcases outline.imports_addImport name with hsame | ⟨-, hadded⟩
  · rw [hsame]
  · rw [hadded]
    exact List.prefix_append _ _

/-- A token that declares nothing keeps what holds of declarations and open bodies. -/
theorem Sound.keep (h : Sound implicit read machine) (token : Token) {next : Machine}
    (hnodup : next.outline.imports.Nodup)
    (hfirst : machine.outline.imports <+: next.outline.imports)
    (htypes : next.outline.types = machine.outline.types) (hscopes : next.scopes ⊆ machine.scopes) :
    Sound implicit (read ++ [token]) next where
  nodup := hnodup
  implicit_first := h.implicit_first.trans hfirst
  lines := by
    rw [htypes, List.map_append]
    exact h.lines.trans (List.sublist_append_left _ _)
  named before declaration after hsplit := by
    rw [htypes] at hsplit
    exact (h.named before declaration after hsplit).mono (List.subset_append_left _ _)
  scopes scope hm := by
    rw [htypes]
    exact h.scopes scope (hscopes hm)

/-- A declaration in the innermost body keeps the invariant. -/
theorem Sound.declare (h : Sound implicit read machine) {token : Token} {name : Text}
    (hword : token.lexeme = .word name) {next : Machine}
    (himports : next.outline.imports = machine.outline.imports)
    (htypes : next.outline.types =
      machine.outline.types ++ [⟨machine.frame.scope ++ name, page, token.line⟩])
    (hscopes : next.scopes = (machine.frame.scope ++ name ++ ['.']) :: machine.scopes) :
    Sound implicit (read ++ [token]) next where
  nodup := himports ▸ h.nodup
  implicit_first := himports ▸ h.implicit_first
  lines := by
    rw [htypes, List.map_append, List.map_append]
    exact h.lines.append (List.Sublist.refl _)
  named before declaration after hsplit := by
    rw [htypes] at hsplit
    rcases List.eq_nil_or_concat after with rfl | ⟨more, last, rfl⟩
    · obtain ⟨rfl, hlast⟩ := List.append_inj' hsplit rfl
      obtain rfl := List.singleton_inj.mp hlast
      have hread : ⟨.word name, token.line⟩ ∈ read ++ [token] :=
        hword ▸ List.mem_append_right read List.mem_cons_self
      refine ⟨name, hread, ?_⟩
      rcases h.scopes machine.frame.scope List.mem_cons_self with hfile | ⟨outer, hm, hscope⟩
      · exact Or.inl (by simp [hfile])
      · exact Or.inr ⟨outer, hm, by simp [hscope]⟩
    · have hold : machine.outline.types = before ++ declaration :: more := by
        rw [List.concat_eq_append, ← List.cons_append, ← List.append_assoc] at hsplit
        exact (List.append_inj' hsplit rfl).1
      exact (h.named before declaration more hold).mono (List.subset_append_left _ _)
  scopes scope hm := by
    rw [hscopes] at hm
    rw [htypes]
    rcases List.mem_cons.mp hm with rfl | hm
    · exact Or.inr ⟨_, List.mem_append_right _ List.mem_cons_self, rfl⟩
    · rcases h.scopes scope hm with hfile | ⟨outer, houter, hscope⟩
      · exact Or.inl hfile
      · exact Or.inr ⟨outer, List.mem_append_left _ houter, hscope⟩

/-- **A token keeps the invariant.** -/
theorem Sound.step (h : Sound implicit read machine) (token : Token) :
    Sound implicit (read ++ [token]) (machine.step language page token) := by
  cases @effect_step language page machine token with
  | keeps himports htypes hscopes =>
    exact h.keep token (himports ▸ h.nodup) (himports ▸ List.prefix_rfl) htypes hscopes
  | imports name himports htypes hscopes =>
    refine h.keep token ?_ ?_ htypes hscopes
    · rw [himports]
      exact nodup_addImport h.nodup name
    · rw [himports]
      exact prefix_addImport _ _
  | declares name hword himports htypes hscopes => exact h.declare hword himports htypes hscopes

/-- **A run keeps the invariant.** -/
theorem Sound.run (h : Sound implicit read machine) (tokens : List Token) :
    Sound implicit (read ++ tokens) (machine.run language page tokens) := by
  induction tokens generalizing read machine with
  | nil => rwa [List.append_nil]
  | cons token tokens ih =>
    have hstep := ih (@Sound.step language page _ _ _ h token)
    rwa [List.append_assoc] at hstep

end Machine

/-- The machine begins with the imports that need not be written. -/
theorem sound_start (h : language.implicitImports.Nodup) :
    Machine.Sound (language.implicitImports.map (⟨·⟩)) [] (start language) where
  nodup := List.Nodup.map (fun _ _ e => congrArg Import.name e) h
  implicit_first := List.prefix_rfl
  lines := List.Sublist.refl _
  named before declaration after hsplit := absurd hsplit (by simp [start])
  scopes scope hm := Or.inl (List.mem_singleton.mp hm)

end Reader

/-! ## 4. Source files -/

namespace SourceFile

open Reader

/-- What holds of the outline of a text in the file at `path`. -/
structure Outlines (source : SourceFile) (text : Text) (path : Path) (language : Language) :
    Prop where
  imports_nodup : source.imports.Nodup
  implicit_first : language.implicitImports.map (⟨·⟩) <+: source.imports
  page_eq : ∀ declaration ∈ source.types, declaration.page = language.pageName path.name
  lines_ascend : (source.types.map Declaration.line).Pairwise (· ≤ ·)
  line_bounds : ∀ declaration ∈ source.types,
    1 ≤ declaration.line ∧ declaration.line ≤ (splitLines text).length
  /-- A type is named by a word of the text, alone or behind the name of a type before it. -/
  named : ∀ before declaration after, source.types = before ++ declaration :: after →
    ∃ name, ⟨.word name, declaration.line⟩ ∈ Token.scan text ∧
      (declaration.name = name ∨ ∃ outer ∈ before, declaration.name = outer.name ++ '.' :: name)

/-- **The outline of every text has its invariant**, if no import is implicit twice. -/
theorem ofText_outlines (text : Text) (path : Path) {language : Language} (encoding : Option Text)
    (h : language.implicitImports.Nodup) :
    (ofText text path language encoding).Outlines text path language := by
  have hsound : Machine.Sound (language.implicitImports.map (⟨·⟩)) (Token.scan text)
      ((start language).run language (language.pageName path.name) (Token.scan text)) :=
    (sound_start h).run (Token.scan text)
  have houtline := outline_eq_run language (language.pageName path.name) (Token.scan text)
  have hlines : ((Token.scan text).map Token.line).Pairwise (· ≤ ·) :=
    List.pairwise_map.mpr (Token.pairwise_line_scanFrom .between 1 text)
  refine ⟨?_, ?_, fun _ hm => (declared_ofText hm).page_eq, ?_, fun _ hm => line_ofText hm, ?_⟩
  · exact (congrArg (·.imports.Nodup) houtline).mpr hsound.nodup
  · exact (congrArg (_ <+: ·.imports) houtline).mpr hsound.implicit_first
  · exact (congrArg (fun o => (o.types.map Declaration.line).Pairwise (· ≤ ·)) houtline).mpr
      (hlines.sublist hsound.lines)
  · intro before declaration after hsplit
    exact hsound.named before declaration after
      ((congrArg Outline.types houtline).symm.trans hsplit)

/-- Line breaks of each kind, a brace without its partner, an import written twice, and a literal,
a body and a comment without an end. -/
def unbalancedText : Text :=
  "import java.lang.*;\r\nimport a.B; import a.B;\r\x7d class A \x7b \"class X\n".toList ++
    "\x7b class B \x7b\rclass C \x7d \x7d enum D /* \n class Y".toList

theorem ofText_outlines_unbalanced :
    let source := ofText unbalancedText ⟨.relative, ["src", "A.java"]⟩ .java none
    source.imports = [⟨"java.lang.*"⟩, ⟨"a.B"⟩] ∧
      source.types = [⟨"A", "A", 2⟩, ⟨"A.B", "A", 3⟩, ⟨"A.B.C", "A", 3⟩, ⟨"A.D", "A", 3⟩] ∧
      source.Outlines unbalancedText ⟨.relative, ["src", "A.java"]⟩ .java :=
  ⟨by decide +kernel, by decide +kernel, ofText_outlines _ _ none (by decide)⟩

end SourceFile

end CodeAtlas
