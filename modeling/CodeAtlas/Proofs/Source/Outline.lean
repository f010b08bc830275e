/-
  File:      CodeAtlas/Proofs/Source/Outline.lean
  Subject:   What the reader can put into an outline, and what follows for a file.

  * `Reader.Steps`: a property of outlines that every single step of the reader
    keeps. The steps are named once; `Reader.body_keeps` is the induction over
    the nested bodies, and every invariant of an outline is a use of it.
  * `Declared`: a declaration of a text: its name is a word on its line, after
    the names of enclosing types, and its page is that of the file.
  * `SourceFile.declared_ofText`: all declarations of a file are such.
-/
import CodeAtlas.Proofs.Source.Words
import CodeAtlas.Source.Reader

namespace CodeAtlas

namespace Reader

/-! ## 1. The tokens that are left -/

theorem word?_spec {tokens : List Token} {token : Token} {name : Text} {later : Rest tokens}
    (h : word? tokens = some (token, name, later)) :
    token.lexeme = .word name ∧ tokens = token :: later.val := by
  unfold word? at h
  split at h
  · cases h
    exact ⟨rfl, rfl⟩
  · exact nomatch h

theorem word?_suffix {tokens : List Token} {token : Token} {name : Text} {later : Rest tokens}
    (h : word? tokens = some (token, name, later)) : later.val <:+ tokens :=
  ⟨[token], (word?_spec h).2.symm⟩

theorem importName?_suffix (tokens : List Token) : (importName? tokens).2.val <:+ tokens := by
  unfold importName?
  split
  · exact List.suffix_refl tokens
  · rename_i hfirst
    split
    · split
      · exact word?_suffix hfirst
      · rename_i hsecond
        exact (word?_suffix hsecond).trans (word?_suffix hfirst)
    · exact word?_suffix hfirst

/-! ## 2. One step, and a whole body -/

/-- `P` is kept by every step that reads tokens which satisfy `T`, in a scope that satisfies `S`. -/
structure Steps (T : Token → Prop) (S : Text → Prop) (page : Text) (P : Outline → Prop) : Prop where
  notice : ∀ outline lexeme, P outline → P (outline.notice lexeme).1
  package : ∀ outline token name, T token → token.lexeme = .word name → P outline →
    P { outline with package := name }
  imports : ∀ outline name, P outline → P (outline.addImport name)
  types : ∀ outline scope token name, T token → token.lexeme = .word name → S scope → P outline →
    P (outline.addType ⟨scope ++ name, page, token.line⟩)
  scope : ∀ scope token name, T token → token.lexeme = .word name → S scope →
    S (scope ++ name ++ ['.'])

/-- **What every step keeps, a body keeps**, with all the bodies nested in it; and the tokens that
are left are tokens that were given. -/
theorem body_keeps {T : Token → Prop} {S : Text → Prop} {P : Outline → Prop} {language : Language}
    {page : Text} (h : Steps T S page P) {scope : Text} (nested : Bool) (depth : Nat)
    {outline : Outline} {tokens : List Token} (hs : S scope) (ho : P outline)
    (ht : ∀ token ∈ tokens, T token) :
    P (body language page scope nested depth outline tokens).1 ∧
      ∀ token ∈ (body language page scope nested depth outline tokens).2.val, T token := by
  have hword : ∀ {tokens : List Token} {token : Token} {name : Text} {later : Rest tokens},
      word? tokens = some (token, name, later) → (∀ t ∈ tokens, T t) →
        T token ∧ token.lexeme = .word name ∧ ∀ t ∈ later.val, T t := by
    intro tokens token name later hw hall
    obtain ⟨hlex, e⟩ := word?_spec hw
    rw [e] at hall
    exact ⟨hall token List.mem_cons_self, hlex, fun t hm => hall t (List.mem_cons_of_mem token hm)⟩
  fun_induction body language page scope nested depth outline tokens with
  | case1 => exact ⟨ho, ht⟩
  | case2 scope nested depth outline token rest seen go here _ ih =>
    exact ih depth seen.1 here hs (h.notice _ _ ho) fun t hm => ht t (List.mem_cons_of_mem token hm)
  | case3 scope nested depth outline token rest seen go here _ _ ih =>
    exact ih (depth + 1) seen.1 here hs (h.notice _ _ ho)
      fun t hm => ht t (List.mem_cons_of_mem token hm)
  | case4 scope nested depth outline token rest seen _ _ _ _ =>
    exact ⟨h.notice _ _ ho, fun t hm => ht t (List.mem_cons_of_mem token hm)⟩
  | case5 scope nested depth outline token rest seen go here _ _ _ ih =>
    exact ih (depth - 1) seen.1 here hs (h.notice _ _ ho)
      fun t hm => ht t (List.mem_cons_of_mem token hm)
  | case6 scope nested depth outline token rest seen go _ keyword _ _ first name later hw ih =>
    obtain ⟨hT, hlex, hlater⟩ := hword hw fun t hm => ht t (List.mem_cons_of_mem token hm)
    exact ih depth { seen.1 with package := name } later hs
      (h.package _ first name hT hlex (h.notice _ _ ho)) hlater
  | case7 scope nested depth outline token rest seen go here _ keyword _ _ _ ih =>
    exact ih depth seen.1 here hs (h.notice _ _ ho) fun t hm => ht t (List.mem_cons_of_mem token hm)
  | case8 scope nested depth outline token rest seen go _ keyword _ _ _ name later hi ih =>
    have hsuffix := importName?_suffix rest
    rw [hi] at hsuffix
    exact ih depth (seen.1.addImport (importedName name)) later hs
      (h.imports _ _ (h.notice _ _ ho))
      fun t hm => ht t (List.mem_cons_of_mem token (hsuffix.subset hm))
  | case9 scope nested depth outline token rest seen go _ keyword _ _ _ later hi ih =>
    have hsuffix := importName?_suffix rest
    rw [hi] at hsuffix
    exact ih depth seen.1 later hs (h.notice _ _ ho)
      fun t hm => ht t (List.mem_cons_of_mem token (hsuffix.subset hm))
  | case10 scope nested depth outline token rest seen go _ keyword _ _ _ _ first name later hw
      declared inner left hle hbody ih ihInner =>
    obtain ⟨hT, hlex, hlater⟩ := hword hw fun t hm => ht t (List.mem_cons_of_mem token hm)
    -- the nested body first, then what follows it
    have hinner := ihInner (h.scope scope first name hT hlex hs)
      (h.types _ scope first name hT hlex hs (h.notice _ _ ho)) hlater
    rw [hbody] at hinner
    exact ih depth inner ⟨left, Nat.le_trans hle later.property⟩ hs hinner.1 hinner.2
  | case11 scope nested depth outline token rest seen go here _ keyword _ _ _ _ _ ih =>
    exact ih depth seen.1 here hs (h.notice _ _ ho) fun t hm => ht t (List.mem_cons_of_mem token hm)
  | case12 scope nested depth outline token rest seen go here _ keyword _ _ _ _ ih =>
    exact ih depth seen.1 here hs (h.notice _ _ ho) fun t hm => ht t (List.mem_cons_of_mem token hm)
  | case13 scope nested depth outline token rest seen go here _ _ _ _ ih =>
    exact ih depth seen.1 here hs (h.notice _ _ ho) fun t hm => ht t (List.mem_cons_of_mem token hm)

end Reader

/-! ## 3. Declarations -/

/-- A declaration of a text: a word on its line, after the names of enclosing types. -/
structure Declared (text page : Text) (declaration : Declaration) : Prop where
  page_eq : declaration.page = page
  isWord : IsWord declaration.name
  stands : ∃ scope name, declaration.name = scope ++ name ∧ Stands text name declaration.line

/-- What an outline of a text holds. -/
structure Outline.Sound (text page : Text) (outline : Outline) : Prop where
  types : ∀ declaration ∈ outline.types, Declared text page declaration
  package : outline.package = [] ∨ IsWord outline.package

namespace Reader

/-- The token stands in the text, if it is a word. -/
def StandsIn (text : Text) (token : Token) : Prop :=
  ∀ name, token.lexeme = .word name → Stands text name token.line

theorem standsIn_of_mem_scan {text : Text} {token : Token} (h : token ∈ Token.scan text) :
    StandsIn text token := by
  intro name hlex
  obtain ⟨lexeme, line⟩ := token
  cases hlex
  exact Token.scan_word h

/-- The names of the enclosing types are made of parts of words. -/
def ScopeParts (scope : Text) : Prop := ∀ c ∈ scope, isWordPart c = true

theorem steps_sound (text page : Text) :
    Steps (StandsIn text) ScopeParts page (Outline.Sound text page) where
  notice outline lexeme h := by
    have hkeep : (outline.notice lexeme).1.types = outline.types ∧
        (outline.notice lexeme).1.package = outline.package := by
      unfold Outline.notice
      split
      · split_ifs <;> exact ⟨rfl, rfl⟩
      · exact ⟨rfl, rfl⟩
    exact ⟨hkeep.1 ▸ h.types, hkeep.2 ▸ h.package⟩
  package outline token name ht hlex h := ⟨h.types, Or.inr (ht name hlex).1⟩
  imports outline name h := by
    unfold Outline.addImport
    split_ifs
    · exact h
    · exact ⟨h.types, h.package⟩
  types outline scope token name ht hlex hs h := by
    have hword : IsWord name := (ht name hlex).1
    refine ⟨fun declaration hm => ?_, h.package⟩
    rcases List.mem_append.mp hm with hm | hm
    · exact h.types declaration hm
    · rw [List.mem_singleton.mp hm]
      refine ⟨rfl, ⟨List.append_ne_nil_of_right_ne_nil _ hword.1, fun c hc => ?_⟩,
        scope, name, rfl, ht name hlex⟩
      exact (List.mem_append.mp hc).elim (hs c) (hword.2 c)
  scope scope token name ht hlex hs := by
    intro c hc
    rcases List.mem_append.mp hc with hc | hc
    · exact (List.mem_append.mp hc).elim (hs c) ((ht name hlex).1.2 c)
    · rw [List.mem_singleton.mp hc]
      decide

theorem sound_outline (language : Language) (text page : Text) :
    (outline language page (Token.scan text)).Sound text page := by
  refine (body_keeps (steps_sound text page) false 0 ?_ ?_ ?_).1
  · exact fun c hc => absurd hc List.not_mem_nil
  · exact ⟨fun d hd => absurd hd List.not_mem_nil, Or.inl rfl⟩
  · exact fun token hm => standsIn_of_mem_scan hm

end Reader

namespace SourceFile

variable {text : Text} {path : Path} {language : Language} {encoding : Option Text}

/-- **Every declaration of a file stands in its text**, and names the page of the file. -/
theorem declared_ofText {declaration : Declaration}
    (h : declaration ∈ (ofText text path language encoding).types) :
    Declared text (ofText text path language encoding).page declaration :=
  (Reader.sound_outline language text _).types declaration h

/-- The package of a file is empty or a word. -/
theorem package_ofText (text : Text) (path : Path) (language : Language)
    (encoding : Option Text) :
    (ofText text path language encoding).package = [] ∨
      IsWord (ofText text path language encoding).package :=
  (Reader.sound_outline language text _).package

/-- The line of a declaration is one of the lines of the file. -/
theorem line_ofText {declaration : Declaration}
    (h : declaration ∈ (ofText text path language encoding).types) :
    1 ≤ declaration.line ∧ declaration.line ≤ (splitLines text).length := by
  obtain ⟨_, _, _, hstands⟩ := (declared_ofText h).stands
  exact hstands.line_le

end SourceFile

end CodeAtlas
