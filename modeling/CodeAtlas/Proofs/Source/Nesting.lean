/-
  File:      CodeAtlas/Proofs/Source/Nesting.lean
  Subject:   Declarations inside declarations come out in preorder.

  * `Code`: source code as a sequence of items: tokens that are passed over,
    blocks in braces, and declarations with a body in braces, each of which holds
    a sequence of items again.
  * `Code.tokens`, `Code.declarations`: its tokens, and its declarations in the
    order in which their names stand, under the names of the types around them.
  * `run_tokens`: the machine reads a sequence of items and is in the same body
    afterwards, with the declarations added. `types_preorder` is the case of a
    whole file.
-/
import CodeAtlas.Proofs.Source.Machine

namespace CodeAtlas

/-! ## 1. Code in braces -/

/-- A token that the reader passes over. -/
abbrev Filler (language : Language) := { token : Token // IsFiller language token.lexeme }

/-- A word after which a type is named. -/
abbrev TypeKeyword (language : Language) :=
  { word : Text // word ∈ language.typeKeywords ∧ word ≠ "package".toList ∧ word ≠ "import".toList }

/-- A sequence of items of source code. Each constructor puts one item before the others; a token
is given by what is not fixed of it, such as the line of a brace. -/
inductive Code (language : Language) where
  | done
  | filler (token : Filler language) (rest : Code language)
  /-- Items in braces. -/
  | block (opened : Nat) (inside : Code language) (closed : Nat) (rest : Code language)
  /-- A type: its keyword, its name and the line of each, then its head, and its items in braces. -/
  | type (keyword : TypeKeyword language) (announced : Nat) (name : Text) (line : Nat)
      (head : List (Filler language)) (opened : Nat) (inside : Code language) (closed : Nat)
      (rest : Code language)

namespace Code

variable {language : Language}

/-- The tokens of some code. -/
def tokens : Code language → List Token
  | done => []
  | filler token rest => token.val :: rest.tokens
  | block opened inside closed rest =>
    ⟨.sign '{', opened⟩ :: (inside.tokens ++ ⟨.sign '}', closed⟩ :: rest.tokens)
  | type keyword announced name line head opened inside closed rest =>
    ⟨.word keyword.val, announced⟩ :: ⟨.word name, line⟩ ::
      (head.map Subtype.val ++
        ⟨.sign '{', opened⟩ :: (inside.tokens ++ ⟨.sign '}', closed⟩ :: rest.tokens))

/-- The declarations of some code inside the types `around`: a type before the types inside it,
and these before the types after it. -/
def declarations (page : Text) (around : List Text) : Code language → List Declaration
  | done => []
  | filler _ rest => rest.declarations page around
  | block _ inside _ rest => inside.declarations page around ++ rest.declarations page around
  | type _ _ name line _ _ inside _ rest =>
    ⟨Text.join ['.'] (around ++ [name]), page, line⟩ ::
      (inside.declarations page (around ++ [name]) ++ rest.declarations page around)

end Code

/-- The names of the types around a declaration, each with a dot after it. -/
def scopeOf (around : List Text) : Text := around.flatMap (· ++ ['.'])

theorem scopeOf_concat (around : List Text) (name : Text) :
    scopeOf (around ++ [name]) = scopeOf around ++ name ++ ['.'] := by
  simp [scopeOf]

theorem scopeOf_append (around : List Text) (name : Text) :
    scopeOf around ++ name = Text.join ['.'] (around ++ [name]) := by
  unfold Text.join
  induction around with
  | nil => simp [scopeOf]
  | cons first around ih =>
    have hne : around ++ [name] ≠ [] := by simp
    obtain ⟨next, others, e⟩ := List.exists_cons_of_ne_nil hne
    rw [List.cons_append, e, List.intercalate_cons_cons, ← e, ← ih]
    simp [scopeOf]

/-! ## 2. Reading it -/

namespace Reader

open Machine

variable {language : Language} {page : Text}

/-- Adds declarations at the end of an outline. -/
def addTypes (outline : Outline) (declarations : List Declaration) : Outline :=
  { outline with types := outline.types ++ declarations }

theorem Awaited.after_typeKeyword (keyword : TypeKeyword language) :
    Awaited.after language keyword.val = .typeName := by
  obtain ⟨word, hmem, h1, h2⟩ := keyword
  have hp : (word == "package".toList) = false := beq_eq_false_iff_ne.mpr h1
  have hi : (word == "import".toList) = false := beq_eq_false_iff_ne.mpr h2
  have ht : language.typeKeywords.contains word = true := by simpa using hmem
  simp only [Awaited.after, hp, hi, ht, Bool.false_eq_true, if_false, if_true]

theorem addTypes_addTypes (outline : Outline) (a b : List Declaration) :
    addTypes (addTypes outline a) b = addTypes outline (a ++ b) := by
  simp [addTypes]

theorem plain_addTypes {outline : Outline} (h : outline.Plain) (declarations : List Declaration) :
    (addTypes outline declarations).Plain := ⟨h.outside, h.fresh⟩

/-- Items in braces, read in a body: the braces cancel out. -/
theorem run_braces {around : List Text} {outline : Outline} {declarations : List Declaration}
    (h : outline.Plain) {depth : Nat} {outer : List Frame} (hdepth : outer ≠ [] → 1 ≤ depth)
    (opened closed : Nat) {inside : List Token}
    (hinside : run language page ⟨outline, .nothing, ⟨scopeOf around, depth + 1⟩, outer⟩ inside =
      ⟨addTypes outline declarations, .nothing, ⟨scopeOf around, depth + 1⟩, outer⟩) :
    run language page ⟨outline, .nothing, ⟨scopeOf around, depth⟩, outer⟩
        (⟨.sign '{', opened⟩ :: (inside ++ [⟨.sign '}', closed⟩])) =
      ⟨addTypes outline declarations, .nothing, ⟨scopeOf around, depth⟩, outer⟩ := by
  rw [run_cons, step_open h, run_append, hinside, run_cons, step_close (plain_addTypes h _), run_nil]
  cases outer with
  | nil => rfl
  | cons frame outer =>
    have hopen : ¬ depth + 1 ≤ 1 := by
      have := hdepth (List.cons_ne_nil _ _)
      omega
    simp only [closeBrace, hopen, if_false, Nat.add_sub_cancel]

/-- Items in braces after the head of a type: the closing brace ends the body of the type. -/
theorem run_typeBody {around : List Text} {outline : Outline} {declarations : List Declaration}
    (h : outline.Plain) (frame : Frame) (outer : List Frame) (head : List (Filler language))
    (opened closed : Nat) {inside : List Token}
    (hinside : run language page ⟨outline, .nothing, ⟨scopeOf around, 1⟩, frame :: outer⟩ inside =
      ⟨addTypes outline declarations, .nothing, ⟨scopeOf around, 1⟩, frame :: outer⟩) :
    run language page ⟨outline, .nothing, ⟨scopeOf around, 0⟩, frame :: outer⟩
        (head.map Subtype.val ++ ⟨.sign '{', opened⟩ :: (inside ++ [⟨.sign '}', closed⟩])) =
      ⟨addTypes outline declarations, .nothing, frame, outer⟩ := by
  have hhead : ∀ token ∈ head.map Subtype.val, IsFiller language token.lexeme := by
    intro token hm
    obtain ⟨filler, _, rfl⟩ := List.mem_map.mp hm
    exact filler.property
  rw [run_append, run_fillers h _ _ hhead, run_cons, step_open h, run_append, hinside, run_cons,
    step_close (plain_addTypes h _), run_nil]
  rfl

/-- **Reading some code.** It leaves the machine in the body in which it found it, with the
declarations of the code added in preorder. -/
theorem run_tokens (code : Code language) (around : List Text) {outline : Outline}
    (h : outline.Plain) {depth : Nat} {outer : List Frame} (hdepth : outer ≠ [] → 1 ≤ depth) :
    run language page ⟨outline, .nothing, ⟨scopeOf around, depth⟩, outer⟩ code.tokens =
      ⟨addTypes outline (code.declarations page around), .nothing, ⟨scopeOf around, depth⟩,
        outer⟩ := by
  induction code generalizing around outline depth outer with
  | done => simp [Code.tokens, Code.declarations, addTypes, run_nil]
  | filler token rest ih =>
    rw [Code.tokens, run_cons, step_filler h _ _ token.property]
    exact ih around h hdepth
  | block opened inside closed rest ihInside ihRest =>
    have hsplit : (Code.block opened inside closed rest).tokens =
        (⟨.sign '{', opened⟩ :: (inside.tokens ++ [⟨.sign '}', closed⟩])) ++ rest.tokens := by
      simp [Code.tokens]
    rw [hsplit, run_append,
      run_braces h hdepth opened closed (ihInside around h fun _ => Nat.le_add_left 1 depth),
      ihRest around (plain_addTypes h _) hdepth, addTypes_addTypes]
    rfl
  | type keyword announced name line head opened inside closed rest ihInside ihRest =>
    have hsplit : (Code.type keyword announced name line head opened inside closed rest).tokens =
        [⟨.word keyword.val, announced⟩, ⟨.word name, line⟩] ++
          ((head.map Subtype.val ++
            ⟨.sign '{', opened⟩ :: (inside.tokens ++ [⟨.sign '}', closed⟩])) ++ rest.tokens) := by
      simp [Code.tokens]
    -- the keyword and the name open the body of the type
    have hannounced : run language page ⟨outline, .nothing, ⟨scopeOf around, depth⟩, outer⟩
        [⟨.word keyword.val, announced⟩, ⟨.word name, line⟩] =
        ⟨addTypes outline [⟨Text.join ['.'] (around ++ [name]), page, line⟩], .nothing,
          ⟨scopeOf (around ++ [name]), 0⟩, ⟨scopeOf around, depth⟩ :: outer⟩ := by
      rw [run_cons, step_word h, Awaited.after_typeKeyword, run_cons, run_nil, scopeOf_concat,
        ← scopeOf_append]
      rfl
    have hnamed := plain_addTypes h [⟨Text.join ['.'] (around ++ [name]), page, line⟩]
    have hbody := run_typeBody hnamed ⟨scopeOf around, depth⟩ outer head opened closed
      (ihInside (around ++ [name]) hnamed fun _ => Nat.le_refl 1)
    rw [hsplit, run_append, hannounced, run_append, hbody,
      ihRest around (plain_addTypes hnamed _) hdepth, addTypes_addTypes, addTypes_addTypes]
    rfl

/-- **Nested types come out in preorder.** Of a file that is made of tokens that are passed over,
blocks and declarations, the outline holds the declarations in preorder, each under its name with
the names of the types around it before it, on the line of its name; it has no package and no
imports but the implicit ones. -/
theorem types_preorder (language : Language) (page : Text) (code : Code language) :
    (Reader.outline language page code.tokens).package = [] ∧
      (Reader.outline language page code.tokens).imports = language.implicitImports.map (⟨·⟩) ∧
      (Reader.outline language page code.tokens).types = code.declarations page [] := by
  have hstart : (start language).outline.Plain := ⟨rfl, rfl⟩
  have hrun : ((start language).run language page code.tokens).outline =
      addTypes (start language).outline (code.declarations page []) :=
    congrArg Machine.outline (run_tokens code [] hstart fun hne => absurd rfl hne)
  rw [outline_eq_run, hrun]
  exact ⟨rfl, rfl, rfl⟩

/-- A type in a block in a type, and a type after both. -/
example :
    (Code.type ⟨"class", by decide⟩ 1 "A" 1 [] 1
      (.block 2 (.type ⟨"enum", by decide⟩ 2 "B" 3 [] 3 .done 3 .done) 3 .done) 3
      (.type ⟨"record", by decide⟩ 4 "C" 4 [⟨⟨.sign ';', 4⟩, by decide⟩] 4 .done 4 .done) :
      Code .java).declarations "A" [] = [⟨"A", "A", 1⟩, ⟨"A.B", "A", 3⟩, ⟨"C", "A", 4⟩] := by
  decide

end Reader

end CodeAtlas
