/-
  File:      CodeAtlas/Proofs/Template/Filling.lean
  Subject:   What templates are filled in with.

  * `Expression.Means`: an expression has a value, and looking at it changes nothing.
    One rule for each kind of expression that the built-in templates use.
  * `Gives`: with given blocks, a step gives a value. It may enter loops, and leaves the
    blocks and the parent alone. One rule for each kind of node that they use.
  * `fills_each`: a loop gives the texts of its rounds one after another.
  * `Form.fill_child`: a template that only fills in blocks of another gives the text of
    that one, with its own blocks in place of those.
-/
import CodeAtlas.Template.Render
import Mathlib.Data.List.Basic

namespace CodeAtlas.Template

/-! ## 1. Expressions -/

namespace Expression

variable {around : Surroundings} {scope : Scope} {expression : Expression}

/-- An expression has a value, and looking at it changes nothing. -/
def Means (around : Surroundings) (scope : Scope) (expression : Expression) (value : Value) :
    Prop :=
  expression.value around scope = pure value

theorem means_name {word : Text} {value : Value} (h : scope.lookup word = some value) :
    Means around scope (.name word) value := by
  unfold Means
  simp only [Expression.value, Scope.value, h]

/-- A field of a record. -/
theorem Means.field {kind word : Text} {fields : List (Text × Value)} {value : Value}
    (h : expression.Means around scope (.record kind fields))
    (hfield : fields.lookup word = some value) :
    Means around scope (.part expression word) value := by
  have hpart : partOf (.record kind fields) word = pure value := by
    simp only [partOf, Value.part, Value.attribute?, Value.field?, hfield]
    rfl
  unfold Means at h ⊢
  simp only [Expression.value, h, pure_bind, hpart]

/-- The values of a table. -/
theorem Means.values {entries : List (Value × Value)}
    (h : expression.Means around scope (.table entries)) :
    Means around scope (.call (.part expression "values") [] true)
      (.view "dict_values" (entries.map (·.2))) := by
  have hpart : partOf (.table entries) "values" = pure (.method (.table entries) "values") := by
    rfl
  have hcall : callOf around (.method (.table entries) "values") [] true =
      pure (.view "dict_values" (entries.map (·.2))) := by
    rfl
  unfold Means at h ⊢
  simp only [Expression.value, Expression.values, h, pure_bind, hpart, hcall]

/-- A text with the characters of HTML hidden. -/
theorem Means.escaped {text : Text} (h : expression.Means around scope (.text text)) :
    Means around scope (.filter expression "e" [] true) (.markup (Value.hideMarkup text)) := by
  have hfilter : applyFilter "e" (.text text) [] true = .ok (.markup (Value.hideMarkup text)) := by
    rfl
  unfold Means at h ⊢
  simp only [Expression.value, Expression.values, h, pure_bind, hfilter]
  rfl

end Expression

/-! ## 2. Steps -/

variable {α β : Type} {blocks : Blocks}

/-- With the given blocks, a step gives a value. It may enter loops, and leaves the blocks and the
parent alone. -/
def Gives (blocks : Blocks) (step : Fill α) (value : α) : Prop :=
  ∀ progress : Progress, progress.blocks = blocks → ∃ after : Progress,
    step.run progress = .ok (value, after) ∧ after.blocks = blocks ∧
      after.parent = progress.parent

theorem gives_pure (value : α) : Gives blocks (pure value) value :=
  fun progress h => ⟨progress, rfl, h, rfl⟩

theorem Gives.bind {step : Fill α} {next : α → Fill β} {value : α} {result : β}
    (hstep : Gives blocks step value) (hnext : Gives blocks (next value) result) :
    Gives blocks (step >>= next) result := by
  intro progress h
  obtain ⟨between, hrun, hblocks, hparent⟩ := hstep progress h
  obtain ⟨after, hrun', hblocks', hparent'⟩ := hnext between hblocks
  refine ⟨after, ?_, hblocks', hparent'.trans hparent⟩
  rw [StateT.run_bind, hrun]
  exact hrun'

/-- A step that looks at the progress first. -/
theorem gives_get {next : Progress → Fill β} {result : β}
    (h : ∀ progress : Progress, progress.blocks = blocks → Gives blocks (next progress) result) :
    Gives blocks (get >>= next) result :=
  fun progress hblocks => h progress hblocks progress hblocks

theorem gives_enterLoop {next : Nat → Fill β} {result : β}
    (h : ∀ loop, Gives blocks (next loop) result) :
    Gives blocks (Fill.enterLoop >>= next) result :=
  fun progress hblocks => h progress.loops { progress with loops := progress.loops + 1 } hblocks

theorem gives_body (name : Text) (number : Nat) :
    ∃ value, Gives blocks (Fill.body name number) value := by
  by_cases h : number < (blocks.bodies name).length
  · refine ⟨.block name number, gives_get fun progress hblocks => ?_⟩
    rw [hblocks, if_pos h]
    exact gives_pure _
  · refine ⟨.undefined, gives_get fun progress hblocks => ?_⟩
    rw [hblocks, if_neg h]
    exact gives_pure _

theorem Gives.mapM {step : α → Fill β} {result : α → β} {values : List α}
    (h : ∀ value ∈ values, Gives blocks (step value) (result value)) :
    Gives blocks (values.mapM step) (values.map result) := by
  induction values with
  | nil => exact gives_pure []
  | cons value values ih =>
    rw [List.mapM_cons, List.map_cons]
    exact (h value List.mem_cons_self).bind
      ((ih fun other hm => h other (List.mem_cons_of_mem value hm)).bind (gives_pure _))

/-! ## 3. Nodes -/

section Nodes

variable {around : Surroundings} {scope : Scope}

theorem gives_unlessParent {step : Fill Text} {text : Text} (h : Gives blocks step text) :
    Gives blocks (Fill.unlessParent false step) text := gives_get fun _ _ => h

theorem fills_nil : Gives blocks (Node.fillAll around scope []) [] := gives_pure []

/-- Nodes give their texts one after another. -/
theorem fills_cons {node : Node} {rest : List Node} {text more : Text}
    (hnode : Gives blocks (node.fill around scope) text)
    (hrest : Gives blocks (Node.fillAll around scope rest) more) :
    Gives blocks (Node.fillAll around scope (node :: rest)) (text ++ more) :=
  hnode.bind (hrest.bind (gives_pure _))

theorem fills_last {node : Node} {text : Text}
    (h : Gives blocks (node.fill around scope) text) :
    Gives blocks (Node.fillAll around scope [node]) text := by
  have hall := fills_cons h fills_nil
  rwa [List.append_nil] at hall

theorem fillAll_nil : Node.fillAll around scope [] = pure [] := rfl

theorem fillAll_cons (node : Node) (rest : List Node) :
    Node.fillAll around scope (node :: rest) = do
      let text ← node.fill around scope
      return text ++ (← Node.fillAll around scope rest) := rfl

theorem fillAll_append (first rest : List Node) :
    Node.fillAll around scope (first ++ rest) = do
      let text ← Node.fillAll around scope first
      return text ++ (← Node.fillAll around scope rest) := by
  induction first with
  | nil => simp only [List.nil_append, fillAll_nil, pure_bind, bind_pure]
  | cons node first ih =>
    simp only [List.cons_append, fillAll_cons, ih, bind_assoc, pure_bind, List.append_assoc]

theorem fills_append {first rest : List Node} {text more : Text}
    (hfirst : Gives blocks (Node.fillAll around scope first) text)
    (hrest : Gives blocks (Node.fillAll around scope rest) more) :
    Gives blocks (Node.fillAll around scope (first ++ rest)) (text ++ more) := by
  rw [fillAll_append]
  exact hfirst.bind (hrest.bind (gives_pure _))

theorem fills_text (words : Text) :
    Gives blocks (Node.fill around scope (.text words false)) words :=
  gives_unlessParent (gives_pure words)

theorem fills_value {expression : Expression} {value : Value} {text : Text}
    (h : expression.Means around scope value) (hprinted : value.printed = .ok text) :
    Gives blocks (Node.fill around scope (.print expression false)) text := by
  refine gives_unlessParent ?_
  unfold Expression.Means at h
  rw [h, pure_bind, hprinted]
  exact gives_pure text

theorem fills_print {expression : Expression} {text : Text}
    (h : expression.Means around scope (.text text)) :
    Gives blocks (Node.fill around scope (.print expression false)) text := fills_value h rfl

theorem fills_escaped {expression : Expression} {text : Text}
    (h : expression.Means around scope (.text text)) :
    Gives blocks (Node.fill around scope (.print (.filter expression "e" [] true) false))
      (Value.hideMarkup text) := fills_value h.escaped rfl

/-- A block gives the text of its body in the outermost template. -/
theorem fills_block {name : Text} {body : List Node} {text : Text}
    (h : around.enter blocks name 0 around.page = .ok text) :
    Gives blocks (Node.fill around scope (.block name ⟨false, false⟩ body false)) text := by
  refine gives_unlessParent (gives_get fun progress hblocks => ?_)
  have htext : blockText around progress.blocks scope name ⟨false, false⟩ = .ok text := by
    rw [hblocks]
    exact h
  rw [htext]
  exact gives_pure text

/-! ## 4. Loops -/

theorem passing_all {test : Value → Fill Bool} (h : ∀ value, test value = pure true)
    (values : List Value) : passing test values = pure (values, none) := by
  induction values with
  | nil => rfl
  | cons value values ih =>
    rw [passing, ih, h value]
    rfl

/-- A loop gives the texts of its rounds, one after another. Each round sees the value of its
item under the name of the loop's target. -/
theorem fills_each {word kind : Text} {through : Expression} {items : List α} {value : α → Value}
    {body : List Node} {row : α → Text}
    (hthrough : through.Means around scope (.view kind (items.map value)))
    (hrow : ∀ item ∈ items, ∀ loop,
      Gives blocks (Node.fillAll around ((word, value item) :: (loopWord, loop) :: scope) body)
        (row item)) :
    Gives blocks (Node.fill around scope (.each (.name word) through none body [] false))
      (items.flatMap row) := by
  unfold Expression.Means at hthrough
  rw [Node.fill, hthrough, pure_bind, if_neg Bool.false_ne_true]
  refine gives_enterLoop fun loop => ?_
  have helements : (Value.view kind (items.map value)).elements = .ok (items.map value) := rfl
  rw [helements]
  refine (gives_pure (items.map value)).bind ?_
  refine Gives.bind (show Gives blocks _ (items.map value, none) from ?_) ?_
  · rw [passing_all (by exact fun value => rfl)]
    exact gives_pure (items.map value, none)
  · cases items with
    | nil => exact gives_pure []
    | cons first rest =>
      have hrounds : Gives blocks (((first :: rest).map value).zipIdx.mapM fun round =>
          Node.fillAll around ((word, round.1) ::
            (loopWord, Value.loop loop 0 (round.2 + 1) ((first :: rest).map value)) :: scope) body)
          ((first :: rest).zipIdx.map fun round => row round.1) := by
        rw [List.zipIdx_map, List.mapM_map]
        exact Gives.mapM fun round hround => hrow round.1 (List.fst_mem_of_mem_zipIdx hround) _
      have hrows : ((first :: rest).zipIdx.map fun round => row round.1).flatten =
          (first :: rest).flatMap row := by
        have hfirst : (first :: rest).zipIdx.map (fun round => row round.1) =
            ((first :: rest).zipIdx.map Prod.fst).map row := (List.map_map ..).symm
        rw [hfirst, List.zipIdx_map_fst, List.flatMap_def]
      rw [← hrows]
      exact hrounds.bind (gives_pure _)

end Nodes

/-! ## 5. Templates -/

section Templates

variable {library : Library} {page : Scope} {fuel : Nat} {text : Text}

/-- The body of a block that counts is the first one. -/
theorem Blocks.head?_bodies (blocks : Blocks) (name : Text) :
    (blocks.bodies name)[0]? = blocks.lookup name := by
  induction blocks with
  | nil => rfl
  | cons block blocks ih =>
    obtain ⟨other, body⟩ := block
    unfold bodies at ih ⊢
    by_cases h : other = name
    · simp [h]
    · simpa [List.lookup_cons, h, beq_eq_false_iff_ne.mpr (Ne.symm h)] using ih

/-- A block gives the text of the first of its bodies. -/
theorem fillBlock_of_gives {name : Text} {body : List Node}
    (hbody : blocks.lookup name = some body)
    (h : ∀ inherited, Gives blocks (Node.fillAll
      { library, page, enter := fillBlock library fuel } ((superWord, inherited) :: page) body)
      text) :
    fillBlock library (fuel + 1) blocks name 0 page = .ok text := by
  have hnodes : ((blocks.bodies name)[0]?).getD [] = body := by
    rw [Blocks.head?_bodies, hbody]
    rfl
  have hgives : Gives blocks (do
      let inherited ← Fill.body name 1
      Node.fillAll { library, page, enter := fillBlock library fuel }
        ((superWord, inherited) :: page) body) text := by
    obtain ⟨inherited, hinherited⟩ : ∃ inherited, Gives blocks (Fill.body name 1) inherited :=
      gives_body name 1
    exact hinherited.bind (h inherited)
  obtain ⟨after, hrun, -, -⟩ := hgives { blocks } rfl
  unfold fillBlock
  simp only [Nat.zero_add, hnodes]
  exact (congrArg (Except.map Prod.fst) hrun).trans rfl

namespace Form

/-- A template that names no parent gives the text of its nodes. -/
theorem fillWith_of_gives {form : Form}
    (h : Gives blocks (Node.fillAll
      { library, page, enter := fun blocks => fillBlock library (blocks.length + 1) blocks }
      page form.nodes) text) :
    form.fillWith library page (fuel + 1) blocks = .ok text := by
  obtain ⟨after, hrun, -, hparent⟩ := h { blocks } rfl
  unfold fillWith
  simp only [hrun]
  dsimp only [bind, Except.bind]
  rw [hparent]
  rfl

/-- The template that fills in blocks of a parent. -/
def child (parent : Text) (blocks : Blocks) : Form := ⟨[.extend (.text parent) true], blocks⟩

/-- The parent of a template gives its text, with the blocks of both. -/
theorem fill_child {parent : Text} {layout : Form} (hparent : library parent = .ok layout)
    (h : layout.fillWith library page fuel (blocks ++ layout.blocks) = .ok text) :
    (child parent blocks).fill library page (fuel + 1) = .ok text := by
  have hextend (enter) :
      (Node.fillAll { library, page, enter } page [.extend (.text parent) true]).run { blocks } =
        .ok ([], { blocks := blocks ++ layout.blocks, parent := some layout }) := by
    have hlayout : parentOf library (.text parent) = pure layout := by
      unfold parentOf
      simp only [Value.asText?, hparent]
      rfl
    simp only [Node.fillAll, Node.fill, Expression.value, pure_bind, hlayout]
    rfl
  unfold fill fillWith child
  simp only [hextend]
  exact (congrArg (Except.map ([] ++ ·)) h).trans rfl

end Form

end Templates

end CodeAtlas.Template
