/-
  File:      CodeAtlas/Proofs/Markup/Entities.lean
  Subject:   Entities in shown text, and the source line that they stand for.

  * `decode`: reads a text from left to right once and puts characters in the
    place of the entities `&amp;`, `&lt;`, `&gt;`, `&quot;` and `&#92;`.
  * `Encodes html text`: `html` is `text` with some characters written as
    entities, among them all that would start or end a tag or an entity.
  * `Encodes.replaceAll`: a replacement that writes characters as entities keeps
    the relation. Each of the three passes of `escapeLine` is one, so that
    `encodes_escapeLine` is three uses of it, and `decode_escapeLine` follows.
  * `Encodes.isInfix`: a word that entities cannot hold, such as the start of an
    address, is found in the line if it is found in the escaped line.
-/
import CodeAtlas.Proofs.Markup.Tags
import CodeAtlas.Proofs.Text

namespace CodeAtlas.Markup

/-! ## 1. Decoding -/

/-- The entities of a shown line and the characters they stand for. -/
def entities : List (Text × Char) :=
  [("&amp;", '&'), ("&lt;", '<'), ("&gt;", '>'), ("&quot;", '"'), ("&#92;", '\\')]

/-- The entity at the start of a text. -/
def entity? (text : Text) : Option (Text × Char) := entities.find? (·.1.isPrefixOf text)

/-- Decodes entities after `skip` characters, which belong to an entity already decoded. -/
def decodeFrom : Nat → Text → Text
  | _, [] => []
  | skip + 1, _ :: rest => decodeFrom skip rest
  | 0, c :: rest =>
    match entity? (c :: rest) with
    | some (name, char) => char :: decodeFrom (name.length - 1) rest
    | none => c :: decodeFrom 0 rest

/-- Puts characters in the place of entities, from left to right and once. -/
def decode (text : Text) : Text := decodeFrom 0 text

theorem decodeFrom_eq_drop (skip : Nat) (text : Text) :
    decodeFrom skip text = decodeFrom 0 (text.drop skip) := by
  induction text generalizing skip with
  | nil => simp [decodeFrom]
  | cons c text ih =>
    cases skip with
    | zero => rfl
    | succ skip => exact ih skip

/-! ## 2. Texts written with entities -/

/-- `Encodes html text`: `html` is `text` with some characters, and all of `&`, `<` and `>`,
written as entities. -/
inductive Encodes : Text → Text → Prop where
  | nil : Encodes [] []
  | char {c : Char} {html text : Text} (h : c ≠ '&') (h1 : c ≠ '<') (h2 : c ≠ '>')
      (hr : Encodes html text) : Encodes (c :: html) (c :: text)
  | entity {e : Text × Char} {html text : Text} (he : e ∈ entities) (hr : Encodes html text) :
      Encodes (e.1 ++ html) (e.2 :: text)

theorem entity?_append {e : Text × Char} (he : e ∈ entities) (rest : Text) :
    ∃ c tail, e.1 = c :: tail ∧ entity? (c :: tail ++ rest) = some e := by
  simp only [entities, List.mem_cons, List.not_mem_nil, or_false] at he
  rcases he with rfl | rfl | rfl | rfl | rfl <;> exact ⟨_, _, rfl, rfl⟩

theorem entity?_eq_none {c : Char} (h : c ≠ '&') (rest : Text) : entity? (c :: rest) = none := by
  have hc : ('&' == c) = false := by simpa using fun e => h e.symm
  have hp : ∀ tail : Text, List.isPrefixOf ('&' :: tail) (c :: rest) = false := by
    intro tail
    simp [List.isPrefixOf, hc]
  simp [entity?, entities, hp]

namespace Encodes

theorem decode_eq {html text : Text} (h : Encodes html text) : decode html = text := by
  unfold decode
  induction h with
  | nil => rfl
  | char h _ _ _ ih => rw [decodeFrom, entity?_eq_none h, ih]
  | @entity e html text he _ ih =>
    obtain ⟨c, tail, hn, hf⟩ := entity?_append he html
    rw [hn, List.cons_append, decodeFrom, ← List.cons_append, hf]
    simp only [hn, List.length_cons, Nat.add_sub_cancel]
    rw [decodeFrom_eq_drop, List.drop_left, ih]

theorem tagFree {html text : Text} (h : Encodes html text) : TagFree html := by
  induction h with
  | nil => exact TagFree.nil
  | char _ h1 h2 _ ih => exact tagFree_cons.mpr ⟨⟨h1, h2⟩, ih⟩
  | @entity e html text he _ ih =>
    have hfree : ∀ e ∈ entities, '<' ∉ e.1 ∧ '>' ∉ e.1 := by decide
    exact tagFree_append.mpr ⟨hfree e he, ih⟩

theorem append {a b x y : Text} (ha : Encodes a x) (hb : Encodes b y) :
    Encodes (a ++ b) (x ++ y) := by
  induction ha with
  | nil => exact hb
  | char h h1 h2 _ ih => exact .char h h1 h2 ih
  | entity he _ ih =>
    rw [List.append_assoc]
    exact .entity he ih

/-- A start without `&` stands for itself. -/
theorem split {html text a rest : Text} (h : Encodes html text) (e : html = a ++ rest)
    (ha : '&' ∉ a) : ∃ text', text = a ++ text' ∧ Encodes rest text' := by
  induction h generalizing a with
  | nil =>
    obtain ⟨rfl, rfl⟩ := List.append_eq_nil_iff.mp e.symm
    exact ⟨[], rfl, .nil⟩
  | @char c html text h h1 h2 hr ih =>
    cases a with
    | nil =>
      subst e
      exact ⟨c :: text, rfl, .char h h1 h2 hr⟩
    | cons d a =>
      obtain ⟨rfl, htail⟩ := List.cons.inj e
      obtain ⟨text', rfl, h'⟩ := ih htail fun hm => ha (List.mem_cons_of_mem c hm)
      exact ⟨text', rfl, h'⟩
  | @entity ent html text he hr ih =>
    cases a with
    | nil =>
      subst e
      exact ⟨ent.2 :: text, rfl, .entity he hr⟩
    | cons d a =>
      have hamp : ∀ ent ∈ entities, ent.1.head? = some '&' := by decide
      have hhead := congrArg List.head? e
      rw [List.head?_append, hamp ent he] at hhead
      cases hhead
      exact absurd List.mem_cons_self ha

end Encodes

/-! ## 3. Replacements -/

theorem replaceFrom_eq_drop (old new : Text) (skip : Nat) (text : Text) :
    Text.replaceFrom old new skip text = Text.replaceFrom old new 0 (text.drop skip) := by
  induction text generalizing skip with
  | nil => simp [Text.replaceFrom]
  | cons c text ih =>
    cases skip with
    | zero => rfl
    | succ skip => exact ih skip

/-- A start that does not hold the first character of what is replaced is copied. -/
theorem replaceFrom_append {first : Char} {more new a : Text} (ha : first ∉ a) (rest : Text) :
    Text.replaceFrom (first :: more) new 0 (a ++ rest) =
      a ++ Text.replaceFrom (first :: more) new 0 rest := by
  induction a with
  | nil => rfl
  | cons c a ih =>
    have hc : (first == c) = false := by
      simpa using fun e : first = c => ha (e ▸ List.mem_cons_self)
    have hp : List.isPrefixOf (first :: more) (c :: (a ++ rest)) = false := by
      simp [List.isPrefixOf, hc]
    rw [List.cons_append, Text.replaceFrom, hp]
    simp only [Bool.false_eq_true, if_false, List.cons_append]
    rw [ih fun hm => ha (List.mem_cons_of_mem c hm)]

/-- **A replacement that only writes characters as entities keeps what a text stands for.** What
is replaced must not start inside an entity. -/
theorem Encodes.replaceAll {html text : Text} (h : Encodes html text) (first : Char)
    (more : Text) {new : Text} (hamp : '&' ∉ first :: more)
    (hfirst : ∀ e ∈ entities, first ∉ e.1) (hnew : Encodes new (first :: more)) :
    Encodes (Text.replaceAll (first :: more) new html) text := by
  unfold Text.replaceAll
  induction hn : html.length using Nat.strong_induction_on generalizing html text with
  | h n ih =>
    subst hn
    cases h with
    | nil => exact .nil
    | @entity e html text he hr =>
      rw [replaceFrom_append (hfirst e he)]
      have hpos : 0 < e.1.length := by
        have hall : ∀ e ∈ entities, 0 < e.1.length := by decide
        exact hall e he
      refine .entity he (ih html.length ?_ hr rfl)
      rw [List.length_append]
      omega
    | @char c html text h h1 h2 hr =>
      rw [Text.replaceFrom]
      split
      · rename_i hp
        obtain ⟨rest, hrest⟩ := List.isPrefixOf_iff_prefix.mp hp
        obtain ⟨text', ht, hr'⟩ := Encodes.split (.char h h1 h2 hr) hrest.symm hamp
        have hdrop : html.drop more.length = rest := by
          have := congrArg (List.drop (more.length + 1)) hrest
          simpa using this.symm
        have hlen : rest.length < (c :: html).length := by
          rw [← hrest, List.length_append, List.length_cons]
          omega
        rw [ht, replaceFrom_eq_drop]
        simp only [List.length_cons, Nat.add_sub_cancel, hdrop]
        exact hnew.append (ih rest.length hlen hr' rfl)
      · exact .char h h1 h2 (ih html.length (Nat.lt_succ_self _) hr rfl)

/-! ## 4. Source lines -/

theorem encodes_escapeMarkup (line : Text) : Encodes (escapeMarkup line) line := by
  induction line with
  | nil => exact .nil
  | cons c line ih =>
    unfold escapeMarkup at ih ⊢
    rw [List.flatMap_cons]
    by_cases h : c = '&'
    · subst h
      exact Encodes.entity (e := ("&amp;".toList, '&')) (by decide) ih
    · by_cases h1 : c = '<'
      · subst h1
        exact Encodes.entity (e := ("&lt;".toList, '<')) (by decide) ih
      · by_cases h2 : c = '>'
        · subst h2
          exact Encodes.entity (e := ("&gt;".toList, '>')) (by decide) ih
        · simp only [beq_eq_false_iff_ne.mpr h, beq_eq_false_iff_ne.mpr h1,
            beq_eq_false_iff_ne.mpr h2, Bool.false_eq_true, if_false]
          exact .char h h1 h2 ih

/-- **An escaped line stands for the line**, whichever of its characters were hidden. -/
theorem encodes_escapeLine (line : Text) : Encodes (escapeLine line) line := by
  have backslash : ('\\' : Char) ≠ '&' ∧ '\\' ≠ '<' ∧ '\\' ≠ '>' := by decide
  have apostrophe : ('\'' : Char) ≠ '&' ∧ '\'' ≠ '<' ∧ '\'' ≠ '>' := by decide
  have hback : ("&#92;".toList, '\\') ∈ entities := by decide
  have hquote : ("&quot;".toList, '"') ∈ entities := by decide
  have hpaired : Encodes "&#92;&#92;".toList ['\\', '\\'] := .entity hback (.entity hback .nil)
  have hescaped : Encodes "\\&quot;".toList ['\\', '"'] :=
    .char backslash.1 backslash.2.1 backslash.2.2 (.entity hquote .nil)
  have hbetween : Encodes "'&quot;'".toList ['\'', '"', '\''] :=
    .char apostrophe.1 apostrophe.2.1 apostrophe.2.2
      (.entity hquote (.char apostrophe.1 apostrophe.2.1 apostrophe.2.2 .nil))
  have h1 := (encodes_escapeMarkup line).replaceAll '\\' ['\\'] (by decide) (by decide) hpaired
  have h2 := h1.replaceAll '\\' ['"'] (by decide) (by decide) hescaped
  exact h2.replaceAll '\'' ['"', '\''] (by decide) (by decide) hbetween

theorem tagFree_escapeLine (line : Text) : TagFree (escapeLine line) :=
  (encodes_escapeLine line).tagFree

theorem decode_escapeLine (line : Text) : decode (escapeLine line) = line :=
  (encodes_escapeLine line).decode_eq

/-! ## 5. Words that are not hidden -/

/-- A word longer than every entity, and without the marks of one, is hidden by none. -/
theorem Encodes.isInfix {html text p : Text} (h : Encodes html text) (hamp : '&' ∉ p)
    (hsemi : ';' ∉ p) (hlen : 6 < p.length) (hp : p <:+: html) : p <:+: text := by
  induction h with
  | nil =>
    rw [List.infix_nil] at hp
    subst hp
    exact absurd hlen (by decide)
  | @char c html text h h1 h2 hr ih =>
    rcases List.infix_cons_iff.mp hp with ⟨rest, e⟩ | hp
    · obtain ⟨text', ht, -⟩ := Encodes.split (.char h h1 h2 hr) e.symm hamp
      rw [ht]
      exact (List.prefix_append p text').isInfix
    · exact (ih hp).trans (List.suffix_cons c text).isInfix
  | @entity e html text he hr ih =>
    have hform : ∀ e ∈ entities, e.1 = e.1.dropLast ++ [';'] ∧ e.1.length ≤ 6 := by decide
    obtain ⟨hlast, hshort⟩ := hform e he
    rw [hlast, List.append_assoc] at hp
    rcases infix_of_infix_append_cons hsemi hp with hp | hp
    · have := hp.length_le
      rw [List.length_dropLast] at this
      omega
    · exact (ih hp).trans (List.suffix_cons e.2 text).isInfix

end CodeAtlas.Markup
