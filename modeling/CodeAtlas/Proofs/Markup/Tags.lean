/-
  File:      CodeAtlas/Proofs/Markup/Tags.lean
  Subject:   The tags of a marked-up text, and what they leave to be read.

  Three views of a text, all of them readings from left to right:

  * `withoutTags`: the text with every `<…>` deleted; a `<` that no `>` follows
    stays.
  * `tags`: what stands after each `<` up to the next `<` or `>`. The reader is a
    machine (`readTag`) that holds the tag it is in, so that the tags of two
    texts put together are those of the first and those of the second
    (`tagsFrom_append`), read in the state that the first one leaves.
  * `Shows`: a text whose tags are all closed, and what it shows. Both this and
    `HasTags`, the list of its tags, go through concatenation.

  * `Tagged P`: a text put together from characters and whole tags, each of which
    satisfies `P`. It is how the keyword and address filters build their results;
    `Tagged.shows` and `Tagged.hasTags` lead back to the views.
-/
import CodeAtlas.Markup.TypeLink
import Mathlib.Data.List.Infix

namespace CodeAtlas.Markup

/-! ## 1. Deleting tags -/

/-- Deletes tags in a text that starts inside a tag or outside of all. -/
def stripTags : (inTag : Bool) → Text → Text
  | _, [] => []
  | true, c :: rest => stripTags (c != '>') rest
  | false, c :: rest =>
    if c == '<' && rest.contains '>' then stripTags true rest else c :: stripTags false rest

/-- A text without its tags, each from a `<` to the next `>`. A `<` that no `>` follows is no tag
and stays. -/
def withoutTags (html : Text) : Text := stripTags false html

/-- A text in which no tag starts or ends. -/
def TagFree (text : Text) : Prop := '<' ∉ text ∧ '>' ∉ text

instance (text : Text) : Decidable (TagFree text) :=
  inferInstanceAs (Decidable ('<' ∉ text ∧ '>' ∉ text))

theorem TagFree.nil : TagFree [] := ⟨List.not_mem_nil, List.not_mem_nil⟩

theorem tagFree_cons {c : Char} {text : Text} :
    TagFree (c :: text) ↔ (c ≠ '<' ∧ c ≠ '>') ∧ TagFree text := by
  unfold TagFree
  simp only [List.mem_cons, not_or, ne_eq]
  constructor
  · rintro ⟨⟨h1, h2⟩, h3, h4⟩
    exact ⟨⟨fun e => h1 e.symm, fun e => h3 e.symm⟩, h2, h4⟩
  · rintro ⟨⟨h1, h3⟩, h2, h4⟩
    exact ⟨⟨fun e => h1 e.symm, h2⟩, fun e => h3 e.symm, h4⟩

theorem tagFree_append {a b : Text} : TagFree (a ++ b) ↔ TagFree a ∧ TagFree b := by
  unfold TagFree
  simp only [List.mem_append, not_or]
  constructor
  · rintro ⟨⟨h1, h2⟩, h3, h4⟩
    exact ⟨⟨h1, h3⟩, h2, h4⟩
  · rintro ⟨⟨h1, h3⟩, h2, h4⟩
    exact ⟨⟨h1, h2⟩, h3, h4⟩

theorem TagFree.of_forall {text : Text} (h : ∀ c ∈ text, c ≠ '<' ∧ c ≠ '>') : TagFree text :=
  ⟨fun hm => (h _ hm).1 rfl, fun hm => (h _ hm).2 rfl⟩

theorem TagFree.subset {a b : Text} (hb : TagFree b) (h : a ⊆ b) : TagFree a :=
  ⟨fun hm => hb.1 (h hm), fun hm => hb.2 (h hm)⟩

/-! ## 2. Reading tags -/

/-- Reads one character. The state is the part that has been read of the tag that is open; a tag
ends at `>`, and also where another one starts. -/
def readTag : Option Text → Char → List Text × Option Text
  | none, c => ([], if c == '<' then some [] else none)
  | some tag, c =>
    if c == '<' then ([tag], some [])
    else if c == '>' then ([tag], none)
    else ([], some (tag ++ [c]))

/-- The tags that end in a text read from a given state on. -/
def tagsFrom : Option Text → Text → List Text
  | _, [] => []
  | state, c :: rest => (readTag state c).1 ++ tagsFrom (readTag state c).2 rest

/-- The tag that is open after a text read from a given state on. -/
def tagAfter : Option Text → Text → Option Text
  | state, [] => state
  | state, c :: rest => tagAfter (readTag state c).2 rest

/-- The tags of a text, without their angle brackets. -/
def tags (html : Text) : List Text := tagsFrom none html

theorem tagsFrom_append (state : Option Text) (a b : Text) :
    tagsFrom state (a ++ b) = tagsFrom state a ++ tagsFrom (tagAfter state a) b := by
  induction a generalizing state with
  | nil => rfl
  | cons c a ih => simp only [List.cons_append, tagsFrom, tagAfter, ih, List.append_assoc]

theorem tagAfter_append (state : Option Text) (a b : Text) :
    tagAfter state (a ++ b) = tagAfter (tagAfter state a) b := by
  induction a generalizing state with
  | nil => rfl
  | cons c a ih => simp only [List.cons_append, tagAfter, ih]

theorem readTag_of_ne {c : Char} (h1 : c ≠ '<') (h2 : c ≠ '>') (state : Option Text) :
    readTag state c = ([], state.map (· ++ [c])) := by
  cases state with
  | none => simp [readTag, h1]
  | some tag => simp [readTag, h1, h2]

theorem isSome_readTag_none (c : Char) : (readTag none c).2.isSome = (c == '<') := by
  by_cases h : c = '<' <;> simp [readTag, h]

theorem isSome_readTag_some (tag : Text) (c : Char) :
    (readTag (some tag) c).2.isSome = (c != '>') := by
  by_cases h1 : c = '<'
  · simp [readTag, h1]
  · by_cases h2 : c = '>' <;> simp [readTag, h1, h2]

/-- A text without angle brackets ends no tag, and lengthens the one that is open. -/
theorem tagsFrom_tagFree {text : Text} (h : TagFree text) (state : Option Text) :
    tagsFrom state text = [] ∧ tagAfter state text = state.map (· ++ text) := by
  induction text generalizing state with
  | nil =>
    refine ⟨rfl, ?_⟩
    cases state <;> simp [tagAfter]
  | cons c text ih =>
    obtain ⟨⟨h1, h2⟩, h3⟩ := tagFree_cons.mp h
    obtain ⟨ht, ha⟩ := ih h3 (state.map (· ++ [c]))
    simp only [tagsFrom, tagAfter, readTag_of_ne h1 h2, ht, ha, List.append_nil, true_and]
    cases state <;> simp

/-- A whole tag, read outside of all others or inside one: the one that is open ends before it. -/
theorem tagsFrom_tag {body : Text} (h : TagFree body) (state : Option Text) :
    tagsFrom state ('<' :: body ++ ['>']) = state.toList ++ [body] ∧
      tagAfter state ('<' :: body ++ ['>']) = none := by
  obtain ⟨ht, ha⟩ := tagsFrom_tagFree h (some [])
  have hs : readTag state '<' = (state.toList, some []) := by cases state <;> rfl
  simp only [List.cons_append, tagsFrom, tagAfter, tagsFrom_append, tagAfter_append, hs, ht, ha]
  exact ⟨rfl, rfl⟩

/-- A text between two tags, read outside of all others or inside one. -/
theorem tagsFrom_wrap {before text after : Text} (hb : TagFree before) (ht : TagFree text)
    (ha : TagFree after) (state : Option Text) :
    tagsFrom state ('<' :: before ++ ['>'] ++ text ++ ('<' :: after ++ ['>'])) =
        state.toList ++ [before, after] ∧
      tagAfter state ('<' :: before ++ ['>'] ++ text ++ ('<' :: after ++ ['>'])) = none := by
  obtain ⟨h1, h2⟩ := tagsFrom_tag hb state
  obtain ⟨h3, h4⟩ := tagsFrom_tagFree ht none
  obtain ⟨h5, h6⟩ := tagsFrom_tag ha none
  have hlead : tagsFrom state ('<' :: before ++ ['>'] ++ text) = state.toList ++ [before] ∧
      tagAfter state ('<' :: before ++ ['>'] ++ text) = none := by
    rw [tagsFrom_append state ('<' :: before ++ ['>']) text,
      tagAfter_append state ('<' :: before ++ ['>']) text, h1, h2, h3, h4, List.append_nil]
    exact ⟨rfl, rfl⟩
  rw [tagsFrom_append state ('<' :: before ++ ['>'] ++ text),
    tagAfter_append state ('<' :: before ++ ['>'] ++ text), hlead.1, hlead.2, h5, h6]
  exact ⟨by simp, rfl⟩

/-- The tags of a text with all its tags closed. -/
structure HasTags (html : Text) (list : List Text) : Prop where
  tags_eq : tags html = list
  closed : tagAfter none html = none

namespace HasTags

theorem nil : HasTags [] [] := ⟨rfl, rfl⟩

theorem append {a b : Text} {x y : List Text} (ha : HasTags a x) (hb : HasTags b y) :
    HasTags (a ++ b) (x ++ y) := by
  constructor
  · unfold tags
    rw [tagsFrom_append, ha.closed, ← ha.tags_eq, ← hb.tags_eq]
    rfl
  · rw [tagAfter_append, ha.closed, hb.closed]

theorem tagFree {text : Text} (h : TagFree text) : HasTags text [] :=
  ⟨(tagsFrom_tagFree h none).1, (tagsFrom_tagFree h none).2⟩

theorem tag {body : Text} (h : TagFree body) : HasTags ('<' :: body ++ ['>']) [body] :=
  ⟨(tagsFrom_tag h none).1, (tagsFrom_tag h none).2⟩

end HasTags

/-! ## 3. What is shown -/

/-- A text with all its tags closed, and what is left of it without them. -/
structure Shows (html text : Text) : Prop where
  visible : outsideTags false html = text
  closed : tagAfter none html = none

theorem outsideTags_append (state : Option Text) (a b : Text) :
    outsideTags state.isSome (a ++ b) =
      outsideTags state.isSome a ++ outsideTags (tagAfter state a).isSome b := by
  induction a generalizing state with
  | nil => cases state <;> rfl
  | cons c a ih =>
    have key := ih (readTag state c).2
    cases state with
    | none =>
      rw [isSome_readTag_none] at key
      by_cases hc : c = '<'
      · simpa [outsideTags, tagAfter, hc] using key
      · simp only [beq_eq_false_iff_ne.mpr hc] at key
        simp [outsideTags, tagAfter, hc, key]
    | some tag =>
      rw [isSome_readTag_some] at key
      exact key

theorem outsideTags_tagFree {text : Text} (h : TagFree text) : outsideTags false text = text := by
  induction text with
  | nil => rfl
  | cons c text ih =>
    obtain ⟨⟨h1, _⟩, h3⟩ := tagFree_cons.mp h
    simp [outsideTags, h1, ih h3]

namespace Shows

theorem nil : Shows [] [] := ⟨rfl, rfl⟩

theorem append {a b x y : Text} (ha : Shows a x) (hb : Shows b y) : Shows (a ++ b) (x ++ y) := by
  constructor
  · have h := outsideTags_append none a b
    rw [ha.closed] at h
    rw [← ha.visible, ← hb.visible]
    exact h
  · rw [tagAfter_append, ha.closed, hb.closed]

theorem tagFree {text : Text} (h : TagFree text) : Shows text text :=
  ⟨outsideTags_tagFree h, (tagsFrom_tagFree h none).2⟩

theorem tag {body : Text} (h : TagFree body) : Shows ('<' :: body ++ ['>']) [] := by
  refine ⟨?_, (tagsFrom_tag h none).2⟩
  have hin : ∀ {text : Text}, TagFree text → outsideTags true (text ++ ['>']) = [] := by
    intro text ht
    induction text with
    | nil => rfl
    | cons c text ih =>
      obtain ⟨⟨_, h2⟩, h3⟩ := tagFree_cons.mp ht
      have hc : (c != '>') = true := by simpa using h2
      simp only [List.cons_append, outsideTags, hc]
      exact ih h3
  exact hin h

/-- Text between two tags. -/
theorem wrap {before text after : Text} (hb : TagFree before) (ht : TagFree text)
    (ha : TagFree after) :
    Shows ('<' :: before ++ ['>'] ++ text ++ ('<' :: after ++ ['>'])) text := by
  have h := ((tag hb).append (tagFree ht)).append (tag ha)
  simpa using h

end Shows

theorem mem_of_tagAfter_eq_none {tag html : Text} (h : tagAfter (some tag) html = none) :
    '>' ∈ html := by
  induction html generalizing tag with
  | nil => exact nomatch h
  | cons c html ih =>
    by_cases hc : c = '>'
    · exact hc ▸ List.mem_cons_self
    · have hs : (readTag (some tag) c).2.isSome = true := by
        rw [isSome_readTag_some]
        simpa using hc
      obtain ⟨tag', ht⟩ := Option.isSome_iff_exists.mp hs
      rw [tagAfter, ht] at h
      exact List.mem_cons_of_mem c (ih h)

/-- Where every tag is closed, deleting tags leaves what stands outside of them. -/
theorem stripTags_eq_outsideTags (state : Option Text) {html : Text}
    (h : tagAfter state html = none) :
    stripTags state.isSome html = outsideTags state.isSome html := by
  induction html generalizing state with
  | nil => cases state <;> rfl
  | cons c html ih =>
    have key := ih _ h
    cases state with
    | none =>
      rw [isSome_readTag_none] at key
      by_cases hc : c = '<'
      · subst hc
        have hm : '>' ∈ html := mem_of_tagAfter_eq_none h
        simpa [stripTags, outsideTags, hm] using key
      · simp only [beq_eq_false_iff_ne.mpr hc] at key
        simp [stripTags, outsideTags, hc, key]
    | some tag =>
      rw [isSome_readTag_some] at key
      exact key

theorem Shows.withoutTags_eq {html text : Text} (h : Shows html text) : withoutTags html = text :=
  (stripTags_eq_outsideTags none h.closed).trans h.visible

/-! ## 4. Texts put together from characters and tags -/

/-- `Tagged P html text`: `html` is `text` with whole tags put in, each of which satisfies `P`. -/
inductive Tagged (P : Text → Prop) : Text → Text → Prop where
  | nil : Tagged P [] []
  | char {c : Char} {html text : Text} (h1 : c ≠ '<') (h2 : c ≠ '>') (h : Tagged P html text) :
      Tagged P (c :: html) (c :: text)
  | tag {body html text : Text} (hP : P body) (hb : TagFree body) (h : Tagged P html text) :
      Tagged P ('<' :: body ++ '>' :: html) text

namespace Tagged

variable {P Q : Text → Prop}

theorem mono (hPQ : ∀ body, P body → Q body) {html text : Text} (h : Tagged P html text) :
    Tagged Q html text := by
  induction h with
  | nil => exact .nil
  | char h1 h2 _ ih => exact .char h1 h2 ih
  | tag hP hb _ ih => exact .tag (hPQ _ hP) hb ih

theorem append {a b x y : Text} (ha : Tagged P a x) (hb : Tagged P b y) :
    Tagged P (a ++ b) (x ++ y) := by
  induction ha with
  | nil => exact hb
  | char h1 h2 _ ih => exact .char h1 h2 ih
  | @tag body html text hP hB _ ih =>
    have := Tagged.tag hP hB ih
    simpa using this

/-- A text in which no tag starts or ends, followed by a tagged one. -/
theorem tagFree_append {a html text : Text} (ha : TagFree a) (h : Tagged P html text) :
    Tagged P (a ++ html) (a ++ text) := by
  induction a with
  | nil => exact h
  | cons c a ih =>
    obtain ⟨⟨h1, h2⟩, h3⟩ := tagFree_cons.mp ha
    exact .char h1 h2 (ih h3)

/-- A text between two tags, followed by a tagged one. -/
theorem wrap {before a after html text : Text} (hP : P before) (hb : TagFree before)
    (ha : TagFree a) (hQ : P after) (hc : TagFree after) (h : Tagged P html text) :
    Tagged P ('<' :: before ++ ['>'] ++ a ++ ('<' :: after ++ ['>']) ++ html) (a ++ text) := by
  have h1 : Tagged P (a ++ ('<' :: after ++ '>' :: html)) (a ++ text) :=
    tagFree_append ha (.tag hQ hc h)
  have h2 := Tagged.tag hP hb h1
  simpa using h2

theorem of_tagFree {text : Text} (h : TagFree text) : Tagged P text text := by
  have := tagFree_append (P := P) h .nil
  simpa using this

theorem of_tag (body : Text) (hP : P body) (hb : TagFree body) :
    Tagged P ('<' :: body ++ ['>']) [] := .tag hP hb .nil

theorem shows {html text : Text} (h : Tagged P html text) : Shows html text := by
  induction h with
  | nil => exact .nil
  | @char c html text h1 h2 _ ih =>
    have hc : TagFree [c] := tagFree_cons.mpr ⟨⟨h1, h2⟩, TagFree.nil⟩
    exact (Shows.tagFree hc).append ih
  | @tag body html text _ hb _ ih =>
    have := (Shows.tag hb).append ih
    simpa using this

theorem hasTags {html text : Text} (h : Tagged P html text) :
    ∃ list, HasTags html list ∧ ∀ tag ∈ list, P tag := by
  induction h with
  | nil => exact ⟨[], .nil, fun _ hm => absurd hm List.not_mem_nil⟩
  | @char c html text h1 h2 _ ih =>
    obtain ⟨list, hl, hP⟩ := ih
    have hc : TagFree [c] := tagFree_cons.mpr ⟨⟨h1, h2⟩, TagFree.nil⟩
    exact ⟨list, (HasTags.tagFree hc).append hl, hP⟩
  | @tag body html text hB hb _ ih =>
    obtain ⟨list, hl, hP⟩ := ih
    refine ⟨body :: list, ?_, fun tag hm => ?_⟩
    · have := (HasTags.tag hb).append hl
      simpa using this
    · rcases List.mem_cons.mp hm with rfl | hm
      · exact hB
      · exact hP tag hm

/-- A start of a tagged text that holds no tag is a start of what is shown, and what follows it
is tagged again. -/
theorem split {html text a rest : Text} (h : Tagged P html text) (e : html = a ++ rest)
    (ha : '<' ∉ a) : ∃ text', text = a ++ text' ∧ Tagged P rest text' := by
  induction h generalizing a with
  | nil =>
    obtain ⟨rfl, rfl⟩ := List.append_eq_nil_iff.mp e.symm
    exact ⟨[], rfl, .nil⟩
  | @char c html text h1 h2 h ih =>
    cases a with
    | nil =>
      subst e
      exact ⟨c :: text, rfl, .char h1 h2 h⟩
    | cons d a =>
      obtain ⟨rfl, htail⟩ := List.cons.inj e
      obtain ⟨text', rfl, h'⟩ := ih htail fun hm => ha (List.mem_cons_of_mem c hm)
      exact ⟨text', rfl, h'⟩
  | @tag body html text hP hb h ih =>
    cases a with
    | nil =>
      subst e
      exact ⟨text, rfl, .tag hP hb h⟩
    | cons d a =>
      obtain ⟨rfl, -⟩ := List.cons.inj e
      exact absurd List.mem_cons_self ha

end Tagged

end CodeAtlas.Markup
