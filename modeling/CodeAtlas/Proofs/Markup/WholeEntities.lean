/-
  File:      CodeAtlas/Proofs/Markup/WholeEntities.lean
  Subject:   What the filters do to the entities of a text.

  A text is escaped before it is marked up, so the filters run over text in which
  the names of entities look like words.

  * `Whole`: every `&` of a text starts one of some entities. Texts with whole
    entities can be put together, and cut behind or before a character that no
    entity holds.
  * `Torn`: some `&` of a text stands before a tag.
  * `highlightKeywords_keeps`: emphasising reserved words leaves the entities
    whole, or tears one whose name is reserved.
  * `whole_linkUris`, `Linker.whole_linkWords`: linking addresses and names leaves
    whole entities whole; and what is torn stays torn.
-/
import CodeAtlas.Proofs.Markup.Entities
import CodeAtlas.Proofs.Markup.Links

namespace CodeAtlas.Markup

/-! ## 1. Whole entities -/

/-- The entities that a line is written with. -/
def lineEntities : List Text := entities.map (·.1)

/-- The entities of shown text. Attributes may hold one more. -/
def shownEntities : List Text := lineEntities ++ ["&#x27;".toList]

/-- Every `&` of the text is the first character of one of the entities. -/
def Whole (forms : List Text) (text : Text) : Prop :=
  ∀ before rest, text = before ++ '&' :: rest → ∃ form ∈ forms, form <+: '&' :: rest

/-- Some `&` of the text stands before a tag. -/
def Torn (text : Text) : Prop := ['&', '<'] <:+: text

section

variable {forms : List Text} {text a b : Text}

theorem Whole.of_not_mem (h : '&' ∉ text) : Whole forms text := by
  rintro before rest rfl
  exact absurd (List.mem_append_right before List.mem_cons_self) h

theorem Whole.mono {others : List Text} (h : Whole forms text) (hsub : forms ⊆ others) :
    Whole others text := by
  intro before rest e
  obtain ⟨form, hform, hp⟩ := h before rest e
  exact ⟨form, hsub hform, hp⟩

theorem Whole.shown (h : Whole lineEntities text) : Whole shownEntities text :=
  h.mono (List.subset_append_left _ _)

theorem Whole.append (ha : Whole forms a) (hb : Whole forms b) : Whole forms (a ++ b) := by
  intro before rest e
  rcases List.append_eq_append_iff.mp e with ⟨between, rfl, hrest⟩ | ⟨between, rfl, hrest⟩
  · exact hb between rest hrest
  · cases between with
    | nil => exact hb [] rest (by simpa using hrest.symm)
    | cons c between =>
      obtain ⟨rfl, rfl⟩ := List.cons.inj hrest
      obtain ⟨form, hform, hp⟩ := ha before between rfl
      exact ⟨form, hform, hp.trans (List.prefix_append ('&' :: between) b)⟩

theorem Whole.cons {c : Char} (hc : c ≠ '&') (h : Whole forms text) : Whole forms (c :: text) :=
  Whole.append (a := [c]) (.of_not_mem fun hm => hc (List.mem_singleton.mp hm).symm) h

theorem Whole.of_append_right (h : Whole forms (a ++ b)) : Whole forms b := by
  rintro before rest rfl
  exact h (a ++ before) rest (List.append_assoc ..).symm

/-- A text may be cut before a character that no entity holds. -/
theorem Whole.of_append_left (h : Whole forms (a ++ b))
    (hb : ∀ c, b.head? = some c → ∀ form ∈ forms, c ∉ form) : Whole forms a := by
  rintro before rest rfl
  obtain ⟨form, hform, hp⟩ := h before (rest ++ b) (by simp)
  rw [← List.cons_append] at hp
  exact ⟨form, hform, prefix_of_prefix_append hp fun c hc => hb c hc form hform⟩

/-- A line with whole entities goes on with one at every `&`. -/
theorem Whole.entity {rest : Text} (h : Whole lineEntities ('&' :: rest)) :
    ∃ form ∈ lineEntities, ∃ later, '&' :: rest = form ++ later ∧
      later.length < ('&' :: rest).length ∧ Whole lineEntities later := by
  obtain ⟨form, hform, later, e⟩ := h [] rest rfl
  have hne : ∀ form ∈ lineEntities, form ≠ [] := by decide
  rw [← e] at h
  exact ⟨form, hform, later, e.symm, length_lt_of_append e.symm (hne form hform), h.of_append_right⟩

theorem whole_of_mem_shownEntities {form : Text} (h : form ∈ shownEntities)
    (hforms : form ∈ forms) : Whole forms form := by
  have hall : ∀ form ∈ shownEntities, ∃ tail, form = '&' :: tail ∧ '&' ∉ tail := by
    simp only [shownEntities, lineEntities, entities, List.map_cons, List.map_nil,
      List.cons_append, List.nil_append, List.forall_mem_cons]
    exact ⟨⟨_, rfl, by decide⟩, ⟨_, rfl, by decide⟩, ⟨_, rfl, by decide⟩, ⟨_, rfl, by decide⟩,
      ⟨_, rfl, by decide⟩, ⟨_, rfl, by decide⟩, List.forall_mem_nil _⟩
  obtain ⟨tail, rfl, htail⟩ := hall form h
  intro before rest e
  cases before with
  | nil => exact ⟨'&' :: tail, hforms, ⟨[], by rw [List.append_nil]; exact e⟩⟩
  | cons c before =>
    obtain ⟨-, rfl⟩ := List.cons.inj e
    exact absurd (List.mem_append_right before List.mem_cons_self) htail

/-- A text with whole entities is not torn. -/
theorem Whole.not_torn (h : Whole shownEntities text) : ¬ Torn text := by
  rintro ⟨before, after, rfl⟩
  obtain ⟨form, hform, hp⟩ := h before ('<' :: after) (by simp)
  have hsecond : ∀ form ∈ shownEntities, 2 ≤ form.length ∧ '<' ∉ form := by decide
  obtain ⟨hlength, hbracket⟩ := hsecond form hform
  have htwo : form.take 2 = ['&', '<'] := by
    obtain ⟨more, e⟩ := hp
    have := congrArg (List.take 2) e
    rwa [List.take_append_of_le_length hlength] at this
  exact hbracket (List.mem_of_mem_take (htwo ▸ by simp : '<' ∈ form.take 2))

theorem Torn.append_left (h : Torn a) (b : Text) : Torn (a ++ b) :=
  h.trans (List.prefix_append a b).isInfix

theorem Torn.append_right (a : Text) (h : Torn b) : Torn (a ++ b) :=
  h.trans (List.suffix_append a b).isInfix

/-- Two texts put together are torn where one of them is, or between them. -/
theorem torn_append_cases (h : Torn (a ++ b)) :
    Torn a ∨ Torn b ∨ (∃ start, a = start ++ ['&']) ∧ b.head? = some '<' := by
  obtain ⟨before, after, e⟩ := h
  rw [List.append_assoc] at e
  rcases List.append_eq_append_iff.mp e with ⟨more, rfl, hb⟩ | ⟨more, rfl, hb⟩
  · match more, hb with
    | [], hb => exact Or.inr (Or.inl ⟨[], after, by simpa using hb⟩)
    | [c], hb =>
      obtain ⟨rfl, rfl⟩ := List.cons.inj hb
      exact Or.inr (Or.inr ⟨⟨before, rfl⟩, rfl⟩)
    | c :: d :: more, hb =>
      obtain ⟨rfl, hd⟩ := List.cons.inj hb
      obtain ⟨rfl, -⟩ := List.cons.inj hd
      exact Or.inl ⟨before, more, by simp⟩
  · exact Or.inr (Or.inl ⟨more, after, by simp [hb]⟩)

end

/-! ## 2. Escaped texts -/

theorem Encodes.whole {html text : Text} (h : Encodes html text) : Whole lineEntities html := by
  induction h with
  | nil => exact .of_not_mem List.not_mem_nil
  | char hc _ _ _ ih => exact ih.cons hc
  | entity he _ ih =>
    have hform := List.mem_map_of_mem (f := Prod.fst) he
    exact (whole_of_mem_shownEntities (List.mem_append_left _ hform) hform).append ih

/-- An escaped line holds whole entities. -/
theorem whole_escapeLine (line : Text) : Whole lineEntities (escapeLine line) :=
  (encodes_escapeLine line).whole

theorem whole_escapeAttribute (text : Text) : Whole shownEntities (escapeAttribute text) := by
  rw [escapeAttribute_eq_flatMap]
  induction text with
  | nil => exact .of_not_mem List.not_mem_nil
  | cons c text ih =>
    rw [List.flatMap_cons]
    refine Whole.append ?_ ih
    cases hc : isHidden c with
    | false =>
      rw [escapeChar_eq_singleton hc]
      refine .of_not_mem fun hm => ?_
      rw [← List.mem_singleton.mp hm] at hc
      exact nomatch hc
    | true =>
      have hform : escapeChar c ∈ shownEntities := by
        rcases hidden_cases hc with rfl | rfl | rfl | rfl | rfl <;> decide
      exact whole_of_mem_shownEntities hform hform

/-! ## 3. Addresses -/

/-- A run of address characters ends before an entity or goes on behind it. -/
theorem whole_uriRun {text : Text} (h : Whole lineEntities text) :
    Whole lineEntities (uriRun text) := by
  induction hn : text.length using Nat.strong_induction_on generalizing text with
  | h n ih =>
    subst hn
    cases text with
    | nil => exact .of_not_mem List.not_mem_nil
    | cons c rest =>
      by_cases hc : c = '&'
      · subst hc
        obtain ⟨form, hform, later, e, hlength, hlater⟩ := h.entity
        rw [e]
        have hmore := ih later.length hlength hlater rfl
        simp only [lineEntities, entities, List.map_cons, List.map_nil, List.mem_cons,
          List.not_mem_nil, or_false] at hform
        rcases hform with rfl | hform
        · have hamp : uriRun ("&amp;".toList ++ later) = "&amp;".toList ++ uriRun later := rfl
          rw [hamp]
          exact (whole_of_mem_shownEntities (by decide) (by decide)).append hmore
        · have hends : uriRun (form ++ later) = [] := by
            rcases hform with rfl | rfl | rfl | rfl <;> rfl
          rw [hends]
          exact .of_not_mem List.not_mem_nil
      · have hrest : Whole lineEntities rest := Whole.of_append_right (a := [c]) h
        unfold uriRun
        split
        · exact (ih rest.length (Nat.lt_succ_self _) hrest rfl).cons hc
        · exact .of_not_mem List.not_mem_nil

theorem whole_uri? {text uri : Text} (h : Whole lineEntities text) (hu : uri? text = some uri) :
    Whole lineEntities uri := by
  unfold uri? at hu
  split at hu
  · exact nomatch hu
  · rename_i start hstart
    have hmem : start ∈ uriStarts := List.mem_of_find?_eq_some hstart
    have hfree : ∀ start ∈ uriStarts, '&' ∉ start := by decide
    have hdrop : Whole lineEntities (text.drop start.length) := by
      rw [← List.take_append_drop start.length text] at h
      exact h.of_append_right
    split at hu
    · exact nomatch hu
    · cases hu
      exact (Whole.of_not_mem (hfree start hmem)).append (whole_uriRun hdrop)

theorem whole_uriLink {uri : Text} (h : Whole lineEntities uri) :
    Whole lineEntities (uriLink uri) :=
  ((((Whole.of_not_mem (by decide)).append h).append (.of_not_mem (by decide))).append h).append
    (.of_not_mem (by decide))

/-- No address starts in an entity. -/
theorem linkUrisFrom_entity {form : Text} (h : form ∈ lineEntities) (later : Text) :
    linkUrisFrom 0 (form ++ later) = form ++ linkUrisFrom 0 later := by
  simp only [lineEntities, entities, List.map_cons, List.map_nil, List.mem_cons,
    List.not_mem_nil, or_false] at h
  rcases h with rfl | rfl | rfl | rfl | rfl <;> rfl

/-- **Linking addresses leaves entities whole.** -/
theorem whole_linkUris {text : Text} (h : Whole lineEntities text) :
    Whole lineEntities (linkUris text) := by
  unfold linkUris
  induction hn : text.length using Nat.strong_induction_on generalizing text with
  | h n ih =>
    subst hn
    cases text with
    | nil => exact .of_not_mem List.not_mem_nil
    | cons c rest =>
      by_cases hc : c = '&'
      · subst hc
        obtain ⟨form, hform, later, e, hlength, hlater⟩ := h.entity
        rw [e, linkUrisFrom_entity hform]
        exact (whole_of_mem_shownEntities (List.mem_append_left _ hform) hform).append
          (ih later.length hlength hlater rfl)
      · rcases linkUrisFrom_cases c rest with ⟨uri, later, hu, e, hlength, hlink⟩ | hcopy
        · have hlater : Whole lineEntities later := Whole.of_append_right (a := uri) (e ▸ h)
          rw [hlink]
          exact (whole_uriLink (whole_uri? h hu)).append (ih later.length hlength hlater rfl)
        · have hrest : Whole lineEntities rest := Whole.of_append_right (a := [c]) h
          rw [hcopy]
          exact (ih rest.length (Nat.lt_succ_self _) hrest rfl).cons hc

/-- The link of an address that ends with `&` has its end tag behind it. -/
theorem torn_uriLink (start : Text) : Torn (uriLink (start ++ ['&'])) := by
  have hclose : "</a>".toList = '<' :: "/a>".toList := rfl
  have hend : Torn (start ++ ['&'] ++ "</a>".toList) := by
    rw [hclose]
    exact ⟨start, "/a>".toList, by simp only [List.append_assoc, List.cons_append, List.nil_append]⟩
  have hlink (uri : Text) : uriLink uri = "<a href=\"".toList ++ uri ++
      "\" target=\"alexandria_uri\">".toList ++ (uri ++ "</a>".toList) := List.append_assoc _ _ _
  rw [hlink]
  exact hend.append_right _

/-- **What is torn stays torn** when addresses are linked, even by an address that ends with the
`&`. -/
theorem torn_linkUris {text : Text} (h : Torn text) : Torn (linkUris text) := by
  unfold linkUris
  induction hn : text.length using Nat.strong_induction_on generalizing text with
  | h n ih =>
    subst hn
    cases text with
    | nil => exact absurd h.length_le (by decide)
    | cons c rest =>
      rcases linkUrisFrom_cases c rest with ⟨uri, later, hu, e, hlength, hlink⟩ | hcopy
      · rw [hlink]
        rcases torn_append_cases (e ▸ h) with hin | hlater | ⟨⟨start, rfl⟩, -⟩
        · exact absurd (hin.subset (by simp)) (uri?_spec hu).1.tagFree.1
        · exact (ih later.length hlength hlater rfl).append_right _
        · exact (torn_uriLink start).append_left _
      · rw [hcopy]
        rcases List.infix_cons_iff.mp h with hp | hrest
        · obtain ⟨more, e⟩ := hp
          obtain ⟨rfl, rfl⟩ := List.cons.inj e
          have hbracket : linkUrisFrom 0 (['<'] ++ more) = ['<'] ++ linkUrisFrom 0 more :=
            linkUrisFrom_append (by decide) (by decide) more
          exact ⟨[], linkUrisFrom 0 more, (congrArg ('&' :: ·) hbracket).symm⟩
        · exact (ih rest.length (Nat.lt_succ_self _) hrest rfl).append_right [c]

/-! ## 4. Reserved words -/

/-- The entities that have names which look like words. -/
def entityNames : List Text := ["amp", "lt", "gt", "quot"]

/-- The entity with a name. -/
def namedEntity (name : Text) : Text := '&' :: name ++ [';']

theorem mem_lineEntities {form : Text} (h : form ∈ lineEntities) :
    form = "&#92;".toList ∨ ∃ name ∈ entityNames, form = namedEntity name := by
  simp only [lineEntities, entities, List.map_cons, List.map_nil, List.mem_cons,
    List.not_mem_nil, or_false] at h
  rcases h with rfl | rfl | rfl | rfl | rfl
  · exact Or.inr ⟨"amp", by decide, rfl⟩
  · exact Or.inr ⟨"lt", by decide, rfl⟩
  · exact Or.inr ⟨"gt", by decide, rfl⟩
  · exact Or.inr ⟨"quot", by decide, rfl⟩
  · exact Or.inl rfl

/-- The name of an entity is shown as a word. -/
theorem highlightKeywordsFrom_namedEntity (reserved : List Text) (inName : Bool) {name : Text}
    (h : name ∈ entityNames) (later : Text) :
    highlightKeywordsFrom reserved inName 0 (namedEntity name ++ later) =
      '&' :: (showWord reserved name (';' :: later) ++
        ';' :: highlightKeywordsFrom reserved false 0 later) := by
  simp only [entityNames, List.mem_cons, List.not_mem_nil, or_false] at h
  rcases h with rfl | rfl | rfl | rfl <;> cases inName <;> rfl

theorem highlightKeywordsFrom_backslash (reserved : List Text) (inName : Bool) (later : Text) :
    highlightKeywordsFrom reserved inName 0 ("&#92;".toList ++ later) =
      "&#92;".toList ++ highlightKeywordsFrom reserved false 0 later := by
  cases inName <;> rfl

theorem showWord_of_mem {reserved : List Text} {name : Text} (h : name ∈ reserved)
    (hname : name ∈ entityNames) (rest : Text) :
    showWord reserved name rest = "<strong class=\"jxr_keyword\">" ++ name ++ "</strong>" := by
  have hclass : ∀ name ∈ entityNames, (name == "class".toList) = false := by decide
  unfold showWord
  rw [if_neg (by simpa using h), hclass name hname, Bool.false_and, if_neg Bool.false_ne_true]

theorem not_mem_showWord {reserved : List Text} {word : Text} (h : '&' ∉ word) (rest : Text) :
    '&' ∉ showWord reserved word rest := by
  have hopen : '&' ∉ "<strong class=\"jxr_keyword\">".toList := by decide
  have hclose : '&' ∉ "</strong>".toList := by decide
  unfold showWord
  split_ifs
  · exact h
  · exact h
  · simp only [List.mem_append, not_or]
    exact ⟨⟨hopen, h⟩, hclose⟩

theorem not_mem_of_name? {text name : Text} (h : name? text = some name) : '&' ∉ name := by
  unfold name? at h
  split at h
  · cases h
  · split at h
    · rename_i c rest hc
      cases h
      intro hm
      rcases List.mem_cons.mp hm with rfl | hm
      · exact absurd hc (by decide)
      · exact absurd (List.mem_takeWhile_imp hm) (by decide)
    · cases h

/-- What emphasising reserved words makes of the entities of a text: they are whole, or one whose
name is reserved is torn. -/
inductive Keeps (reserved : List Text) (text html : Text) : Prop where
  | whole (h : Whole lineEntities html)
  | torn (h : Torn html) {name : Text} (hname : name ∈ entityNames) (hreserved : name ∈ reserved)
      (hin : namedEntity name <:+: text)

/-- What is whole before may be left out. -/
theorem Keeps.append {reserved : List Text} {part shown text html : Text}
    (hshown : Whole lineEntities shown) (h : Keeps reserved text html) :
    Keeps reserved (part ++ text) (shown ++ html) := by
  cases h with
  | whole h => exact .whole (hshown.append h)
  | torn h hname hreserved hin =>
    exact .torn (h.append_right shown) hname hreserved (hin.trans (List.suffix_append ..).isInfix)

/-- **Emphasising reserved words leaves the entities of a text whole, or tears one whose name is
reserved.** -/
theorem highlightKeywords_keeps (reserved : List Text) {text : Text}
    (h : Whole lineEntities text) (inName : Bool) :
    Keeps reserved text (highlightKeywordsFrom reserved inName 0 text) := by
  induction hn : text.length using Nat.strong_induction_on generalizing text inName with
  | h n ih =>
    subst hn
    cases text with
    | nil => exact .whole (.of_not_mem List.not_mem_nil)
    | cons c rest =>
      by_cases hc : c = '&'
      · subst hc
        obtain ⟨form, hform, later, e, hlength, hlater⟩ := h.entity
        have hmore := ih later.length hlength hlater false rfl
        have hwhole : Whole lineEntities form :=
          whole_of_mem_shownEntities (List.mem_append_left _ hform) hform
        rw [e]
        rcases mem_lineEntities hform with rfl | ⟨name, hname, rfl⟩
        · rw [highlightKeywordsFrom_backslash]
          exact hmore.append hwhole
        · rw [highlightKeywordsFrom_namedEntity reserved inName hname]
          by_cases hreserved : name ∈ reserved
          · rw [showWord_of_mem hreserved hname]
            exact .torn ⟨[], _, rfl⟩ hname hreserved (List.prefix_append ..).isInfix
          · have hword : showWord reserved name (';' :: later) = name := by
              simp [showWord, hreserved]
            have happ : '&' :: (name ++ ';' :: highlightKeywordsFrom reserved false 0 later) =
                namedEntity name ++ highlightKeywordsFrom reserved false 0 later := by
              simp [namedEntity]
            rw [hword, happ]
            exact hmore.append hwhole
      · obtain ⟨part, later, shown, inName', e, hlength, hstep, hpart⟩ :=
          highlightKeywordsFrom_cases reserved inName c rest
        have hshown : Whole lineEntities shown := by
          rcases hpart with ⟨hu, rfl⟩ | ⟨hname, after, rfl⟩ | ⟨rfl, rfl⟩
          · exact whole_uri? h hu
          · exact .of_not_mem (not_mem_showWord (not_mem_of_name? hname) after)
          · exact .of_not_mem fun hm => hc (List.mem_singleton.mp hm).symm
        have hlater : Whole lineEntities later := Whole.of_append_right (a := part) (e ▸ h)
        rw [hstep, e]
        exact (ih later.length hlength hlater inName' rfl).append hshown

/-! ## 5. Names -/

theorem whole_nameLink (href : Text) {name : Text} (h : '&' ∉ name) :
    Whole shownEntities (nameLink href name) :=
  ((((Whole.of_not_mem (by decide)).append (whole_escapeAttribute href)).append
    (.of_not_mem (by decide))).append (.of_not_mem h)).append (.of_not_mem (by decide))

theorem whole_declarationAnchor (declaration : Declaration) {name : Text} (h : '&' ∉ name) :
    Whole shownEntities (declarationAnchor declaration name) :=
  ((((Whole.of_not_mem (by decide)).append (whole_escapeAttribute declaration.name)).append
    (.of_not_mem (by decide))).append (.of_not_mem h)).append (.of_not_mem (by decide))

namespace Linker

/-- What is replaced in a word is a name at its start, without entities. -/
theorem linkWord_whole {linker : Linker} {line : Nat} {placed after : Placed}
    {previous word name replacement : Text}
    (h : linker.linkWord line placed previous word = (some (name, replacement), after)) :
    name <+: word ∧ '&' ∉ name ∧ Whole shownEntities replacement := by
  have hfree {name : Text} (hmem : name ∈ nameCandidates word) : '&' ∉ name := fun hm => by
    rcases (nameCandidates_spec hmem).2 '&' hm with hc | hc
    · exact absurd hc (by decide)
    · exact absurd hc (by decide)
  rcases linker.linkWord_cases line placed previous word with e | ⟨n, d, hm, -, e⟩ | ⟨n, t, hm, -, e⟩
  · cases e.symm.trans h
  · cases e.symm.trans h
    exact ⟨(nameCandidates_spec hm).1, hfree hm, whole_declarationAnchor d (hfree hm)⟩
  · cases e.symm.trans h
    exact ⟨(nameCandidates_spec hm).1, hfree hm, whole_nameLink _ (hfree hm)⟩

/-- A word keeps its entities whole, and stays torn, when a name in it is replaced. -/
theorem rewriteWord_whole {linker : Linker} {line : Nat} {placed after : Placed}
    {previous word : Text} {link : Option (Text × Text)}
    (h : linker.linkWord line placed previous word = (link, after)) :
    (Whole shownEntities word → Whole shownEntities (rewriteWord link word)) ∧
      (Torn word → Torn (rewriteWord link word)) := by
  cases link with
  | none => exact ⟨id, id⟩
  | some found =>
    obtain ⟨name, replacement⟩ := found
    obtain ⟨⟨more, rfl⟩, hfree, hreplacement⟩ := linkWord_whole h
    rw [rewriteWord, List.drop_left]
    exact ⟨fun hw => hreplacement.append hw.of_append_right,
      fun ht => Torn.append_right _ (infix_of_infix_append hfree ht)⟩

theorem ne_amp_of_isBreaker {c : Char} (h : isBreaker c = true) : c ≠ '&' := by
  rintro rfl
  exact nomatch h

/-- What stands behind a word starts with a character that no entity holds. -/
theorem head?_dropWhile_not_mem {rest : Text} {c : Char}
    (h : (rest.dropWhile (!isBreaker ·)).head? = some c) : ∀ form ∈ shownEntities, c ∉ form := by
  have hbreaker : isBreaker c = true := by
    have := List.head?_dropWhile_not (!isBreaker ·) rest
    rw [h] at this
    simpa using this
  have hall : ∀ form ∈ shownEntities, (form.all fun c => !isBreaker c) = true := by decide
  intro form hform hm
  have hnot := List.all_eq_true.mp (hall form hform) c hm
  rw [hbreaker] at hnot
  exact absurd hnot (by decide)

/-- **Linking names leaves entities whole.** -/
theorem whole_linkWords (linker : Linker) (line : Nat) (placed : Placed) (previous : Text)
    {text : Text} (h : Whole shownEntities text) :
    Whole shownEntities (linker.linkWords line placed previous text).1 := by
  fun_induction linkWords linker line placed previous text with
  | case1 => exact h
  | case2 placed previous c rest hc shown final he ih =>
    have hrest : Whole shownEntities rest := Whole.of_append_right (a := [c]) h
    rw [he] at ih
    exact (ih hrest).cons (ne_amp_of_isBreaker hc)
  | case3 placed previous c rest hc word link after hl shown final he ih =>
    have htext : c :: rest = word ++ rest.dropWhile (!isBreaker ·) := by simp [word]
    rw [htext] at h
    have hword : Whole shownEntities word := h.of_append_left fun d => head?_dropWhile_not_mem
    rw [he] at ih
    exact ((rewriteWord_whole hl).1 hword).append (ih h.of_append_right)

/-- What is torn stays torn when names are linked. -/
theorem torn_linkWords (linker : Linker) (line : Nat) (placed : Placed) (previous : Text)
    {text : Text} (h : Torn text) :
    Torn (linker.linkWords line placed previous text).1 := by
  fun_induction linkWords linker line placed previous text with
  | case1 => exact absurd h.length_le (by decide)
  | case2 placed previous c rest hc shown final he ih =>
    rw [he] at ih
    rcases List.infix_cons_iff.mp h with hp | hrest
    · obtain ⟨more, e⟩ := hp
      exact absurd (List.cons.inj e).1.symm (ne_amp_of_isBreaker hc)
    · exact (ih hrest).append_right [c]
  | case3 placed previous c rest hc word link after hl shown final he ih =>
    have htext : c :: rest = word ++ rest.dropWhile (!isBreaker ·) := by simp [word]
    rw [htext] at h
    rw [he] at ih
    rcases torn_append_cases h with hword | hrest | ⟨-, hhead⟩
    · exact ((rewriteWord_whole hl).2 hword).append_left _
    · exact (ih hrest).append_right _
    · have := List.head?_dropWhile_not (!isBreaker ·) rest
      rw [hhead] at this
      exact absurd this (by decide)

end Linker

end CodeAtlas.Markup
