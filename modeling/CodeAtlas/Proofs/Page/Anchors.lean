/-
  File:      CodeAtlas/Proofs/Page/Anchors.lean
  Subject:   Where the anchors of declared types stand on a page.

  * `occurrences`: how often a pattern occurs in a text. A pattern that starts a
    tag occurs as often as there are tags that start with it.
  * `RowMarks`, `RowsMark`: the marks of one row, and of one row after the other,
    with the names that are anchored in each. A row anchors exactly those names
    that are declared on its line and have not been placed
    (`RowMarks.mem_anchoredOn`).
  * `Linker.types_anchored_once`: each declared type is anchored once, in the row
    of its first declaration.
-/
import CodeAtlas.Proofs.Page.Rows
import CodeAtlas.Proofs.Source.Outline
import Mathlib.Data.List.Nodup

namespace CodeAtlas

namespace Markup

/-! ## 1. Occurrences of the start of a tag -/

/-- How often a pattern occurs in a text, counted by the places where it starts. -/
def occurrences (pattern text : Text) : Nat := text.tails.countP (pattern.isPrefixOf ·)

theorem occurrences_cons (pattern : Text) (c : Char) (text : Text) :
    occurrences pattern (c :: text) =
      (if pattern <+: c :: text then 1 else 0) + occurrences pattern text := by
  unfold occurrences
  rw [List.tails_cons, List.countP_cons, Nat.add_comm]
  simp only [List.isPrefixOf_iff_prefix]

theorem occurrences_pos_iff {pattern text : Text} :
    0 < occurrences pattern text ↔ pattern <:+: text := by
  unfold occurrences
  rw [List.countP_pos_iff]
  constructor
  · rintro ⟨rest, hr, hp⟩
    exact (List.isPrefixOf_iff_prefix.mp hp).isInfix.trans ((List.mem_tails _ _).mp hr).isInfix
  · intro h
    obtain ⟨rest, hp, hs⟩ := List.infix_iff_prefix_suffix.mp h
    exact ⟨rest, (List.mem_tails _ _).mpr hs, List.isPrefixOf_iff_prefix.mpr hp⟩

/-- Whether a character can stand inside a tag. -/
def isTagChar (c : Char) : Bool := c != '<' && c != '>'

theorem isPrefix_takeWhile_iff {p text : Text} (hp : TagFree p) :
    p <+: text.takeWhile isTagChar ↔ p <+: text := by
  constructor
  · exact fun h => h.trans (List.takeWhile_prefix _)
  · rintro ⟨rest, rfl⟩
    have hall : ∀ c ∈ p, isTagChar c = true := by
      intro c hc
      have h1 : c ≠ '<' := fun e => hp.1 (e ▸ hc)
      have h2 : c ≠ '>' := fun e => hp.2 (e ▸ hc)
      simp [isTagChar, h1, h2]
    rw [List.takeWhile_append_of_pos hall]
    exact List.prefix_append p _

/-- The tags of a text that start with a pattern, counted along the reader: the one that is open
counts if it goes on as the pattern does. -/
theorem countP_tagsFrom {p : Text} (hp : TagFree p) (state : Option Text) {text : Text}
    (h : tagAfter state text = none) :
    (tagsFrom state text).countP (p.isPrefixOf ·) =
      (if ∃ tag, state = some tag ∧ p <+: tag ++ text.takeWhile isTagChar then 1 else 0) +
        occurrences ('<' :: p) text := by
  induction text generalizing state with
  | nil =>
    have hstate : state = none := h
    subst hstate
    simp [tagsFrom, occurrences]
  | cons c text ih =>
    have hnext := ih _ h
    rw [tagsFrom, List.countP_append, hnext, occurrences_cons]
    by_cases hlt : c = '<'
    · subst hlt
      have hstop : ('<' :: text).takeWhile isTagChar = [] := rfl
      have hstart : ('<' :: p <+: '<' :: text) ↔ p <+: text := List.prefix_cons_inj '<'
      cases state with
      | none => simp [readTag, hstart, isPrefix_takeWhile_iff hp]
      | some tag =>
        simp [readTag, hstart, isPrefix_takeWhile_iff hp, hstop, List.isPrefixOf_iff_prefix,
          List.countP_cons]
    · have hno : ¬ '<' :: p <+: c :: text := by
        rintro ⟨rest, e⟩
        exact hlt (List.cons.inj e).1.symm
      rw [if_neg hno, Nat.zero_add]
      by_cases hgt : c = '>'
      · subst hgt
        have hstop : ('>' :: text).takeWhile isTagChar = [] := rfl
        cases state with
        | none => simp [readTag]
        | some tag =>
          simp [readTag, hstop, List.isPrefixOf_iff_prefix, List.countP_cons]
      · have htake : (c :: text).takeWhile isTagChar = c :: text.takeWhile isTagChar := by
          have hc : isTagChar c = true := by simp [isTagChar, hlt, hgt]
          rw [List.takeWhile_cons, if_pos hc]
        rw [readTag_of_ne hlt hgt, htake]
        cases state with
        | none => simp
        | some tag => simp

/-- **The start of a tag occurs as often as there are tags with that start.** -/
theorem HasTags.occurrences_eq {html p : Text} {list : List Text} (h : HasTags html list)
    (hp : TagFree p) : occurrences ('<' :: p) html = list.countP (p.isPrefixOf ·) := by
  have hcount := countP_tagsFrom hp none h.closed
  rw [if_neg (fun hex => by obtain ⟨_, e, _⟩ := hex; exact nomatch e), Nat.zero_add] at hcount
  rw [← hcount, ← h.tags_eq]
  rfl

/-! ## 2. Anchors among marks -/

/-- What the anchor of a name starts with, after its `<`. -/
def idStart (name : Text) : Text := "a id=\"" ++ name ++ "\""

theorem tagFree_idStart {id : Text} (h : TagFree id) : TagFree (idStart id) := by
  unfold idStart
  simp only [tagFree_append]
  exact ⟨⟨by decide, h⟩, by decide⟩

theorem idStart_append (id rest : Text) :
    idStart id ++ rest = "a id=\"" ++ (id ++ '"' :: rest) := by
  unfold idStart
  rw [List.append_assoc, List.append_assoc]
  rfl

/-- Texts without quotes that both end at a quote are the same. -/
theorem eq_of_append_quote_isPrefix {a b rest : Text} (ha : '"' ∉ a) (hb : '"' ∉ b)
    (h : a ++ ['"'] <+: b ++ '"' :: rest) : a = b := by
  induction a generalizing b with
  | nil =>
    cases b with
    | nil => rfl
    | cons d b =>
      obtain ⟨_, e⟩ := h
      exact absurd ((List.cons.inj e).1 ▸ List.mem_cons_self) hb
  | cons c a ih =>
    simp only [List.mem_cons, not_or] at ha
    cases b with
    | nil =>
      obtain ⟨_, e⟩ := h
      exact absurd (List.cons.inj e).1.symm ha.1
    | cons d b =>
      simp only [List.mem_cons, not_or] at hb
      obtain ⟨rfl, htail⟩ := List.cons_prefix_cons.mp h
      rw [ih ha.2 hb.2 htail]

/-- The forms of an anchor: without text, and on a name. -/
def IsForm (form : Text → Text) : Prop :=
  ∀ name, ∃ rest, form name = "a id=\"" ++ (escapeAttribute name ++ '"' :: rest)

theorem isForm_idTag : IsForm idTag := fun _ => ⟨[], List.append_assoc _ _ _⟩

theorem isForm_anchorTag : IsForm anchorTag := fun name =>
  ⟨_, (anchorTag_eq name).trans (idStart_append _ _)⟩

/-- An anchor starts as its name says, and as no other name says. -/
theorem idStart_isPrefix_iff {form : Text → Text} (hform : IsForm form) {id : Text}
    (hid : '"' ∉ id) (name : Text) : idStart id <+: form name ↔ id = escapeAttribute name := by
  obtain ⟨rest, e⟩ := hform name
  rw [e]
  unfold idStart
  rw [List.append_assoc, List.prefix_append_right_inj]
  constructor
  · exact eq_of_append_quote_isPrefix hid (quote_not_mem_escapeAttribute name)
  · rintro rfl
    exact ⟨rest, by simp⟩

theorem not_idStart_isPrefix_of_mute {id tag : Text} (h : Mute tag) : ¬ idStart id <+: tag := by
  intro hp
  refine h.2 (List.IsInfix.trans ?_ hp.isInfix)
  exact ⟨['a'], '"' :: id ++ ['"'], rfl⟩

theorem not_idStart_isPrefix_numberTag (id : Text) (n : Nat) : ¬ idStart id <+: numberTag n := by
  rintro ⟨rest, e⟩
  exact nomatch e

/-- Among marks, the tags with the start of an anchor are those of the names with that id. -/
theorem Marks.countP_eq {linker : Linker} {form : Text → Text} (hform : IsForm form)
    {tags names : List Text} (h : Marks linker form tags names) {id : Text} (hid : '"' ∉ id) :
    tags.countP ((idStart id).isPrefixOf ·) = (names.map escapeAttribute).count id := by
  have hstart : ∀ tag, (idStart id).isPrefixOf tag = true ↔ idStart id <+: tag :=
    fun tag => List.isPrefixOf_iff_prefix
  induction h with
  | nil => rfl
  | mute ht _ ih =>
    rw [List.countP_cons_of_neg ((hstart _).not.mpr (not_idStart_isPrefix_of_mute ht)), ih]
  | link _ _ ih =>
    refine (List.countP_cons_of_neg ((hstart _).not.mpr ?_)).trans ih
    rintro ⟨rest, e⟩
    exact nomatch e
  | @anchor name tags names _ ih =>
    have hiff := (hstart (form name)).trans (idStart_isPrefix_iff hform hid name)
    rw [List.map_cons, List.count_cons, List.countP_cons, ih]
    congr 1
    by_cases he : id = escapeAttribute name
    · rw [if_pos (hiff.mpr he), if_pos (beq_iff_eq.mpr he.symm)]
    · rw [if_neg (hiff.not.mpr he), if_neg (fun hb => he (beq_iff_eq.mp hb).symm)]

/-! ## 3. One row -/

namespace Linker

theorem mem_declarationsOn_iff {linker : Linker} {number : Nat} {name : Text} :
    name ∈ (linker.declarationsOn number).map (·.name) ↔
      ∃ declaration ∈ linker.source.types, declaration.name = name ∧ declaration.line = number := by
  unfold declarationsOn
  simp only [List.mem_map, List.mem_filter, beq_iff_eq]
  constructor
  · rintro ⟨declaration, ⟨hd, hline⟩, hname⟩
    exact ⟨declaration, hd, hname, hline⟩
  · rintro ⟨declaration, hd, hname, hline⟩
    exact ⟨declaration, ⟨hd, hline⟩, hname⟩

/-- The names declared on a line that have not been placed, as often as they are declared. -/
def unplaced (linker : Linker) (number : Nat) (placed : Placed) : List Text :=
  ((linker.declarationsOn number).map (·.name)).filter (!placed.contains ·)

/-- The names that a row anchors: those that no word of its line claims come first, as empty
anchors. -/
def anchoredOn (linker : Linker) (number : Nat) (placed : Placed) (claimed : List Text) :
    List Text :=
  linker.unplaced number (placed ++ claimed) ++ claimed

/-- The names that have been placed after a row. -/
def placedAfter (linker : Linker) (number : Nat) (placed : Placed) (claimed : List Text) : Placed :=
  placed ++ claimed ++ linker.unplaced number (placed ++ claimed)

theorem mem_unplaced {linker : Linker} {number : Nat} {placed : Placed} {name : Text} :
    name ∈ linker.unplaced number placed ↔
      name ∈ (linker.declarationsOn number).map (·.name) ∧ name ∉ placed := by
  simp [unplaced]

end Linker

/-- The marks of a row: its number, empty anchors, and the marks of the line. -/
structure RowMarks (linker : Linker) (number : Nat) (placed : Placed) (row : Text)
    (claimed : List Text) : Prop where
  tags : ∃ empties tags, HasTags row (numberTag number :: "/a".toList :: (empties ++ tags)) ∧
    Marks linker idTag empties (linker.unplaced number (placed ++ claimed)) ∧
    Marks linker anchorTag tags claimed
  claims : Claims linker number placed claimed

theorem marks_emptyAnchors (linker : Linker) (pending : List Declaration) :
    ∃ tags, HasTags (pending.flatMap emptyAnchor) tags ∧
      Marks linker idTag tags (pending.map (·.name)) := by
  induction pending with
  | nil => exact ⟨[], .nil, .nil⟩
  | cons declaration pending ih =>
    obtain ⟨tags, htags, hmarks⟩ := ih
    obtain ⟨hwrap, hclosed⟩ := tagsFrom_wrap (tagFree_idTag declaration.name) TagFree.nil
      tagFree_slashA none
    rw [← emptyAnchor_eq_wrap] at hwrap hclosed
    exact ⟨_, HasTags.append ⟨hwrap, hclosed⟩ htags, .anchor (.mute mute_slashA hmarks)⟩

theorem hasTags_lineNumber (number : Nat) :
    HasTags (lineNumber number) [numberTag number, "/a".toList] := by
  obtain ⟨hwrap, hclosed⟩ := tagsFrom_wrap (tagFree_numberTag number) (tagFree_ofNat number)
    tagFree_slashA none
  rw [lineNumber_eq_wrap]
  exact HasTags.append ⟨hwrap, hclosed⟩ (.tagFree (tagFree_numberPadding number))

/-- **The marks of one row**, and what has been placed after it. -/
theorem Linker.rowMarks_row (linker : Linker) (number : Nat) (placed : Placed)
    (state : CommentState) (line : Text) :
    ∃ claimed, RowMarks linker number placed (linker.row number placed state line).1 claimed ∧
      (linker.row number placed state line).2.1 = linker.placedAfter number placed claimed := by
  obtain ⟨claimed, hout, hclosed, hmarks, hclaims⟩ :=
    linker.places_highlight number placed state line
  obtain ⟨empties, hempties, hanchors⟩ := marks_emptyAnchors linker
    ((linker.declarationsOn number).filter (!(placed ++ claimed).contains ·.name))
  have hbreak : HasTags ['\n'] [] := .tagFree (by decide)
  have hline := HasTags.append ⟨rfl, hclosed⟩ hbreak
  have hrow := ((hasTags_lineNumber number).append hempties).append hline
  have hwhole : (linker.row number placed state line).1 = lineNumber number ++
      ((linker.declarationsOn number).filter (!(placed ++ claimed).contains ·.name)).flatMap
        emptyAnchor ++ ((linker.highlight number placed state line).1 ++ ['\n']) := by
    rw [← hout, ← List.append_assoc]
    rfl
  have hunplaced : ((linker.declarationsOn number).filter
      (!(placed ++ claimed).contains ·.name)).map (·.name) =
        linker.unplaced number (placed ++ claimed) := by
    unfold unplaced
    rw [List.filter_map]
    rfl
  rw [hunplaced] at hanchors
  refine ⟨claimed, ⟨⟨empties, _, hwhole ▸ hrow, hanchors, ?_⟩, hclaims⟩, ?_⟩
  · rw [List.append_nil]
    exact hmarks
  · unfold placedAfter
    rw [← hunplaced, ← hout]
    rfl

namespace RowMarks

variable {linker : Linker} {number : Nat} {placed : Placed} {row : Text} {claimed : List Text}

theorem closed (h : RowMarks linker number placed row claimed) : tagAfter none row = none := by
  obtain ⟨_, _, htags, _⟩ := h.tags
  exact htags.closed

/-- A row anchors the names that are declared on its line and have not been placed. -/
theorem mem_anchoredOn (h : RowMarks linker number placed row claimed) {name : Text} :
    name ∈ linker.anchoredOn number placed claimed ↔
      name ∈ (linker.declarationsOn number).map (·.name) ∧ name ∉ placed := by
  unfold Linker.anchoredOn
  rw [List.mem_append, Linker.mem_unplaced, List.mem_append, not_or]
  constructor
  · rintro (⟨hd, hp, _⟩ | hc)
    · exact ⟨hd, hp⟩
    · exact ⟨List.mem_map.mpr (h.claims.declared name hc), h.claims.fresh name hc⟩
  · rintro ⟨hd, hp⟩
    by_cases hc : name ∈ claimed
    · exact Or.inr hc
    · exact Or.inl ⟨hd, hp, hc⟩

/-- What has been placed after a row: what was placed before, and what is declared on its line. -/
theorem mem_placedAfter (h : RowMarks linker number placed row claimed) {name : Text} :
    name ∈ linker.placedAfter number placed claimed ↔
      name ∈ placed ∨ name ∈ (linker.declarationsOn number).map (·.name) := by
  have hiff : name ∈ linker.placedAfter number placed claimed ↔
      name ∈ placed ∨ name ∈ linker.anchoredOn number placed claimed := by
    simp only [Linker.placedAfter, Linker.anchoredOn, List.mem_append]
    tauto
  rw [hiff, h.mem_anchoredOn]
  tauto

/-- The names anchored in a row differ just if none of them is declared twice without being
claimed. -/
theorem nodup_iff (h : RowMarks linker number placed row claimed) :
    (linker.anchoredOn number placed claimed).Nodup ↔ ∀ name, name ∉ placed → name ∉ claimed →
      ((linker.declarationsOn number).map (·.name)).count name ≤ 1 := by
  have hdisjoint : ∀ x ∈ linker.unplaced number (placed ++ claimed), ∀ y ∈ claimed, x ≠ y := by
    rintro x hx y hy rfl
    exact (Linker.mem_unplaced.mp hx).2 (List.mem_append_right placed hy)
  have hparts : (linker.anchoredOn number placed claimed).Nodup ↔
      (linker.unplaced number (placed ++ claimed)).Nodup := by
    unfold Linker.anchoredOn
    rw [List.nodup_append]
    exact ⟨fun hall => hall.1, fun hfirst => ⟨hfirst, h.claims.nodup, hdisjoint⟩⟩
  rw [hparts, List.nodup_iff_count_le_one]
  unfold Linker.unplaced
  constructor
  · intro hle name hp hc
    have hfree : (!(placed ++ claimed).contains name) = true := by simp [hp, hc]
    have hcount := hle name
    rwa [List.count_filter (p := fun x => !(placed ++ claimed).contains x) hfree] at hcount
  · intro hle name
    by_cases hm : name ∈ placed ++ claimed
    · rw [List.count_eq_zero.mpr fun hin => by simpa [hm] using (List.mem_filter.mp hin).2]
      exact Nat.zero_le 1
    · obtain ⟨hp, hc⟩ := not_or.mp (List.mem_append.not.mp hm)
      exact Nat.le_trans (List.filter_sublist.count_le name) (hle name hp hc)

theorem occurrences_eq (h : RowMarks linker number placed row claimed) {id : Text}
    (hid : '"' ∉ id) (hfree : TagFree id) :
    occurrences ('<' :: idStart id) row =
      ((linker.anchoredOn number placed claimed).map escapeAttribute).count id := by
  have hstart := tagFree_idStart hfree
  have hnot : ∀ tag, ¬ idStart id <+: tag → ¬ (idStart id).isPrefixOf tag = true :=
    fun tag ht hp => ht (List.isPrefixOf_iff_prefix.mp hp)
  obtain ⟨empties, tags, htags, hempties, hmarks⟩ := h.tags
  rw [htags.occurrences_eq hstart,
    List.countP_cons_of_neg (hnot _ (not_idStart_isPrefix_numberTag id number)),
    List.countP_cons_of_neg (hnot _ (not_idStart_isPrefix_of_mute mute_slashA)),
    List.countP_append, hempties.countP_eq isForm_idTag hid, hmarks.countP_eq isForm_anchorTag hid,
    ← List.count_append, ← List.map_append]
  rfl

end RowMarks

/-! ## 4. One row after the other -/

/-- The marks of rows that follow each other, with the names anchored in each row. -/
inductive RowsMark (linker : Linker) :
    Nat → Placed → List Text → List (List Text) → Placed → Prop where
  | nil {number : Nat} {placed : Placed} : RowsMark linker number placed [] [] placed
  | cons {number : Nat} {placed final : Placed} {row : Text} {rows : List Text}
      {claimed : List Text} {anchored : List (List Text)}
      (hrow : RowMarks linker number placed row claimed)
      (hrows : RowsMark linker (number + 1) (linker.placedAfter number placed claimed) rows
        anchored final) :
      RowsMark linker number placed (row :: rows)
        (linker.anchoredOn number placed claimed :: anchored) final

/-- **The marks of all rows.** -/
theorem Linker.rowsMark_rows (linker : Linker) (number : Nat) (placed : Placed)
    (state : CommentState) (lines : List Text) :
    ∃ anchored, RowsMark linker number placed (linker.rows number placed state lines).1 anchored
      (linker.rows number placed state lines).2 := by
  induction lines generalizing number placed state with
  | nil => exact ⟨[], .nil⟩
  | cons line lines ih =>
    obtain ⟨claimed, hrow, hafter⟩ := linker.rowMarks_row number placed state line
    obtain ⟨anchored, hrows⟩ := ih (number + 1) (linker.row number placed state line).2.1
      (linker.row number placed state line).2.2
    refine ⟨linker.anchoredOn number placed claimed :: anchored, .cons hrow ?_⟩
    rw [← hafter]
    exact hrows

namespace RowsMark

variable {linker : Linker} {number : Nat} {placed final : Placed} {rows : List Text}
variable {anchored : List (List Text)}

theorem closed (h : RowsMark linker number placed rows anchored final) :
    tagAfter none rows.flatten = none := by
  induction h with
  | nil => rfl
  | cons hrow _ ih => rw [List.flatten_cons, tagAfter_append, hrow.closed, ih]

theorem occurrences_eq (h : RowsMark linker number placed rows anchored final) {id : Text}
    (hid : '"' ∉ id) (hfree : TagFree id) :
    occurrences ('<' :: idStart id) rows.flatten =
      (anchored.flatten.map escapeAttribute).count id := by
  have hstart := tagFree_idStart hfree
  induction h with
  | nil => rfl
  | cons hrow hrows ih =>
    have htags := HasTags.append ⟨rfl, hrow.closed⟩ ⟨rfl, hrows.closed⟩
    rw [List.flatten_cons, List.flatten_cons, List.map_append, List.count_append, ← ih,
      ← hrow.occurrences_eq hid hfree, htags.occurrences_eq hstart, List.countP_append]
    exact congrArg₂ _ (HasTags.occurrences_eq ⟨rfl, hrow.closed⟩ hstart).symm
      (HasTags.occurrences_eq ⟨rfl, hrows.closed⟩ hstart).symm

theorem mem_final_iff (h : RowsMark linker number placed rows anchored final) {name : Text} :
    name ∈ final ↔ name ∈ placed ∨ name ∈ anchored.flatten := by
  induction h with
  | nil => simp
  | cons hrow _ ih =>
    rw [ih, hrow.mem_placedAfter, List.flatten_cons, List.mem_append, hrow.mem_anchoredOn]
    tauto

theorem declared (h : RowsMark linker number placed rows anchored final) {name : Text}
    (hm : name ∈ anchored.flatten) : ∃ declaration ∈ linker.source.types, declaration.name = name := by
  induction h with
  | nil => exact absurd hm List.not_mem_nil
  | cons hrow _ ih =>
    rcases List.mem_append.mp hm with hm | hm
    · obtain ⟨declaration, hd, hname, _⟩ :=
        Linker.mem_declarationsOn_iff.mp (hrow.mem_anchoredOn.mp hm).1
      exact ⟨declaration, hd, hname⟩
    · exact ih hm

/-- No row anchors a name that has been placed before all of them. -/
theorem not_mem_placed (h : RowsMark linker number placed rows anchored final) {name : Text}
    (hm : name ∈ anchored.flatten) : name ∉ placed := by
  induction h with
  | nil => exact absurd hm List.not_mem_nil
  | cons hrow _ ih =>
    rcases List.mem_append.mp hm with hm | hm
    · exact (hrow.mem_anchoredOn.mp hm).2
    · exact fun hp => ih hm (hrow.mem_placedAfter.mpr (Or.inl hp))

/-- A single row among the others: before it, all names declared on earlier lines are placed. -/
theorem exists_row (h : RowsMark linker number placed rows anchored final) {n : Nat}
    (hn : n < rows.length) :
    ∃ row before claimed, rows[n]? = some row ∧
      anchored[n]? = some (linker.anchoredOn (number + n) before claimed) ∧
      RowMarks linker (number + n) before row claimed ∧
      ∀ name, name ∈ before ↔
        name ∈ placed ∨ ∃ k < n, name ∈ (linker.declarationsOn (number + k)).map (·.name) := by
  induction h generalizing n with
  | nil => exact absurd hn (Nat.not_lt_zero n)
  | @cons number placed final row rows claimed anchored hrow _ ih =>
    cases n with
    | zero => exact ⟨row, placed, claimed, rfl, rfl, hrow, fun name => by simp⟩
    | succ n =>
      have hshift : ∀ k, number + 1 + k = number + (k + 1) := by omega
      obtain ⟨found, before, later, hrows, hanchored, hmarks, hbefore⟩ :=
        ih (Nat.lt_of_succ_lt_succ hn)
      rw [hshift] at hanchored hmarks
      refine ⟨found, before, later, hrows, hanchored, hmarks, fun name => ?_⟩
      rw [hbefore, hrow.mem_placedAfter, or_assoc]
      refine or_congr Iff.rfl ⟨?_, ?_⟩
      · rintro (hd | ⟨k, hk, hd⟩)
        · exact ⟨0, Nat.succ_pos n, hd⟩
        · exact ⟨k + 1, Nat.succ_lt_succ hk, hshift k ▸ hd⟩
      · rintro ⟨k, hk, hd⟩
        cases k with
        | zero => exact Or.inl hd
        | succ k => exact Or.inr ⟨k, Nat.lt_of_succ_lt_succ hk, (hshift k).symm ▸ hd⟩

theorem length_anchored (h : RowsMark linker number placed rows anchored final) :
    anchored.length = rows.length := by
  induction h with
  | nil => rfl
  | cons _ _ ih => exact congrArg Nat.succ ih

theorem exists_row_of_mem (h : RowsMark linker number placed rows anchored final)
    {names : List Text} (hm : names ∈ anchored) :
    ∃ n row before claimed, n < rows.length ∧ rows[n]? = some row ∧
      names = linker.anchoredOn (number + n) before claimed ∧
      RowMarks linker (number + n) before row claimed ∧
      ∀ name, name ∈ before ↔
        name ∈ placed ∨ ∃ k < n, name ∈ (linker.declarationsOn (number + k)).map (·.name) := by
  obtain ⟨n, hn⟩ := List.mem_iff_getElem?.mp hm
  have hlt : n < rows.length := h.length_anchored ▸ (List.getElem?_eq_some_iff.mp hn).1
  obtain ⟨row, before, claimed, hrow, hnames, hmarks, hbefore⟩ := h.exists_row hlt
  exact ⟨n, row, before, claimed, hlt, hrow, Option.some.inj (hn.symm.trans hnames), hmarks, hbefore⟩

/-- Every name declared on a line that has a row is placed in the end. -/
theorem mem_final (h : RowsMark linker number placed rows anchored final)
    {declaration : Declaration} (hd : declaration ∈ linker.source.types)
    (h1 : number ≤ declaration.line) (h2 : declaration.line < number + rows.length) :
    declaration.name ∈ final := by
  induction h with
  | nil => exact absurd (Nat.lt_of_le_of_lt h1 h2) (Nat.lt_irrefl _)
  | @cons number placed final row rows claimed anchored hrow hrows ih =>
    rcases Nat.eq_or_lt_of_le h1 with e | hlt
    · have hon := Linker.mem_declarationsOn_iff.mpr ⟨declaration, hd, rfl, e.symm⟩
      exact hrows.mem_final_iff.mpr (Or.inl (hrow.mem_placedAfter.mpr (Or.inr hon)))
    · refine ih hlt ?_
      rw [List.length_cons] at h2
      omega

/-- No two rows anchor the same name. -/
theorem nodup_iff (h : RowsMark linker number placed rows anchored final) :
    anchored.flatten.Nodup ↔ ∀ names ∈ anchored, names.Nodup := by
  induction h with
  | nil => simp
  | @cons number placed final row rows claimed anchored hrow hrows ih =>
    have hdisjoint : ∀ x ∈ linker.anchoredOn number placed claimed, ∀ y ∈ anchored.flatten,
        x ≠ y := by
      rintro x hx y hy rfl
      exact hrows.not_mem_placed hy (hrow.mem_placedAfter.mpr (Or.inr (hrow.mem_anchoredOn.mp hx).1))
    rw [List.flatten_cons, List.nodup_append, ih, List.forall_mem_cons]
    exact ⟨fun hall => ⟨hall.1, hall.2.1⟩, fun hall => ⟨hall.1, hall.2, hdisjoint⟩⟩

end RowsMark

end Markup

/-! ## 5. The page of a parsed file -/

/-- The first line on which a type of a name is declared. -/
def SourceFile.firstLine? (source : SourceFile) (name : Text) : Option Nat :=
  ((source.types.filter (·.name == name)).map (·.line)).min?

theorem SourceFile.firstLine?_eq_some_iff {source : SourceFile} {name : Text} {first : Nat} :
    source.firstLine? name = some first ↔
      (∃ d ∈ source.types, d.name = name ∧ d.line = first) ∧
      ∀ d ∈ source.types, d.name = name → first ≤ d.line := by
  unfold firstLine?
  rw [List.min?_eq_some_iff]
  refine and_congr ?_ ?_
  · simp only [List.mem_map, List.mem_filter, beq_iff_eq, and_assoc]
  · simp only [List.mem_map, List.mem_filter, beq_iff_eq]
    constructor
    · exact fun h d hd hname => h d.line ⟨d, ⟨hd, hname⟩, rfl⟩
    · rintro h _ ⟨d, ⟨hd, hname⟩, rfl⟩
      exact h d hd hname

theorem SourceFile.exists_firstLine? {source : SourceFile} {declaration : Declaration}
    (h : declaration ∈ source.types) : ∃ first, source.firstLine? declaration.name = some first := by
  cases hmin : source.firstLine? declaration.name with
  | some first => exact ⟨first, rfl⟩
  | none =>
    unfold firstLine? at hmin
    rw [List.min?_eq_none_iff, List.map_eq_nil_iff] at hmin
    have hm : declaration ∈ source.types.filter (·.name == declaration.name) :=
      List.mem_filter.mpr ⟨h, beq_self_eq_true _⟩
    rw [hmin] at hm
    exact absurd hm List.not_mem_nil

/-- The row of the first line that declares a name: there it is declared, and before it has not
been placed. -/
theorem Markup.RowsMark.exists_firstRow {linker : Linker} {final : Placed} {rows : List Text}
    {anchored : List (List Text)} (h : RowsMark linker 1 [] rows anchored final)
    (hline : ∀ declaration ∈ linker.source.types,
      1 ≤ declaration.line ∧ declaration.line ≤ rows.length)
    {name : Text} {first : Nat} (hfirst : linker.source.firstLine? name = some first) :
    ∃ row before claimed, rows[first - 1]? = some row ∧
      anchored[first - 1]? = some (linker.anchoredOn first before claimed) ∧
      RowMarks linker first before row claimed ∧
      name ∈ (linker.declarationsOn first).map (·.name) ∧ name ∉ before := by
  obtain ⟨⟨d, hd, hname, hfound⟩, hleast⟩ := SourceFile.firstLine?_eq_some_iff.mp hfirst
  obtain ⟨hlow, hhigh⟩ := hline d hd
  have hnumber : 1 + (first - 1) = first := by omega
  have hlt : first - 1 < rows.length := by omega
  obtain ⟨row, before, claimed, hrow, hnames, hmarks, hbefore⟩ := h.exists_row hlt
  rw [hnumber] at hnames hmarks
  refine ⟨row, before, claimed, hrow, hnames, hmarks,
    Linker.mem_declarationsOn_iff.mpr ⟨d, hd, hname, hfound⟩, ?_⟩
  rw [hbefore, not_or]
  refine ⟨List.not_mem_nil, ?_⟩
  rintro ⟨k, hk, hearlier⟩
  obtain ⟨other, ho, hsame, hother⟩ := Linker.mem_declarationsOn_iff.mp hearlier
  have hge := hleast other ho hsame
  omega

theorem IsWord.not_hidden {name : Text} (h : IsWord name) :
    ∀ c ∈ name, Markup.isHidden c = false := by
  intro c hc
  cases hh : Markup.isHidden c with
  | false => rfl
  | true =>
    rcases Markup.hidden_cases hh with rfl | rfl | rfl | rfl | rfl <;>
      exact absurd (h.2 _ hc) (by decide)

theorem IsWord.not_mem {name : Text} (h : IsWord name) {c : Char} (hc : isWordPart c = false) :
    c ∉ name := by
  intro hm
  rw [h.2 c hm] at hc
  exact Bool.noConfusion hc

theorem IsWord.tagFree {name : Text} (h : IsWord name) : Markup.TagFree name :=
  ⟨h.not_mem (by decide), h.not_mem (by decide)⟩

namespace Markup.Linker

theorem declaration_has_row (text : Text) (path : Path) (language : Language)
    (encoding : Option Text) (table : SymbolTable) :
    ∀ declaration ∈ (SourceFile.ofText text path language encoding).types,
      1 ≤ declaration.line ∧ declaration.line ≤ ((ofLanguage (.ofText text path language encoding)
        table language).rows 1 [] .code (splitLines text)).1.length := by
  intro declaration hd
  rw [length_rows]
  exact SourceFile.line_ofText hd

theorem isWord_of_anchored {text : Text} {path : Path} {language : Language}
    {encoding : Option Text} {table : SymbolTable} {number : Nat} {placed final : Placed}
    {rows : List Text} {anchored : List (List Text)}
    (h : RowsMark (ofLanguage (.ofText text path language encoding) table language) number placed
      rows anchored final) : ∀ name ∈ anchored.flatten, IsWord name := by
  intro name hm
  obtain ⟨declaration, hd, rfl⟩ := h.declared hm
  exact (SourceFile.declared_ofText hd).isWord

/-- The rows of the page of a parsed file place all its declarations. -/
theorem rows_placed (text : Text) (path : Path) (language : Language) (encoding : Option Text)
    (table : SymbolTable) {declaration : Declaration}
    (h : declaration ∈ (SourceFile.ofText text path language encoding).types) :
    declaration.name ∈ ((ofLanguage (.ofText text path language encoding) table language).rows 1 []
      .code (splitLines text)).2 := by
  obtain ⟨anchored, hmark⟩ := (ofLanguage (.ofText text path language encoding) table
    language).rowsMark_rows 1 [] .code (splitLines text)
  obtain ⟨h1, h2⟩ := declaration_has_row text path language encoding table declaration h
  exact hmark.mem_final h h1 (by omega)

theorem leftoverRow_eq_nil {linker : Linker} {placed : Placed}
    (h : ∀ declaration ∈ linker.source.types, declaration.name ∈ placed) :
    linker.leftoverRow placed = [] := by
  have hnone : linker.source.types.filter (!placed.contains ·.name) = [] := by
    rw [List.filter_eq_nil_iff]
    intro declaration hd
    simpa using h declaration hd
  simp only [leftoverRow, emptyAnchors, hnone]
  rfl

/-- If no two declarations have the same name and line, no line declares a name twice. -/
theorem nodup_declarationsOn {linker : Linker}
    (h : (linker.source.types.map fun d => (d.name, d.line)).Nodup) (n : Nat) :
    ((linker.declarationsOn n).map (·.name)).Nodup := by
  have hsub : ((linker.declarationsOn n).map fun d => (d.name, d.line)).Nodup :=
    h.sublist (List.filter_sublist.map _)
  have e : ((linker.declarationsOn n).map fun d => (d.name, d.line)) =
      ((linker.declarationsOn n).map (·.name)).map fun name => (name, n) := by
    rw [List.map_map]
    refine List.map_congr_left fun d hd => ?_
    exact congrArg (Prod.mk d.name) (beq_iff_eq.mp (List.mem_filter.mp hd).2)
  rw [e] at hsub
  exact List.Nodup.of_map _ hsub

/-- A row starts with its number. -/
theorem lineNumber_isPrefix {linker : Linker} {number n : Nat} {placed : Placed}
    {state : CommentState} {lines : List Text} {row : Text}
    (h : (linker.rows number placed state lines).1[n]? = some row) :
    lineNumber (number + n) <+: row := by
  have hlt : n < lines.length := by
    rw [← linker.length_rows number placed state lines]
    exact (List.getElem?_eq_some_iff.mp h).1
  obtain ⟨before, open', rfl⟩ :=
    linker.rows_getElem? number placed state (List.getElem?_eq_getElem hlt) h
  refine List.IsPrefix.trans ?_ (List.prefix_append _ ['\n'])
  rw [List.append_assoc]
  exact List.prefix_append _ _

/-- Names that are words are written as they are. -/
theorem map_escapeAttribute {names : List Text} (h : ∀ name ∈ names, IsWord name) :
    names.map escapeAttribute = names :=
  (List.map_congr_left fun name hm => escapeAttribute_eq_self (h name hm).not_hidden).trans
    (List.map_id names)

/-- **Each declared type is anchored exactly once, in the row of its first declaration**, if no
line declares a name twice; and the page has no row for anchors without a line. -/
theorem types_anchored_once (text : Text) (path : Path) (language : Language)
    (encoding : Option Text) (table : SymbolTable) (options : PageOptions) (current : Path)
    (pageFolder : Option Path)
    (hdistinct : ((SourceFile.ofText text path language encoding).types.map
      fun declaration => (declaration.name, declaration.line)).Nodup) :
    let source := SourceFile.ofText text path language encoding
    let linker := ofLanguage source table language
    let rows := (linker.rows 1 [] .code (splitLines text)).1
    linker.page (splitLines text) options current pageFolder =
        pageHeader source options current pageFolder ++ rows.flatten ++ pageFooter options ∧
      rows.length = (splitLines text).length ∧
      ∀ name ∈ source.types.map (·.name), ∃ first row, source.firstLine? name = some first ∧
        rows[first - 1]? = some row ∧ lineNumber first <+: row ∧
        occurrences ("<a id=\"" ++ name ++ "\"") row = 1 ∧
        occurrences ("<a id=\"" ++ name ++ "\"") rows.flatten = 1 := by
  intro source linker rows
  obtain ⟨anchored, hmark⟩ := linker.rowsMark_rows 1 [] .code (splitLines text)
  have hlength : rows.length = (splitLines text).length := linker.length_rows 1 [] .code _
  have hlines := declaration_has_row text path language encoding table
  refine ⟨?_, hlength, ?_⟩
  · rw [page_eq, leftoverRow_eq_nil fun declaration hd =>
      rows_placed text path language encoding table hd, List.append_nil]
    rfl
  · intro name hname
    obtain ⟨declaration, hd, rfl⟩ := List.mem_map.mp hname
    have hword : IsWord declaration.name := (SourceFile.declared_ofText hd).isWord
    have hquote : '"' ∉ declaration.name := hword.not_mem (by decide)
    have hline : ∀ n, ((linker.declarationsOn n).map (·.name)).Nodup :=
      nodup_declarationsOn hdistinct
    have hwords := isWord_of_anchored hmark
    obtain ⟨first, hfirst⟩ := SourceFile.exists_firstLine? hd
    obtain ⟨row, before, claimed, hrow, hnames, hmarks, hon, hbefore⟩ :=
      hmark.exists_firstRow hlines hfirst
    have hin := hmarks.mem_anchoredOn.mpr ⟨hon, hbefore⟩
    have hsub : linker.anchoredOn first before claimed ⊆ anchored.flatten := fun other ho =>
      List.mem_flatten.mpr ⟨_, List.mem_of_getElem? hnames, ho⟩
    have hrowNodup : ∀ names ∈ anchored, names.Nodup := by
      intro names hnames
      obtain ⟨_, _, _, _, _, _, rfl, hmarks, _⟩ := hmark.exists_row_of_mem hnames
      rw [hmarks.nodup_iff]
      exact fun name _ _ => List.nodup_iff_count_le_one.mp (hline _) name
    have hpattern : "<a id=\"" ++ declaration.name ++ "\"" = '<' :: idStart declaration.name := rfl
    have hnumber : 1 + (first - 1) = first := by
      obtain ⟨other, ho, _, rfl⟩ := mem_declarationsOn_iff.mp hon
      exact Nat.add_sub_cancel' (hlines other ho).1
    refine ⟨first, row, hfirst, hrow, hnumber ▸ lineNumber_isPrefix hrow, ?_, ?_⟩
    · rw [hpattern, hmarks.occurrences_eq hquote hword.tagFree,
        map_escapeAttribute fun other ho => hwords other (hsub ho)]
      exact List.count_eq_one_of_mem (hrowNodup _ (List.mem_of_getElem? hnames)) hin
    · rw [hpattern, hmark.occurrences_eq hquote hword.tagFree,
        map_escapeAttribute hwords]
      exact List.count_eq_one_of_mem (hmark.nodup_iff.mpr hrowNodup) (hsub hin)

/-- A nested type, and a type whose name stands on the line after its keyword. -/
def nestedText : Text := "class A \x7b class B \x7b\x7d \x7d\nclass B \x7b\x7d enum\n  C \x7b D \x7d\n"

theorem types_anchored_once_nested :
    let source := SourceFile.ofText nestedText ⟨.relative, ["A.java"]⟩ .java none
    let rows := ((ofLanguage source ⟨[]⟩ .java).rows 1 [] .code (splitLines nestedText)).1
    source.types.map (·.name) = ["A".toList, "A.B", "B", "C"] ∧
      ∃ first row, source.firstLine? "C" = some first ∧ rows[first - 1]? = some row ∧
        lineNumber first <+: row ∧ occurrences ("<a id=\"" ++ "C".toList ++ "\"") row = 1 ∧
        occurrences ("<a id=\"" ++ "C".toList ++ "\"") rows.flatten = 1 := by
  refine ⟨by decide +kernel, ?_⟩
  exact (types_anchored_once nestedText ⟨.relative, ["A.java"]⟩ .java none ⟨[]⟩ {} ⟨.root, []⟩ none
    (by decide +kernel)).2.2 "C" (by decide +kernel)

end Markup.Linker

end CodeAtlas
