/-
  File:      CodeAtlas/Proofs/Page/Ids.lean
  Subject:   The ids of a page, and when they are all different.

  * `idsOf`: the values of the `id` attributes of a tag, read at its double
    quotes; `ids` those of all tags of a text.
  * `RowsMark.ids_perm`: the ids of the rows are their numbers and the names that
    are anchored in them.
  * `hasIds_pageHeader`, `ids_pageFooter`: what the two divisions add.
  * `RowMarks.mem_claimed_iff`: which names a row anchors on themselves.
  * `Linker.ids_nodup_iff`: the ids of a page differ just if no type is named like
    a row or a division, and a name that is declared twice on its first line is
    claimed by a word of that line. `Linker.ids_repeated` has two pages whose ids
    do not differ.
-/
import CodeAtlas.Proofs.Page.Anchors

namespace CodeAtlas

namespace Markup

/-! ## 1. The ids of a tag -/

/-- The values after ` id=` in a tag that was split at its double quotes: what leads to a value,
the value, and so on. -/
def idValues : List Text → List Text
  | lead :: value :: rest =>
    (if " id=".toList.isSuffixOf lead then [value] else []) ++ idValues rest
  | _ => []

/-- The ids of a tag. -/
def idsOf (tag : Text) : List Text := idValues (tag.splitOn '"')

/-- The ids of a text, in the order of its tags. -/
def ids (html : Text) : List Text := (tags html).flatMap idsOf

/-- The first quoted value of a tag, and the ids after it. -/
theorem idsOf_quoted (lead : Text) {value : Text} (hl : '"' ∉ lead) (hv : '"' ∉ value)
    (rest : Text) :
    idsOf (lead ++ '"' :: (value ++ '"' :: rest)) =
      (if " id=".toList.isSuffixOf lead then [value] else []) ++ idsOf rest := by
  unfold idsOf
  rw [List.splitOn_append_cons_self_of_not_mem hl, List.splitOn_append_cons_self_of_not_mem hv]
  rfl

theorem idValues_cons_of_not_suffix {lead : Text} (h : ¬ " id=".toList <:+ lead) (value : Text)
    (rest : List Text) : idValues (lead :: value :: rest) = idValues rest := by
  have hno : " id=".toList.isSuffixOf lead = false := by
    rw [Bool.eq_false_iff]
    exact fun hs => h (List.isSuffixOf_iff_suffix.mp hs)
  rw [idValues, hno]
  rfl

theorem idValues_eq_nil {parts : List Text} (h : ∀ part ∈ parts, ¬ " id=".toList <:+ part) :
    idValues parts = [] := by
  fun_induction idValues parts with
  | case1 lead value rest ih =>
    have hrest := ih fun part hp => h part (List.mem_cons_of_mem _ (List.mem_cons_of_mem _ hp))
    rw [← idValues, idValues_cons_of_not_suffix (h lead List.mem_cons_self), hrest]
  | case2 => rfl

/-- A value after an even number of quotes, where no ids stand before it. -/
theorem idValues_append {parts : List Text} (hodd : parts.length % 2 = 1)
    (h : ∀ part ∈ parts, ¬ " id=".toList <:+ part) (value : Text) (rest : List Text) :
    idValues (parts ++ value :: rest) = idValues rest := by
  fun_induction idValues parts with
  | case1 lead inner parts ih =>
    rw [List.length_cons, List.length_cons, Nat.add_assoc, Nat.add_mod_right] at hodd
    rw [List.cons_append, List.cons_append,
      idValues_cons_of_not_suffix (h lead List.mem_cons_self)]
    exact ih hodd fun part hp => h part (List.mem_cons_of_mem _ (List.mem_cons_of_mem _ hp))
  | case2 parts hshort =>
    match parts with
    | [] => exact nomatch hodd
    | [lead] => exact idValues_cons_of_not_suffix (h lead List.mem_cons_self) value rest
    | lead :: inner :: parts => exact absurd rfl (hshort lead inner parts)

/-- A tag without ` id=` has no ids. -/
theorem idsOf_eq_nil {tag : Text} (h : ¬ " id=".toList <:+: tag) : idsOf tag = [] :=
  idValues_eq_nil fun _ hp hs => h (hs.isInfix.trans (infix_of_mem_splitOn hp))

/-- Neither has one with ` id=` in a value only. -/
theorem idsOf_value {lead value rest : Text} (hodd : (lead.splitOn '"').length % 2 = 1)
    (hl : ¬ " id=".toList <:+: lead) (hv : '"' ∉ value) (hr : ¬ " id=".toList <:+: rest) :
    idsOf (lead ++ '"' :: (value ++ '"' :: rest)) = [] := by
  unfold idsOf
  rw [List.splitOn_append_cons_self, List.splitOn_append_cons_self_of_not_mem hv,
    idValues_append hodd fun _ hp hs => hl (hs.isInfix.trans (infix_of_mem_splitOn hp))]
  exact idsOf_eq_nil hr

theorem idsOf_form {form : Text → Text} {rest : Text}
    (hform : ∀ name, form name = "a id=\"" ++ (escapeAttribute name ++ '"' :: rest))
    (hrest : idsOf rest = []) (name : Text) : idsOf (form name) = [escapeAttribute name] := by
  have h := idsOf_quoted "a id=" (by decide) (quote_not_mem_escapeAttribute name) rest
  rw [hrest] at h
  rw [hform]
  exact h

theorem idsOf_idTag (name : Text) : idsOf (idTag name) = [escapeAttribute name] :=
  idsOf_form (fun _ => List.append_assoc _ _ _) rfl name

theorem idsOf_anchorTag (name : Text) : idsOf (anchorTag name) = [escapeAttribute name] :=
  idsOf_form (fun name => (anchorTag_eq name).trans (idStart_append _ _))
    (idsOf_eq_nil (by decide)) name

theorem idsOf_linkTag (href : Text) : idsOf (linkTag href) = [] := by
  have e : linkTag href = "a href=".toList ++ '"' :: (escapeAttribute href ++ ['"']) :=
    List.append_assoc _ _ _
  rw [e]
  exact idsOf_value (by decide) (by decide) (quote_not_mem_escapeAttribute href) (by decide)

/-- The id of a row. -/
def lineId (number : Nat) : Text := 'L' :: Text.ofNat number

theorem lineId_injective : Function.Injective lineId := by
  intro m n h
  have hdigits : Text.ofNat m = Text.ofNat n := (List.cons.inj h).2
  unfold Text.ofNat at hdigits
  rw [← Nat.ofDigitChars_ten_toDigits (n := m), hdigits, Nat.ofDigitChars_ten_toDigits]

theorem idsOf_numberTag (number : Nat) : idsOf (numberTag number) = [lineId number] := by
  have hdigits := not_mem_ofNat (c := '"') (by decide) number
  have hid : '"' ∉ lineId number := List.not_mem_cons_of_ne_of_not_mem (by decide) hdigits
  have hhref : '"' ∉ '#' :: lineId number := List.not_mem_cons_of_ne_of_not_mem (by decide) hid
  have e : numberTag number = "a class=".toList ++ '"' :: ("jxr_linenumber" ++ '"' ::
      (" id=" ++ '"' :: (lineId number ++ '"' :: (" href=" ++ '"' ::
        (('#' :: lineId number) ++ '"' :: []))))) := by
    unfold numberTag lineId
    simp only [List.append_assoc]
    rfl
  rw [e, idsOf_quoted _ (by decide) (by decide), idsOf_quoted _ (by decide) hid,
    idsOf_quoted _ (by decide) hhref]
  rfl

/-! ## 2. The ids of a text -/

/-- A text with all its tags closed, and its ids. -/
structure HasIds (html : Text) (list : List Text) : Prop where
  ids_eq : ids html = list
  closed : tagAfter none html = none

theorem ids_append {a : Text} (h : tagAfter none a = none) (b : Text) :
    ids (a ++ b) = ids a ++ ids b := by
  unfold ids tags
  rw [tagsFrom_append, h, List.flatMap_append]

namespace HasIds

theorem append {a b : Text} {x y : List Text} (ha : HasIds a x) (hb : HasIds b y) :
    HasIds (a ++ b) (x ++ y) := by
  constructor
  · rw [ids_append ha.closed, ha.ids_eq, hb.ids_eq]
  · rw [tagAfter_append, ha.closed, hb.closed]

theorem of_hasTags {html : Text} {list : List Text} (h : HasTags html list) :
    HasIds html (list.flatMap idsOf) := by
  refine ⟨?_, h.closed⟩
  unfold ids
  rw [h.tags_eq]

/-- A tag and a text after it. -/
theorem tag {body text : Text} (hb : TagFree body) (ht : TagFree text) :
    HasIds ('<' :: body ++ ['>'] ++ text) (idsOf body) := by
  have h := of_hasTags ((HasTags.tag hb).append (.tagFree ht))
  rwa [List.append_nil, List.flatMap_singleton] at h

/-- A tag with a value that is no id, and a text after it. -/
theorem value (lead rest text : Text) {value : Text}
    (hfree : TagFree lead ∧ TagFree rest ∧ TagFree text)
    (hodd : (lead.splitOn '"').length % 2 = 1)
    (hid : ¬ " id=".toList <:+: lead ∧ ¬ " id=".toList <:+: rest)
    (hv : TagFree value) (hq : '"' ∉ value) :
    HasIds ('<' :: lead ++ ['"'] ++ value ++ ('"' :: rest ++ ['>'] ++ text)) [] := by
  have hquote : TagFree ['"'] := by decide
  have hbody : TagFree (lead ++ (['"'] ++ (value ++ (['"'] ++ rest)))) := by
    simp only [tagFree_append]
    exact ⟨hfree.1, hquote, hv, hquote, hfree.2.1⟩
  have h := tag hbody hfree.2.2
  have hnone : idsOf (lead ++ (['"'] ++ (value ++ (['"'] ++ rest)))) = [] :=
    idsOf_value hodd hid.1 hq hid.2
  have e : '<' :: (lead ++ (['"'] ++ (value ++ (['"'] ++ rest)))) ++ ['>'] ++ text =
      '<' :: lead ++ ['"'] ++ value ++ ('"' :: rest ++ ['>'] ++ text) := by
    simp only [List.append_assoc, List.cons_append, List.nil_append]
  rwa [e, hnone] at h

end HasIds

/-! ## 3. The ids of the rows -/

/-- Among marks, the ids are those of the anchors. -/
theorem Marks.ids_eq {linker : Linker} {form : Text → Text} {tags names : List Text}
    (h : Marks linker form tags names) (hform : ∀ name, idsOf (form name) = [escapeAttribute name]) :
    tags.flatMap idsOf = names.map escapeAttribute := by
  induction h with
  | nil => rfl
  | mute ht _ ih => rw [List.flatMap_cons, idsOf_eq_nil ht.2, ih, List.nil_append]
  | link _ _ ih => rw [List.flatMap_cons, idsOf_linkTag, ih, List.nil_append]
  | anchor _ ih => rw [List.flatMap_cons, hform, ih, List.map_cons, List.singleton_append]

/-- A row has its number and the names that it anchors as ids. -/
theorem RowMarks.hasIds {linker : Linker} {number : Nat} {placed : Placed} {row : Text}
    {claimed : List Text} (h : RowMarks linker number placed row claimed) :
    HasIds row (lineId number ::
      (linker.anchoredOn number placed claimed).map escapeAttribute) := by
  obtain ⟨empties, tags, htags, hempties, hmarks⟩ := h.tags
  have hids := HasIds.of_hasTags htags
  rw [List.flatMap_cons, List.flatMap_cons, List.flatMap_append, idsOf_numberTag,
    idsOf_eq_nil mute_slashA.2, hempties.ids_eq idsOf_idTag, hmarks.ids_eq idsOf_anchorTag,
    ← List.map_append] at hids
  exact hids

/-- **The ids of the rows** are their numbers and the names that are anchored in them. -/
theorem RowsMark.ids_perm {linker : Linker} {number : Nat} {placed final : Placed}
    {rows : List Text} {anchored : List (List Text)}
    (h : RowsMark linker number placed rows anchored final) :
    (ids rows.flatten).Perm
      ((List.range' number rows.length).map lineId ++ anchored.flatten.map escapeAttribute) := by
  induction h with
  | nil => exact .nil
  | @cons number placed final row rows claimed anchored hrow hrows ih =>
    rw [List.flatten_cons, ids_append hrow.closed, hrow.hasIds.ids_eq, List.length_cons,
      List.range'_succ, List.map_cons, List.flatten_cons, List.map_append]
    refine List.Perm.cons _ ?_
    refine (ih.append_left _).trans ?_
    exact List.perm_append_comm_assoc _ _ _

/-! ## 4. Header and footer -/

theorem TagFree.rootRef (source : SourceFile) : TagFree source.rootRef := by
  refine .of_forall fun c hc => ?_
  rcases Linker.mem_rootRef hc with rfl | rfl <;> decide

theorem quote_not_mem_rootRef (source : SourceFile) : '"' ∉ source.rootRef := fun hm =>
  absurd (Linker.mem_rootRef hm) (by decide)

theorem hasIds_header (locale encoding title : Text) (source : SourceFile)
    {revision overview : Text} {list : List Text} (hr : HasIds revision [])
    (ho : HasIds overview list) :
    HasIds ("<!DOCTYPE html>\n" ++
      "<html lang=\"" ++ escapeAttribute locale ++ "\">\n" ++
      "<head>\n" ++
      "<meta charset=\"" ++ escapeAttribute encoding ++ "\" />\n" ++
      revision ++
      "<title>" ++ escapeAttribute title ++ " xref</title>\n" ++
      "<link type=\"text/css\" rel=\"stylesheet\" href=\"" ++ source.rootRef ++ stylesheetName ++
      "\" />\n" ++
      "</head>\n" ++
      "<body>\n" ++
      overview ++
      "<pre>\n") list := by
  have hstart : HasIds "<!DOCTYPE html>\n" [] := ⟨rfl, rfl⟩
  have hlocale : HasIds ("<html lang=\"" ++ escapeAttribute locale ++ "\">\n") [] :=
    .value "html lang=" [] "\n" (by decide) (by decide) (by decide)
      (tagFree_escapeAttribute locale) (quote_not_mem_escapeAttribute locale)
  have hhead : HasIds "<head>\n" [] := ⟨rfl, rfl⟩
  have hencoding : HasIds ("<meta charset=\"" ++ escapeAttribute encoding ++ "\" />\n") [] :=
    .value "meta charset=" " /" "\n" (by decide) (by decide) (by decide)
      (tagFree_escapeAttribute encoding) (quote_not_mem_escapeAttribute encoding)
  have htitle : HasIds ("<title>" ++ escapeAttribute title ++ " xref</title>\n") [] :=
    (HasIds.append ⟨rfl, rfl⟩ (.of_hasTags (.tagFree (tagFree_escapeAttribute title)))).append
      ⟨rfl, rfl⟩
  have hlink : HasIds ("<link type=\"text/css\" rel=\"stylesheet\" href=\"" ++
      (source.rootRef ++ stylesheetName) ++ "\" />\n") [] :=
    .value "link type=\"text/css\" rel=\"stylesheet\" href=" " /" "\n" (by decide) (by decide)
      (by decide) (tagFree_append.mpr ⟨.rootRef source, by decide⟩)
      (List.not_mem_append (quote_not_mem_rootRef source) (by decide))
  have hbody : HasIds ("</head>\n" ++ "<body>\n") [] := ⟨rfl, rfl⟩
  have hend : HasIds "<pre>\n" [] := ⟨rfl, rfl⟩
  have h := ((((((((hstart.append hlocale).append hhead).append hencoding).append hr).append
    htitle).append hlink).append hbody).append ho).append hend
  simpa only [List.append_assoc, List.nil_append, List.append_nil] using h

theorem hasIds_overview (link : Text) :
    HasIds ("<div id=\"overview\"><a href=\"" ++ escapeAttribute link ++
      "\">View Javadoc</a></div>\n") ["overview"] := by
  have hdivision : HasIds "<div id=\"overview\">" ["overview"] := ⟨by decide, rfl⟩
  have hlink : HasIds ("<a href=\"" ++ escapeAttribute link ++ "\">View Javadoc") [] :=
    .value "a href=" [] "View Javadoc" (by decide) (by decide) (by decide)
      (tagFree_escapeAttribute link) (quote_not_mem_escapeAttribute link)
  have hend : HasIds "</a></div>\n" [] := ⟨rfl, rfl⟩
  have h := (hdivision.append hlink).append hend
  have e1 : "<div id=\"overview\"><a href=\"".toList =
      "<div id=\"overview\">".toList ++ "<a href=\"".toList := rfl
  have e2 : "\">View Javadoc</a></div>\n".toList =
      "\">View Javadoc".toList ++ "</a></div>\n".toList := rfl
  rw [e1, e2]
  simpa only [List.append_assoc, List.append_nil] using h

/-- The ids that a page has for itself before its first row. -/
def headerIds (options : PageOptions) : List Text :=
  if options.apiFolder.isSome then ["overview"] else []

theorem hasIds_pageHeader (source : SourceFile) (options : PageOptions) (current : Path)
    (pageFolder : Option Path) :
    HasIds (pageHeader source options current pageFolder) (headerIds options) := by
  unfold pageHeader
  refine hasIds_header _ _ _ source ?_ ?_
  · split
    · rename_i c name _
      exact .value "meta name=\"revision\" content=" " /" "\n" (by decide) (by decide) (by decide)
        (tagFree_escapeAttribute (c :: name)) (quote_not_mem_escapeAttribute (c :: name))
    · exact ⟨rfl, rfl⟩
  · unfold headerIds
    cases options.apiFolder with
    | none => exact ⟨rfl, rfl⟩
    | some folder => exact hasIds_overview (source.apiLink folder current pageFolder)

/-- After a character, what has been read of the open tag and what follows are still the end of
what there was. -/
theorem readTag_isSuffix (state : Option Text) (c : Char) (text : Text) :
    (readTag state c).2.getD [] ++ text <:+ state.getD [] ++ c :: text := by
  have hclosed : text <:+ state.getD [] ++ c :: text :=
    (List.suffix_cons c text).trans (List.suffix_append _ _)
  by_cases hlt : c = '<'
  · subst hlt
    cases state <;> exact hclosed
  · by_cases hgt : c = '>'
    · subst hgt
      cases state <;> exact hclosed
    · rw [readTag_of_ne hlt hgt]
      cases state with
      | none => exact hclosed
      | some tag =>
        show tag ++ [c] ++ text <:+ tag ++ c :: text
        rw [List.append_assoc]
        exact List.suffix_refl _

theorem mem_readTag {state : Option Text} {c : Char} {tag : Text} (h : tag ∈ (readTag state c).1) :
    state = some tag := by
  cases state with
  | none => exact absurd h List.not_mem_nil
  | some open' =>
    simp only [readTag] at h
    split_ifs at h
    · rw [List.mem_singleton.mp h]
    · rw [List.mem_singleton.mp h]
    · exact absurd h List.not_mem_nil

/-- The tags of a text, and the one that is open after it, are parts of it. -/
theorem isInfix_of_mem_tagsFrom {state : Option Text} {text tag : Text}
    (h : tag ∈ tagsFrom state text ++ (tagAfter state text).toList) :
    tag <:+: state.getD [] ++ text := by
  induction text generalizing state with
  | nil =>
    have hopen : state = some tag := Option.mem_toList.mp h
    rw [hopen]
    exact (List.prefix_append tag []).isInfix
  | cons c text ih =>
    rw [tagsFrom, tagAfter, List.append_assoc] at h
    rcases List.mem_append.mp h with h | h
    · rw [mem_readTag h]
      exact (List.prefix_append tag (c :: text)).isInfix
    · exact (ih h).trans (readTag_isSuffix state c text).isInfix

theorem ids_pageFooter {options : PageOptions} (h : ¬ "id=".toList <:+: options.bottom) :
    ids (pageFooter options) = ["footer"] := by
  have hnone : ∀ tag ∈ tagsFrom none options.bottom ++ (tagAfter none options.bottom).toList,
      idsOf tag = [] := by
    intro tag hm
    refine idsOf_eq_nil fun hi => h (List.IsInfix.trans ?_ (hi.trans (isInfix_of_mem_tagsFrom hm)))
    exact ⟨[' '], [], rfl⟩
  have hstart : HasIds ("</pre>\n" ++ "<hr/>\n" ++ "<div id=\"footer\">") ["footer"] :=
    ⟨by decide, rfl⟩
  -- a tag that the footer leaves open ends where the next one starts
  have hend : ∀ state, tagsFrom state "</div>\n</body>\n</html>\n" =
      state.toList ++ ["/div".toList, "/body", "/html"] := by
    intro state
    cases state <;> rfl
  have e : pageFooter options = "</pre>\n" ++ "<hr/>\n" ++ "<div id=\"footer\">" ++
      (options.bottom ++ "</div>\n</body>\n</html>\n") := by
    unfold pageFooter
    simp only [List.append_assoc]
    rfl
  rw [e, ids_append hstart.closed, hstart.ids_eq]
  unfold ids tags
  rw [tagsFrom_append, hend, ← List.append_assoc, List.flatMap_append,
    List.flatMap_eq_nil_iff.mpr hnone]
  rfl

/-! ## 5. Names that are claimed -/

/-- Among marks, a tag with the start of an anchor is the anchor of that name. -/
theorem Marks.eq_form {linker : Linker} {form : Text → Text} (hform : IsForm form)
    {tags names : List Text} (h : Marks linker form tags names) {tag name : Text} (hm : tag ∈ tags)
    (hp : idStart (escapeAttribute name) <+: tag) : name ∈ names ∧ tag = form name := by
  induction h with
  | nil => exact absurd hm List.not_mem_nil
  | mute ht _ ih =>
    rcases List.mem_cons.mp hm with rfl | hm
    · exact absurd hp (not_idStart_isPrefix_of_mute ht)
    · exact ih hm
  | link _ _ ih =>
    rcases List.mem_cons.mp hm with rfl | hm
    · obtain ⟨_, e⟩ := hp
      exact nomatch e
    · exact ih hm
  | @anchor other tags names _ ih =>
    rcases List.mem_cons.mp hm with rfl | hm
    · have e := (idStart_isPrefix_iff hform (quote_not_mem_escapeAttribute name) other).mp hp
      cases escapeAttribute_injective e
      exact ⟨List.mem_cons_self, rfl⟩
    · exact ⟨List.mem_cons_of_mem other (ih hm).1, (ih hm).2⟩

theorem Marks.form_mem {linker : Linker} {form : Text → Text} {tags names : List Text}
    (h : Marks linker form tags names) {name : Text} (hm : name ∈ names) : form name ∈ tags := by
  induction h with
  | nil => exact absurd hm List.not_mem_nil
  | mute _ _ ih => exact List.mem_cons_of_mem _ (ih hm)
  | link _ _ ih => exact List.mem_cons_of_mem _ (ih hm)
  | anchor _ ih =>
    rcases List.mem_cons.mp hm with rfl | hm
    · exact List.mem_cons_self
    · exact List.mem_cons_of_mem _ (ih hm)

/-- A name is claimed just if the row has an anchor on it, and not only an empty one. -/
theorem RowMarks.mem_claimed_iff {linker : Linker} {number : Nat} {placed : Placed} {row : Text}
    {claimed : List Text} (h : RowMarks linker number placed row claimed) {name : Text} :
    name ∈ claimed ↔ '<' :: anchorTag name <:+: row := by
  obtain ⟨empties, tags, htags, hempties, hmarks⟩ := h.tags
  rw [← occurrences_pos_iff, htags.occurrences_eq (tagFree_anchorTag name), List.countP_pos_iff]
  constructor
  · intro hm
    refine ⟨anchorTag name, ?_, List.isPrefixOf_iff_prefix.mpr (List.prefix_refl _)⟩
    exact List.mem_cons_of_mem _ (List.mem_cons_of_mem _
      (List.mem_append_right empties (hmarks.form_mem hm)))
  · rintro ⟨tag, hm, hp⟩
    have hp := List.isPrefixOf_iff_prefix.mp hp
    have hstart : idStart (escapeAttribute name) <+: tag := by
      rw [anchorTag_eq] at hp
      exact (List.prefix_append _ _).trans hp
    rcases List.mem_cons.mp hm with rfl | hm
    · exact absurd hstart (not_idStart_isPrefix_numberTag _ number)
    rcases List.mem_cons.mp hm with rfl | hm
    · exact absurd hstart (not_idStart_isPrefix_of_mute mute_slashA)
    rcases List.mem_append.mp hm with hm | hm
    · -- an empty anchor is too short
      obtain ⟨-, rfl⟩ := hempties.eq_form isForm_idTag hm hstart
      have hlength := hp.length_le
      rw [anchorTag_eq, List.length_append] at hlength
      exact absurd hlength (Nat.not_le.mpr (Nat.lt_add_of_pos_right (by decide)))
    · exact (hmarks.eq_form isForm_anchorTag hm hstart).1

/-- **The names anchored in the rows differ** just if each one that is declared twice on its first
line is claimed there. -/
theorem RowsMark.nodup_iff_claimed {linker : Linker} {final : Placed} {rows : List Text}
    {anchored : List (List Text)} (h : RowsMark linker 1 [] rows anchored final)
    (hline : ∀ declaration ∈ linker.source.types,
      1 ≤ declaration.line ∧ declaration.line ≤ rows.length) :
    anchored.flatten.Nodup ↔ ∀ declaration ∈ linker.source.types,
      ∀ first ∈ linker.source.firstLine? declaration.name,
        2 ≤ ((linker.declarationsOn first).map (·.name)).count declaration.name →
          ∃ row ∈ rows[first - 1]?, '<' :: anchorTag declaration.name <:+: row := by
  rw [h.nodup_iff]
  constructor
  · intro hall declaration _ first hfirst htwo
    obtain ⟨row, before, claimed, hrow, hnames, hmarks, _, hbefore⟩ :=
      h.exists_firstRow hline hfirst
    have hnodup := hmarks.nodup_iff.mp (hall _ (List.mem_of_getElem? hnames))
    refine ⟨row, hrow, hmarks.mem_claimed_iff.mp ?_⟩
    by_contra hc
    have hle := hnodup declaration.name hbefore hc
    omega
  · intro hall names hm
    obtain ⟨n, row, before, claimed, _, hrow, rfl, hmarks, hbefore⟩ := h.exists_row_of_mem hm
    rw [hmarks.nodup_iff]
    intro name hfresh hc
    rw [hbefore, not_or] at hfresh
    by_contra hgt
    have htwo : 2 ≤ ((linker.declarationsOn (1 + n)).map (·.name)).count name := by omega
    obtain ⟨d, hd, rfl, hdline⟩ := Linker.mem_declarationsOn_iff.mp
      (List.count_pos_iff.mp (Nat.lt_of_lt_of_le Nat.zero_lt_two htwo))
    -- no line before this one declares the name
    have hfirst : linker.source.firstLine? d.name = some (1 + n) := by
      refine SourceFile.firstLine?_eq_some_iff.mpr ⟨⟨d, hd, rfl, hdline⟩, fun other ho hname => ?_⟩
      by_contra hlt
      have hlow := (hline other ho).1
      refine hfresh.2 ⟨other.line - 1, by omega, Linker.mem_declarationsOn_iff.mpr ?_⟩
      exact ⟨other, ho, hname, by omega⟩
    obtain ⟨found, hfound, hin⟩ := hall d hd (1 + n) hfirst htwo
    rw [Nat.add_sub_cancel_left] at hfound
    cases hfound.symm.trans hrow
    exact hc (hmarks.mem_claimed_iff.mpr hin)

/-! ## 6. The ids of a page -/

/-- The ids that a page has for itself: those of its two divisions and its rows. -/
def ownIds (options : PageOptions) (count : Nat) : List Text :=
  headerIds options ++ ((List.range' 1 count).map lineId ++ ["footer".toList])

theorem nodup_ownIds (options : PageOptions) (count : Nat) : (ownIds options count).Nodup := by
  have hnumbers : ((List.range' 1 count).map lineId).Nodup :=
    (List.nodup_map_iff lineId_injective).mpr List.nodup_range'
  have hletter : ∀ id ∈ (List.range' 1 count).map lineId, id.head? = some 'L' := by
    intro id hid
    obtain ⟨n, _, rfl⟩ := List.mem_map.mp hid
    rfl
  have hrest : ((List.range' 1 count).map lineId ++ ["footer".toList]).Nodup := by
    refine List.nodup_append.mpr ⟨hnumbers, List.nodup_singleton _, ?_⟩
    rintro id hid _ hfooter rfl
    rw [List.mem_singleton.mp hfooter] at hid
    exact absurd (hletter _ hid) (by decide)
  have hoverview : "overview".toList ∉ (List.range' 1 count).map lineId ++ ["footer".toList] := by
    refine List.not_mem_append (fun hm => ?_) (by decide)
    exact absurd (hletter _ hm) (by decide)
  unfold ownIds headerIds
  split
  · exact List.nodup_cons.mpr ⟨hoverview, hrest⟩
  · exact hrest

namespace Linker

/-- **The ids of a page** without a row of its own for anchors. -/
theorem ids_page_perm {linker : Linker} {lines : List Text} {options : PageOptions}
    (current : Path) (pageFolder : Option Path) (hbottom : ¬ "id=".toList <:+: options.bottom)
    {anchored : List (List Text)}
    (hmark : RowsMark linker 1 [] (linker.rows 1 [] .code lines).1 anchored
      (linker.rows 1 [] .code lines).2)
    (hleft : linker.leftoverRow (linker.rows 1 [] .code lines).2 = []) :
    (ids (linker.page lines options current pageFolder)).Perm
      (ownIds options lines.length ++ anchored.flatten.map escapeAttribute) := by
  have hheader := hasIds_pageHeader linker.source options current pageFolder
  have hclosed : tagAfter none (pageHeader linker.source options current pageFolder ++
      (linker.rows 1 [] .code lines).1.flatten) = none := by
    rw [tagAfter_append, hheader.closed, hmark.closed]
  have hrows := hmark.ids_perm
  rw [linker.length_rows] at hrows
  rw [page_eq, hleft, List.append_nil, ids_append hclosed, ids_append hheader.closed,
    hheader.ids_eq, ids_pageFooter hbottom]
  unfold ownIds
  rw [List.append_assoc, List.append_assoc, List.append_assoc]
  refine List.Perm.append_left _ ((hrows.append_right _).trans ?_)
  rw [List.append_assoc]
  exact List.Perm.append_left _ List.perm_append_comm

/-- **The ids of a page are all different** just if no type is named like a row or a division of
the page, and each type that is declared twice on its first line is anchored on its name there.
The footer has no ids of its own. -/
theorem ids_nodup_iff (text : Text) (path : Path) (language : Language) (encoding : Option Text)
    (table : SymbolTable) (options : PageOptions) (current : Path) (pageFolder : Option Path)
    (hbottom : ¬ "id=".toList <:+: options.bottom) :
    let source := SourceFile.ofText text path language encoding
    let linker := ofLanguage source table language
    let rows := (linker.rows 1 [] .code (splitLines text)).1
    (ids (linker.page (splitLines text) options current pageFolder)).Nodup ↔
      (∀ declaration ∈ source.types,
        declaration.name ∉ ownIds options (splitLines text).length) ∧
      ∀ declaration ∈ source.types, ∀ first ∈ source.firstLine? declaration.name,
        2 ≤ ((linker.declarationsOn first).map (·.name)).count declaration.name →
          ∃ row ∈ rows[first - 1]?,
            ("<a id=\"" ++ declaration.name ++ "\" class=\"jxr_declaration\"" : Text) <:+: row := by
  intro source linker rows
  obtain ⟨anchored, hmark⟩ := linker.rowsMark_rows 1 [] .code (splitLines text)
  have hleft : linker.leftoverRow (linker.rows 1 [] .code (splitLines text)).2 = [] :=
    leftoverRow_eq_nil fun declaration hd => rows_placed text path language encoding table hd
  have hperm := ids_page_perm current pageFolder hbottom hmark hleft
  have hanchored : ∀ declaration ∈ source.types, declaration.name ∈ anchored.flatten :=
    fun declaration hd =>
      (hmark.mem_final_iff.mp (rows_placed text path language encoding table hd)).resolve_left
        List.not_mem_nil
  have htag : ∀ declaration ∈ source.types, '<' :: anchorTag declaration.name =
      "<a id=\"" ++ declaration.name ++ "\" class=\"jxr_declaration\"" := by
    intro declaration hd
    unfold anchorTag
    rw [escapeAttribute_eq_self (SourceFile.declared_ofText hd).isWord.not_hidden]
    rfl
  rw [hperm.nodup_iff, map_escapeAttribute (isWord_of_anchored hmark),
    List.nodup_append,
    hmark.nodup_iff_claimed (declaration_has_row text path language encoding table)]
  constructor
  · rintro ⟨_, hclaimed, hdisjoint⟩
    refine ⟨fun declaration hd hown => hdisjoint _ hown _ (hanchored declaration hd) rfl, ?_⟩
    intro declaration hd first hfirst htwo
    rw [← htag declaration hd]
    exact hclaimed declaration hd first hfirst htwo
  · rintro ⟨hown, hclaimed⟩
    refine ⟨nodup_ownIds options _, fun declaration hd first hfirst htwo => ?_, ?_⟩
    · rw [htag declaration hd]
      exact hclaimed declaration hd first hfirst htwo
    · rintro name hm _ hm' rfl
      obtain ⟨d, hd, rfl⟩ := hmark.declared hm'
      exact hown d hd hm

/-- Two local types of one name on a line, whose keywords are followed by what is given. -/
def localTypes (gap : Text) : Text :=
  "class A \x7b \x7b class" ++ gap ++ "B \x7b\x7d \x7d \x7b class" ++ gap ++ "B \x7b\x7d \x7d \x7d"

/-- A page with a division for the documentation, and a footer. -/
def sampleOptions : PageOptions where
  apiFolder := some ⟨.relative, ["api"]⟩
  bottom := "<p>End</p>"

theorem ids_nodup_iff_local :
    let source := SourceFile.ofText (localTypes " ") ⟨.relative, ["A.java"]⟩ .java none
    let linker := ofLanguage source ⟨[]⟩ .java
    ¬ "id=".toList <:+: sampleOptions.bottom ∧
      ((linker.declarationsOn 1).map (·.name)).count "A.B".toList = 2 ∧
      (ids (linker.page (splitLines (localTypes " ")) sampleOptions ⟨.root, []⟩ none)).Nodup :=
  ⟨by decide, by decide +kernel,
    (ids_nodup_iff (localTypes " ") ⟨.relative, ["A.java"]⟩ .java none ⟨[]⟩ sampleOptions ⟨.root, []⟩
      none (by decide)).mpr (by decide +kernel)⟩

/-- With a comment after the keyword neither of two local types is claimed, and both get an empty
anchor; and a type may have the name of a row. -/
theorem ids_repeated :
    ¬ "id=".toList <:+: ({} : PageOptions).bottom ∧
      ∀ text ∈ [localTypes "/**/", "class L1 \x7b\x7d"],
        let source := SourceFile.ofText text ⟨.relative, ["A.java"]⟩ .java none
        ¬ (ids ((ofLanguage source (.ofSources [source]) .java).page (splitLines text) {}
          ⟨.root, []⟩ none)).Nodup := by
  decide +kernel

end Linker

end Markup

end CodeAtlas
