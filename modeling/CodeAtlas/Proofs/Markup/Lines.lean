/-
  File:      CodeAtlas/Proofs/Markup/Lines.lean
  Subject:   What a marked-up line shows, and the anchors and links in it.

  Every part of a line is looked at twice. `Shows` says that the part shows the
  text it was made from, which needs that the text has no `mailto:`: an address
  in code, other than in a literal, would take the names in it for types. `Places`
  says which links and anchors the part has, for every text.

  * Comments, literals and keywords are `Tagged Mute`, which gives both at once.
  * `Linker.shows_showPieces`: code is split at double quotes, and comment markers
    stand in literals only, so that what is not in a literal has no address.
  * `Linker.shows_highlight`, `Linker.places_highlight`: the whole line.
-/
import CodeAtlas.Markup.Line
import CodeAtlas.Proofs.Markup.Entities
import CodeAtlas.Proofs.Markup.Marks

namespace CodeAtlas.Markup

/-! ## 1. Comments, literals and plain code -/

theorem Tagged.places {html text : Text} (h : Tagged Mute html text) (linker : Linker)
    (line : Nat) (placed : Placed) : Places linker line none placed (html, placed) :=
  .of_muteFrom (h.muteFrom fun _ hb => hb)

/-- Addresses in a text without tags are linked by mute tags. -/
theorem tagged_linkUris_text {text : Text} (h : TagFree text) : Tagged Mute (linkUris text) text := by
  have hno : Tagged (fun _ => False) text text := .of_tagFree h
  refine (tagged_linkUris (U := IsUri) (fun _ hF => hF.elim) hno fun _ hu _ => hu).mono ?_
  rintro body (hF | ⟨uri, hu, hb⟩)
  · exact hF.elim
  · exact mute_uriTag hu hb

theorem tagged_showComment (kind : CommentState) {text : Text} (h : TagFree text) :
    Tagged Mute (showComment kind text) text := by
  unfold showComment
  split
  · rename_i he
    rw [List.isEmpty_iff.mp he]
    exact .nil
  · have hopen : Tagged Mute ("<em class=\"" ++ kind.style ++ "\">") [] := by
      have e : "<em class=\"" ++ kind.style ++ "\">" =
          '<' :: ("em class=\"" ++ kind.style ++ "\"") ++ ['>'] := by cases kind <;> rfl
      rw [e]
      cases kind <;> exact .of_tag _ (by decide) (by decide)
    have hclose : Tagged Mute "</em>" [] :=
      Tagged.of_tag "/em" (by decide) (by decide)
    have := (hopen.append (tagged_linkUris_text h)).append hclose
    rwa [List.append_nil] at this

theorem tagged_showLiteral {body : Text} (closed : Bool) (h : TagFree body) :
    Tagged Mute (showLiteral body closed) ('"' :: body ++ if closed then ['"'] else []) := by
  have hopen : Tagged Mute "<span class=\"jxr_string\">\"" ['"'] :=
    (Tagged.of_tag "span class=\"jxr_string\"" (by decide) (by decide)).append
      (.char (by decide) (by decide) .nil)
  have hquote : Tagged Mute (if closed then ['"'] else []) (if closed then ['"'] else []) := by
    cases closed
    · exact .nil
    · exact .char (by decide) (by decide) .nil
  have hclose : Tagged Mute "</span>" [] :=
    Tagged.of_tag "/span" (by decide) (by decide)
  have := ((hopen.append (tagged_linkUris_text h)).append hquote).append hclose
  rwa [List.append_nil] at this

theorem tagged_keywords (reserved : List Text) {text : Text} (h : TagFree text) :
    Tagged Mute (highlightKeywords reserved text) text :=
  (tagged_highlightKeywords reserved h).mono fun _ hb => mute_keywordTag hb

/-- No address can start inside the tags around a reserved word. -/
theorem KeywordTag.not_mem {body : Text} (h : KeywordTag body) : 'h' ∉ body ∧ 'm' ∉ body := by
  rcases h with rfl | rfl <;> decide

namespace Linker

/-- Plain code without comment markers and `mailto:` shows itself. -/
theorem shows_showPlain (linker : Linker) (line : Nat) (placed : Placed) {text : Text}
    (ht : TagFree text) (hm : ∀ before rest, text = before ++ rest → startsComment rest = false)
    (hmail : ¬ "mailto:".toList <:+: text) : Shows (linker.showPlain line placed text).1 text := by
  unfold showPlain
  split
  · rename_i he
    rw [List.isEmpty_iff.mp he]
    exact .nil
  · have hk := tagged_highlightKeywords linker.reservedWords ht
    have hu := tagged_linkUris (U := fun _ => False) (fun _ hb => hb.not_mem) hk
      fun _ hu hi => not_isUri_of_markerFree hm hmail hu hi
    refine linker.shows_linkTypes line placed (hu.mono ?_)
    rintro body (hb | ⟨_, hF, _⟩)
    · exact hb
    · exact hF.elim

theorem places_showPlain (linker : Linker) (line : Nat) (placed : Placed) {text : Text}
    (ht : TagFree text) : Places linker line none placed (linker.showPlain line placed text) := by
  unfold showPlain
  split
  · exact Tagged.places .nil linker line placed
  · have hk := tagged_highlightKeywords linker.reservedWords ht
    have hu := tagged_linkUris (U := IsUri) (fun _ hb => hb.not_mem) hk fun _ hu _ => hu
    refine linker.places_linkTypes line placed (hu.muteFrom ?_)
    rintro body (hb | ⟨uri, hisUri, hb⟩)
    · exact mute_keywordTag hb
    · exact mute_uriTag hisUri hb

end Linker

/-! ## 2. Pieces between double quotes -/

/-- Pieces put together with double quotes between them, and one before the first of them if it is
a literal. -/
def joinPieces (literal : Bool) (pieces : List Text) : Text :=
  (if literal && !pieces.isEmpty then ['"'] else []) ++ Text.join ['"'] pieces

theorem joinPieces_true_cons (piece : Text) (rest : List Text) :
    joinPieces true (piece :: rest) =
      '"' :: piece ++ (if !rest.isEmpty then ['"'] else []) ++ joinPieces false rest := by
  cases rest <;> simp [joinPieces, Text.join]

theorem joinPieces_false_cons (piece : Text) (rest : List Text) :
    joinPieces false (piece :: rest) = piece ++ joinPieces true rest := by
  cases rest <;> simp [joinPieces, Text.join]

theorem joinPieces_false_isInfix (piece : Text) (rest : List Text) :
    joinPieces false rest <:+: joinPieces false (piece :: rest) := by
  rw [joinPieces_false_cons]
  refine List.IsInfix.trans ?_ (List.suffix_append piece _).isInfix
  exact (List.suffix_append _ (Text.join ['"'] rest)).isInfix

/-- In a piece that is no literal there are no comment markers, and behind it they are quoted as
before. -/
theorem MarkersQuoted.pieces {literal : Bool} {piece : Text} {rest : List Text}
    (hq : '"' ∉ piece) (h : MarkersQuoted literal (joinPieces false (piece :: rest))) :
    (literal = false → ∀ before after, piece = before ++ after → startsComment after = false) ∧
      MarkersQuoted (!literal) (joinPieces false rest) := by
  constructor
  · intro hl before after e
    cases hs : startsComment after with
    | false => rfl
    | true =>
      have hbefore : '"' ∉ before := fun hm => hq (e ▸ List.mem_append_left after hm)
      have hodd := h before (after ++ joinPieces true rest)
        (by rw [joinPieces_false_cons, e, List.append_assoc]) (startsComment_append hs _)
      rw [hl, List.count_eq_zero.mpr hbefore] at hodd
      exact absurd hodd (by decide)
  · intro before after e hs
    cases rest with
    | nil =>
      rw [(List.append_eq_nil_iff.mp e.symm).2] at hs
      exact nomatch hs
    | cons next rest =>
      have htext : joinPieces false (piece :: next :: rest) =
          (piece ++ '"' :: before) ++ after := by
        have hquote : joinPieces true (next :: rest) = '"' :: joinPieces false (next :: rest) := by
          simp [joinPieces]
        rw [joinPieces_false_cons, hquote, e]
        simp
      have hodd := h _ after htext hs
      rw [List.count_append, List.count_eq_zero.mpr hq, List.count_cons_self] at hodd
      cases literal
      · simp only [Bool.toNat_false, Bool.not_false, Bool.toNat_true] at hodd ⊢
        omega
      · simp only [Bool.toNat_true, Bool.not_true, Bool.toNat_false] at hodd ⊢
        omega

namespace Linker

/-- **Pieces of code and literals show the text that was split into them**, if comment markers
stand in literals only. -/
theorem shows_showPieces (linker : Linker) (line : Nat) (literal : Bool) (placed : Placed)
    {pieces : List Text} (hq : ∀ piece ∈ pieces, '"' ∉ piece)
    (ht : ∀ piece ∈ pieces, TagFree piece) (hm : MarkersQuoted literal (joinPieces false pieces))
    (hmail : ¬ "mailto:".toList <:+: joinPieces false pieces) :
    Shows (linker.showPieces line literal placed pieces).1 (joinPieces literal pieces) := by
  induction pieces generalizing literal placed with
  | nil => cases literal <;> exact .nil
  | cons piece rest ih =>
    obtain ⟨hfree, hnext⟩ := hm.pieces (hq piece List.mem_cons_self)
    have hlater : ∀ (other : Bool) (placed : Placed), other = (!literal) →
        Shows (linker.showPieces line other placed rest).1 (joinPieces other rest) := by
      rintro other placed rfl
      exact ih _ placed (fun p hp => hq p (List.mem_cons_of_mem piece hp))
        (fun p hp => ht p (List.mem_cons_of_mem piece hp)) hnext
        fun hi => hmail (hi.trans (joinPieces_false_isInfix piece rest))
    cases literal with
    | true =>
      rw [joinPieces_true_cons]
      exact (tagged_showLiteral _ (ht piece List.mem_cons_self)).shows.append
        (hlater false placed rfl)
    | false =>
      rw [joinPieces_false_cons] at hmail ⊢
      have hplain := linker.shows_showPlain line placed (ht piece List.mem_cons_self)
        (hfree rfl) fun hi => hmail (hi.trans (List.prefix_append piece _).isInfix)
      exact hplain.append (hlater true _ rfl)

theorem places_showPieces (linker : Linker) (line : Nat) (literal : Bool) (placed : Placed)
    {pieces : List Text} (ht : ∀ piece ∈ pieces, TagFree piece) :
    Places linker line none placed (linker.showPieces line literal placed pieces) := by
  induction pieces generalizing literal placed with
  | nil => cases literal <;> exact Tagged.places .nil linker line placed
  | cons piece rest ih =>
    have hpiece := ht piece List.mem_cons_self
    have hrest := fun other placed =>
      ih other placed fun p hp => ht p (List.mem_cons_of_mem piece hp)
    cases literal with
    | true =>
      have hlit := (tagged_showLiteral (!rest.isEmpty) hpiece).places linker line placed
      exact hlit.append (hrest false placed)
    | false => exact (linker.places_showPlain line placed hpiece).append (hrest true _)

theorem shows_showLiterals (linker : Linker) (line : Nat) (placed : Placed) {text : Text}
    (ht : TagFree text) (hm : MarkersQuoted false text) (hmail : ¬ "mailto:".toList <:+: text) :
    Shows (linker.showLiterals line placed text).1 text := by
  have hjoin : joinPieces false (text.splitOn '"') = text := by
    simp [joinPieces, Text.join]
  have h : Shows (linker.showLiterals line placed text).1 (joinPieces false (text.splitOn '"')) :=
    linker.shows_showPieces line false placed (fun _ hp => not_mem_of_mem_splitOn hp)
      (fun _ hp => ht.subset (infix_of_mem_splitOn hp).subset) (by rwa [hjoin]) (by rwa [hjoin])
  rwa [hjoin] at h

theorem places_showLiterals (linker : Linker) (line : Nat) (placed : Placed) {text : Text}
    (ht : TagFree text) :
    Places linker line none placed (linker.showLiterals line placed text) :=
  linker.places_showPieces line false placed fun _ hp => ht.subset (infix_of_mem_splitOn hp).subset

end Linker

/-! ## 3. Package and import statements -/

theorem not_hidden_of_isNamePart {c : Char} (h : isNamePart c = true) : isHidden c = false := by
  cases hc : isHidden c with
  | false => rfl
  | true => rcases hidden_cases hc with rfl | rfl | rfl | rfl | rfl <;> exact absurd h (by decide)

theorem IsDottedName.tagFree {name : Text} (h : IsDottedName name) : TagFree name :=
  ⟨h.not_mem (by decide) (by decide), h.not_mem (by decide) (by decide)⟩

namespace Linker

theorem mem_rootRef {source : SourceFile} {c : Char} (h : c ∈ source.rootRef) :
    c = '.' ∨ c = '/' := by
  unfold SourceFile.rootRef Text.times at h
  obtain ⟨step, hs, hc⟩ := List.mem_flatten.mp h
  rw [List.eq_of_mem_replicate hs] at hc
  have hall : ∀ c ∈ "../".toList, c = '.' ∨ c = '/' := forall_mem_of_all rfl
  exact hall c hc

theorem mem_packageFolder {package : Text} {c : Char} (h : c ∈ packageFolder package) :
    c = '/' ∨ c ∈ package := by
  unfold packageFolder Text.swap at h
  obtain ⟨d, hd, e⟩ := List.mem_map.mp h
  split at e
  · exact Or.inl e.symm
  · exact Or.inr (e ▸ hd)

/-- The address of a package that is named by name characters and dots has no fragment. -/
theorem mute_packageLink (linker : Linker) {package : Text}
    (h : ∀ c ∈ package, isNamePart c = true ∨ c = '.') :
    Mute (linkTag (linker.packageHref package)) := by
  have hplain : ∀ c ∈ linker.packageHref package,
      isHidden c = false ∧ c ≠ '#' ∧ c ≠ ' ' := by
    intro c hc
    have hpart : isNamePart c = true ∨ c = '.' ∨ c = '/' ∨ c ∈ packagePage := by
      unfold packageHref at hc
      simp only [List.mem_append] at hc
      rcases hc with ((hc | hc) | hc) | hc
      · exact Or.inr ((mem_rootRef hc).imp id Or.inl)
      · rcases mem_packageFolder hc with hc | hc
        · exact Or.inr (Or.inr (Or.inl hc))
        · exact (h c hc).imp id Or.inl
      · exact Or.inr (Or.inr (Or.inl (List.mem_singleton.mp hc)))
      · exact Or.inr (Or.inr (Or.inr hc))
    rcases hpart with hc | rfl | rfl | hc
    · refine ⟨not_hidden_of_isNamePart hc, ?_, ?_⟩ <;> rintro rfl <;> exact absurd hc (by decide)
    · decide
    · decide
    · have hall : ∀ c ∈ packagePage, isHidden c = false ∧ c ≠ '#' ∧ c ≠ ' ' :=
        forall_mem_of_all rfl
      exact hall c hc
  unfold linkTag
  rw [escapeAttribute_eq_self fun c hc => (hplain c hc).1]
  exact mute_href (fun hm => (hplain _ hm).2.1 rfl) (fun hm => (hplain _ hm).2.2 rfl)
    (by decide)

/-- The name of a package, linked or not. -/
theorem tagged_packageLink (linker : Linker) {package : Text}
    (h : ∀ c ∈ package, isNamePart c = true ∨ c = '.') :
    Tagged Mute (nameLink (linker.packageHref package) package) package := by
  have hfree : TagFree package := by
    refine .of_forall fun c hc => ⟨?_, ?_⟩ <;> rintro rfl <;> exact absurd (h _ hc) (by decide)
  have := Tagged.wrap (linker.mute_packageLink h) (tagFree_linkTag _) hfree mute_slashA
    tagFree_slashA .nil
  rw [nameLink_eq_wrap]
  simpa only [List.append_nil] using this

theorem tagged_showPackage (linker : Linker) {package : Text}
    (h : ∀ c ∈ package, isNamePart c = true ∨ c = '.') :
    Tagged Mute (linker.showPackage package) package := by
  unfold showPackage
  split
  · exact linker.tagged_packageLink h
  · refine .of_tagFree (.of_forall fun c hc => ⟨?_, ?_⟩) <;> rintro rfl <;>
      exact absurd (h _ hc) (by decide)

/-- The link to a known type on its name. -/
theorem places_typeLink {linker : Linker} {target : Target} (ht : linker.Knows target)
    {name : Text} (hn : TagFree name) (line : Nat) (placed : Placed) :
    Places linker line none placed (nameLink (linker.typeHref target) name, placed) := by
  obtain ⟨htags, hclosed⟩ := tagsFrom_wrap (tagFree_linkTag (linker.typeHref target)) hn
    tagFree_slashA none
  rw [nameLink_eq_wrap]
  refine ⟨[], (List.append_nil placed).symm, hclosed, ?_, .nil⟩
  rw [htags]
  exact .link ht (.mute mute_slashA .nil)

/-- **An imported name**: it is shown as it is, or as its package, a dot and its simple name, which
links if the type is known. -/
theorem showImport_cases (linker : Linker) {name : Text} (h : IsDottedName name) :
    linker.showImport name = name ∨
      ∃ package simple, name = package ++ '.' :: simple ∧
        (linker.showImport name = linker.showPackage package ++ ".".toList ++ simple ∨
          ∃ target, linker.target? package simple = some target ∧
            linker.showImport name = linker.showPackage package ++ ".".toList ++
              nameLink (linker.typeHref target) simple) := by
  obtain ⟨simple, hclass, hparts⟩ := Import.parts h
  unfold showImport
  simp only [hclass, Option.getD_some]
  rcases hparts with ⟨hnil, rfl⟩ | ⟨hne, e⟩
  · rw [if_pos (List.isEmpty_iff.mpr hnil)]
    exact Or.inl rfl
  · rw [if_neg fun he => hne (List.isEmpty_iff.mp he)]
    refine Or.inr ⟨_, simple, e, ?_⟩
    split
    · rename_i target htarget
      exact Or.inr ⟨target, htarget, rfl⟩
    · exact Or.inl rfl

/-- An imported name shows itself; its tags are the link of its package and the link of its
type. -/
theorem showImport_spec (linker : Linker) {name : Text} (h : IsDottedName name) (line : Nat)
    (placed : Placed) :
    Shows (linker.showImport name) name ∧
      Places linker line none placed (linker.showImport name, placed) := by
  rcases linker.showImport_cases h with hself | ⟨package, simple, rfl, hshown⟩
  · rw [hself]
    exact ⟨.tagFree h.tagFree, Tagged.places (.of_tagFree h.tagFree) linker line placed⟩
  · obtain ⟨-, hdot⟩ := tagFree_append.mp h.tagFree
    obtain ⟨-, hsimple⟩ := tagFree_cons.mp hdot
    have hpackage : Tagged Mute (linker.showPackage package) package :=
      linker.tagged_showPackage fun c hc => h.2 c (List.mem_append_left _ hc)
    have hmark : Tagged Mute ".".toList ".".toList := .of_tagFree (by decide)
    have hlead := hpackage.append hmark
    have hname : package ++ ".".toList ++ simple = package ++ '.' :: simple :=
      List.append_assoc _ _ _
    rcases hshown with hshown | ⟨target, htarget, hshown⟩
    · have htagged := hlead.append (.of_tagFree hsimple)
      have hshows := htagged.shows
      rw [hname] at hshows
      rw [hshown]
      exact ⟨hshows, htagged.places linker line placed⟩
    · have hshows := hlead.shows.append (shows_nameLink hsimple (linker.typeHref target))
      rw [hname] at hshows
      rw [hshown]
      exact ⟨hshows, (hlead.places linker line placed).append
        (places_typeLink (knows_of_target? htarget) hsimple line placed)⟩

theorem showStatementName_spec (linker : Linker) {statement : Statement}
    (h : IsDottedName statement.name) (line : Nat) (placed : Placed) :
    Shows (linker.showStatementName statement) statement.name ∧
      Places linker line none placed (linker.showStatementName statement, placed) := by
  have htagged : ∀ {html : Text}, Tagged Mute html statement.name →
      Shows html statement.name ∧ Places linker line none placed (html, placed) :=
    fun ht => ⟨ht.shows, ht.places linker line placed⟩
  unfold showStatementName
  split
  · exact htagged (linker.tagged_packageLink h.2)
  · split
    · exact htagged (linker.tagged_showPackage h.2)
    · exact linker.showImport_spec h line placed

/-- What a statement shows before its tail, and the marks of that part. -/
theorem showStatement_lead (linker : Linker) {statement : Statement}
    (hn : IsDottedName statement.name) (ht : TagFree statement.lead) (line : Nat)
    (placed : Placed) :
    ∃ html, (∀ out : Text × Placed, out = linker.showLiterals line placed statement.tail →
        linker.showStatement line placed statement = (html ++ out.1, out.2)) ∧
      Shows html statement.lead ∧ Places linker line none placed (html, placed) := by
  unfold Statement.lead at ht ⊢
  simp only [tagFree_append] at ht
  obtain ⟨⟨⟨⟨⟨hindent, hkeyword⟩, hgap⟩, hstatic⟩, _⟩, hmark⟩ := ht
  have hbefore := (((Tagged.of_tagFree hindent).append
    (tagged_keywords linker.reservedWords hkeyword)).append (.of_tagFree hgap)).append
    (tagged_keywords linker.reservedWords hstatic)
  obtain ⟨hname, hplaces⟩ := linker.showStatementName_spec hn line placed
  have hafter : Tagged Mute statement.mark statement.mark := .of_tagFree hmark
  refine ⟨_, ?_, (hbefore.shows.append hname).append hafter.shows,
    ((hbefore.places linker line placed).append hplaces).append
      (hafter.places linker line placed)⟩
  rintro out rfl
  rfl

/-! ## 4. The whole line -/

theorem shows_showCode (linker : Linker) (line : Nat) (placed : Placed) {text : Text}
    (ht : TagFree text) (hm : MarkersQuoted false text) (hmail : ¬ "mailto:".toList <:+: text) :
    Shows (linker.showCode line placed text).1 text := by
  unfold showCode
  split
  · rename_i statement hs
    obtain ⟨rfl, hchars, hname⟩ := Statement.ofText?_spec hs
    have hquote : '"' ∉ statement.lead := fun hm => absurd (hchars _ hm) (by decide)
    obtain ⟨hlead, htail⟩ := tagFree_append.mp ht
    obtain ⟨html, hout, hshows, _⟩ := linker.showStatement_lead hname hlead line placed
    rw [hout _ rfl]
    exact hshows.append (linker.shows_showLiterals line placed htail (hm.of_append hquote)
      fun hi => hmail (hi.trans (List.suffix_append _ _).isInfix))
  · exact linker.shows_showLiterals line placed ht hm hmail

theorem places_showCode (linker : Linker) (line : Nat) (placed : Placed) {text : Text}
    (ht : TagFree text) :
    Places linker line none placed (linker.showCode line placed text) := by
  unfold showCode
  split
  · rename_i statement hs
    obtain ⟨rfl, _, hname⟩ := Statement.ofText?_spec hs
    obtain ⟨hlead, htail⟩ := tagFree_append.mp ht
    obtain ⟨html, hout, _, hplaces⟩ := linker.showStatement_lead hname hlead line placed
    rw [hout _ rfl]
    exact hplaces.append (linker.places_showLiterals line placed htail)
  · exact linker.places_showLiterals line placed ht

/-- The segments of a line show their texts one after the other. -/
theorem shows_showSegments (linker : Linker) (line : Nat) (placed : Placed)
    {pieces : List Segment} (ht : ∀ piece ∈ pieces, TagFree piece.text)
    (hm : ∀ text, .code text ∈ pieces → MarkersQuoted false text)
    (hmail : ∀ piece ∈ pieces, ¬ "mailto:".toList <:+: piece.text) :
    Shows (linker.showSegments line placed pieces).1 (pieces.flatMap Segment.text) := by
  induction pieces generalizing placed with
  | nil => exact .nil
  | cons piece pieces ih =>
    have hrest := fun placed => ih placed (fun p hp => ht p (List.mem_cons_of_mem piece hp))
      (fun text hp => hm text (List.mem_cons_of_mem piece hp))
      fun p hp => hmail p (List.mem_cons_of_mem piece hp)
    have hfree := ht piece List.mem_cons_self
    cases piece with
    | comment kind text => exact (tagged_showComment kind hfree).shows.append (hrest placed)
    | code text =>
      have hcode := linker.shows_showCode line placed hfree (hm text List.mem_cons_self)
        (hmail _ List.mem_cons_self)
      exact hcode.append (hrest _)

theorem places_showSegments (linker : Linker) (line : Nat) (placed : Placed)
    {pieces : List Segment} (ht : ∀ piece ∈ pieces, TagFree piece.text) :
    Places linker line none placed (linker.showSegments line placed pieces) := by
  induction pieces generalizing placed with
  | nil => exact Tagged.places .nil linker line placed
  | cons piece pieces ih =>
    have hrest := fun placed => ih placed fun p hp => ht p (List.mem_cons_of_mem piece hp)
    have hfree := ht piece List.mem_cons_self
    cases piece with
    | comment kind text =>
      exact ((tagged_showComment kind hfree).places linker line placed).append (hrest placed)
    | code text => exact (linker.places_showCode line placed hfree).append (hrest _)

/-- **A marked-up line shows the escaped line**, whatever state it starts in. -/
theorem shows_highlight (linker : Linker) (number : Nat) (placed : Placed) (state : CommentState)
    {line : Text} (hmail : ¬ "mailto:".toList <:+: line) :
    Shows (linker.highlight number placed state line).1 (escapeLine line) := by
  have hfree : ∀ piece ∈ (segments state (escapeLine line)).1, TagFree piece.text :=
    fun piece hp => (tagFree_escapeLine line).subset (segment_isInfix hp).subset
  have hno : ∀ piece ∈ (segments state (escapeLine line)).1,
      ¬ "mailto:".toList <:+: piece.text := fun piece hp hi =>
    hmail ((encodes_escapeLine line).isInfix (by decide) (by decide) (by decide)
      (hi.trans (segment_isInfix hp)))
  have h := linker.shows_showSegments number placed hfree
    (fun text ht => markersQuoted_of_mem_segments ht) hno
  rw [segments_flatMap_text] at h
  exact h

/-- **The marks of a line** are links to known types, and anchors of declarations on the line
that had none before; every one of these is placed from then on. -/
theorem places_highlight (linker : Linker) (number : Nat) (placed : Placed) (state : CommentState)
    (line : Text) :
    Places linker number none placed ((linker.highlight number placed state line).1,
      (linker.highlight number placed state line).2.1) :=
  linker.places_showSegments number placed fun _ hp =>
    (tagFree_escapeLine line).subset (segment_isInfix hp).subset

end Linker

end CodeAtlas.Markup
