/-
  File:      CodeAtlas/Proofs/Markup/Links.lean
  Subject:   Links and anchors on names, and why they leave the shown text alone.

  * `escapeAttribute`: its results hold no quotes and no angle brackets, and
    differ where the texts differ.
  * `linkTag`, `anchorTag`: the tags that links and anchors begin with.
  * `Guarded`: a text with tags in which no word that starts inside a tag stands
    for a name. The text with emphasised keywords is one.
  * `shows_linkTypes`: linking the names of such a text puts tags in and changes
    nothing of what is shown.
-/
import CodeAtlas.Proofs.Markup.Filters
import CodeAtlas.Proofs.Markup.Words

namespace CodeAtlas.Markup

/-! ## 1. Attribute values -/

/-- How one character stands in an attribute value. -/
def escapeChar (c : Char) : Text :=
  if c == '&' then "&amp;" else if c == '<' then "&lt;" else if c == '>' then "&gt;"
  else if c == '"' then "&quot;" else if c == '\'' then "&#x27;" else [c]

theorem escapeAttribute_eq_flatMap (text : Text) : escapeAttribute text = text.flatMap escapeChar :=
  rfl

/-- The characters that are written as entities. -/
def isHidden (c : Char) : Bool := c == '&' || c == '<' || c == '>' || c == '"' || c == '\''

theorem escapeChar_eq_singleton {c : Char} (h : isHidden c = false) : escapeChar c = [c] := by
  simp only [isHidden, Bool.or_eq_false_iff] at h
  obtain ⟨⟨⟨⟨h1, h2⟩, h3⟩, h4⟩, h5⟩ := h
  simp [escapeChar, h1, h2, h3, h4, h5]

theorem hidden_cases {c : Char} (h : isHidden c = true) :
    c = '&' ∨ c = '<' ∨ c = '>' ∨ c = '"' ∨ c = '\'' := by
  simpa [isHidden, or_assoc] using h

/-- A text without the characters that are written as entities stands for itself. -/
theorem escapeAttribute_eq_self {text : Text} (h : ∀ c ∈ text, isHidden c = false) :
    escapeAttribute text = text := by
  induction text with
  | nil => rfl
  | cons c text ih =>
    have hc := escapeChar_eq_singleton (h c List.mem_cons_self)
    have hrest := ih fun d hd => h d (List.mem_cons_of_mem c hd)
    rw [escapeAttribute_eq_flatMap] at hrest ⊢
    rw [List.flatMap_cons, hc, hrest, List.singleton_append]

theorem mem_escapeAttribute {c : Char} {text : Text} (h : c ∈ escapeAttribute text) :
    c ≠ '<' ∧ c ≠ '>' ∧ c ≠ '"' := by
  rw [escapeAttribute_eq_flatMap] at h
  obtain ⟨d, _, hd⟩ := List.mem_flatMap.mp h
  cases hh : isHidden d with
  | false =>
    rw [escapeChar_eq_singleton hh, List.mem_singleton] at hd
    subst hd
    refine ⟨?_, ?_, ?_⟩ <;> rintro rfl <;> exact nomatch hh
  | true =>
    have hall : ∀ e ∈ escapeChar d, e ≠ '<' ∧ e ≠ '>' ∧ e ≠ '"' := by
      rcases hidden_cases hh with rfl | rfl | rfl | rfl | rfl <;> exact forall_mem_of_all rfl
    exact hall c hd

theorem tagFree_escapeAttribute (text : Text) : TagFree (escapeAttribute text) :=
  .of_forall fun _ hc => ⟨(mem_escapeAttribute hc).1, (mem_escapeAttribute hc).2.1⟩

theorem quote_not_mem_escapeAttribute (text : Text) : '"' ∉ escapeAttribute text :=
  fun h => (mem_escapeAttribute h).2.2 rfl

/-- Two characters of which one is written as the start of the other are the same. -/
theorem escapeChar_append_inj {c d : Char} {a b : Text}
    (h : escapeChar c ++ a = escapeChar d ++ b) : c = d ∧ a = b := by
  have hamp : ∀ {e : Char} {x y : Text}, isHidden e = false → '&' :: x ≠ e :: y := by
    intro e x y he heq
    obtain ⟨rfl, -⟩ := List.cons.inj heq
    exact nomatch he
  cases hc : isHidden c with
  | false =>
    rw [escapeChar_eq_singleton hc] at h
    cases hd : isHidden d with
    | false =>
      rw [escapeChar_eq_singleton hd] at h
      exact List.cons.inj h
    | true =>
      rcases hidden_cases hd with rfl | rfl | rfl | rfl | rfl <;> exact absurd h.symm (hamp hc)
  | true =>
    cases hd : isHidden d with
    | false =>
      rw [escapeChar_eq_singleton hd] at h
      rcases hidden_cases hc with rfl | rfl | rfl | rfl | rfl <;> exact absurd h (hamp hd)
    | true =>
      rcases hidden_cases hc with rfl | rfl | rfl | rfl | rfl <;>
        rcases hidden_cases hd with rfl | rfl | rfl | rfl | rfl <;>
          simp_all [escapeChar]

theorem escapeAttribute_injective {a b : Text} (h : escapeAttribute a = escapeAttribute b) :
    a = b := by
  have hne : ∀ c : Char, escapeChar c ≠ [] := by
    intro c
    unfold escapeChar
    split_ifs <;> simp
  induction a generalizing b with
  | nil =>
    cases b with
    | nil => rfl
    | cons d b => exact absurd (List.append_eq_nil_iff.mp h.symm).1 (hne d)
  | cons c a ih =>
    cases b with
    | nil => exact absurd (List.append_eq_nil_iff.mp h).1 (hne c)
    | cons d b =>
      obtain ⟨rfl, hab⟩ := escapeChar_append_inj h
      rw [ih hab]

/-! ## 2. The tags of links and anchors -/

/-- The tag that a link begins with. -/
def linkTag (href : Text) : Text := "a href=\"" ++ escapeAttribute href ++ "\""

/-- The tag that the anchor of a declaration on its name begins with. -/
def anchorTag (name : Text) : Text :=
  "a id=\"" ++ escapeAttribute name ++ "\" class=\"jxr_declaration\""

theorem tagFree_quoted {before after : Text} (hb : TagFree before) (ha : TagFree after)
    (value : Text) : TagFree (before ++ escapeAttribute value ++ after) :=
  tagFree_append.mpr ⟨tagFree_append.mpr ⟨hb, tagFree_escapeAttribute value⟩, ha⟩

theorem tagFree_linkTag (href : Text) : TagFree (linkTag href) :=
  tagFree_quoted (by decide) (by decide) href

theorem tagFree_anchorTag (name : Text) : TagFree (anchorTag name) :=
  tagFree_quoted (by decide) (by decide) name

theorem tagFree_slashA : TagFree "/a".toList := by decide

theorem nameLink_eq_wrap (href name : Text) :
    nameLink href name = '<' :: linkTag href ++ ['>'] ++ name ++ ('<' :: "/a".toList ++ ['>']) := by
  have hend : "\">".toList = "\"".toList ++ ['>'] := rfl
  unfold nameLink linkTag
  rw [hend]
  simp only [List.append_assoc, List.cons_append]
  rfl

theorem declarationAnchor_eq_wrap (declaration : Declaration) (name : Text) :
    declarationAnchor declaration name =
      '<' :: anchorTag declaration.name ++ ['>'] ++ name ++ ('<' :: "/a".toList ++ ['>']) := by
  have hend : "\" class=\"jxr_declaration\">".toList =
      "\" class=\"jxr_declaration\"".toList ++ ['>'] := rfl
  unfold declarationAnchor anchorTag
  rw [hend]
  simp only [List.append_assoc, List.cons_append]
  rfl

theorem shows_nameLink {name : Text} (h : TagFree name) (href : Text) :
    Shows (nameLink href name) name := by
  rw [nameLink_eq_wrap]
  exact Shows.wrap (tagFree_linkTag href) h tagFree_slashA

theorem shows_declarationAnchor {name : Text} (h : TagFree name) (declaration : Declaration) :
    Shows (declarationAnchor declaration name) name := by
  rw [declarationAnchor_eq_wrap]
  exact Shows.wrap (tagFree_anchorTag _) h tagFree_slashA

/-- The names that a word may stand for hold no angle brackets. -/
theorem tagFree_of_mem_nameCandidates {word name : Text} (h : name ∈ nameCandidates word) :
    TagFree name := by
  refine .of_forall fun c hc => ⟨?_, ?_⟩
  · rintro rfl
    exact absurd ((nameCandidates_spec h).2 _ hc) (by decide)
  · rintro rfl
    exact absurd ((nameCandidates_spec h).2 _ hc) (by decide)

/-! ## 3. Words inside tags -/

/-- A word may start after the text: the text is empty or ends in a breaker. -/
def EndsWord (before : Text) : Prop := ∀ c, before.getLast? = some c → isBreaker c = true

/-- No word that starts inside a tag stands for a name. -/
def Guarded (state : Option Text) (text : Text) : Prop :=
  ∀ before rest, text = before ++ rest → (tagAfter state before).isSome → EndsWord before →
    nameCandidates (rest.takeWhile (!isBreaker ·)) = []

/-- What follows a word starts with a breaker. -/
theorem isBreaker_of_head?_dropWhile (text : Text) :
    ∀ c, (text.dropWhile (!isBreaker ·)).head? = some c → isBreaker c = true := by
  intro c hc
  have := List.head?_dropWhile_not (!isBreaker ·) text
  rw [hc] at this
  simpa using this

theorem endsWord_append {before : Text} (lead : Text) (hne : before ≠ []) :
    EndsWord (lead ++ before) ↔ EndsWord before := by
  unfold EndsWord
  rw [List.getLast?_append_of_ne_nil _ hne]

/-- What follows a breaker is guarded if the whole is. -/
theorem Guarded.tail {state : Option Text} {c : Char} {rest : Text} (hc : isBreaker c = true)
    (h : Guarded state (c :: rest)) : Guarded (readTag state c).2 rest := by
  intro before later e hin hend
  refine h (c :: before) later (by rw [e]; rfl) hin ?_
  by_cases hne : before = []
  · intro d hd
    rw [hne, List.getLast?_singleton] at hd
    cases hd
    exact hc
  · exact (endsWord_append [c] hne).mpr hend

/-- What follows a word is guarded if the whole is. -/
theorem Guarded.afterWord {state : Option Text} {word rest : Text}
    (hr : ∀ c, rest.head? = some c → isBreaker c = true) (h : Guarded state (word ++ rest)) :
    Guarded (tagAfter state word) rest := by
  intro before later e hin hend
  by_cases hne : before = []
  · -- here no word starts: the rest begins with a breaker
    subst hne
    rw [List.nil_append] at e
    subst e
    cases rest with
    | nil => rfl
    | cons c rest =>
      rw [List.takeWhile_cons, hr c rfl]
      rfl
  · refine h (word ++ before) later (by rw [e, List.append_assoc]) ?_
      ((endsWord_append word hne).mpr hend)
    rwa [tagAfter_append]

/-- A word that starts inside a keyword tag is the one that begins with `class=`. -/
theorem KeywordTag.word_eq {body before rest : Text} (hB : KeywordTag body)
    (e : '<' :: body = before ++ rest) (hne : before ≠ []) (hend : EndsWord before) :
    rest = "class=\"jxr_keyword\"".toList := by
  have hinits : ∀ before ∈ ('<' :: "strong class=\"jxr_keyword\"".toList).inits,
      before.getLast?.any isBreaker = true → before = "<strong ".toList := by decide
  have hslash : ∀ before ∈ ('<' :: "/strong".toList).inits,
      before.getLast?.any isBreaker = false := by decide
  have hmem : before ∈ ('<' :: body).inits :=
    (List.mem_inits _ _).mpr (e ▸ List.prefix_append before rest)
  have hlast : before.getLast?.any isBreaker = true := by
    rw [List.getLast?_eq_getLast_of_ne_nil hne]
    exact hend _ (List.getLast?_eq_getLast_of_ne_nil hne)
  rcases hB with rfl | rfl
  · rw [hinits before hmem hlast] at e
    have e' : "<strong ".toList ++ "class=\"jxr_keyword\"".toList = "<strong ".toList ++ rest := e
    exact (List.append_cancel_left e').symm
  · exact absurd ((hslash before hmem).symm.trans hlast) (by decide)

theorem nameCandidates_keywordClass (more : Text) :
    nameCandidates (("class=\"jxr_keyword\"" ++ '>' :: more).takeWhile (!isBreaker ·)) = [] :=
  rfl

/-- In a text with emphasised keywords no word that starts inside a tag stands for a name. -/
theorem guarded_of_tagged {html text : Text} (h : Tagged KeywordTag html text) :
    Guarded none html := by
  induction h with
  | nil =>
    intro before rest e hin _
    rw [(List.append_eq_nil_iff.mp e.symm).1] at hin
    exact absurd hin Bool.false_ne_true
  | @char c html text h1 h2 _ ih =>
    intro before rest e hin hend
    cases before with
    | nil => exact absurd hin Bool.false_ne_true
    | cons d before =>
      obtain ⟨rfl, e'⟩ := List.cons.inj e
      rw [tagAfter, readTag_of_ne h1 h2] at hin
      have hne : before ≠ [] := by
        rintro rfl
        exact Bool.false_ne_true hin
      exact ih before rest e' hin ((endsWord_append [c] hne).mp hend)
  | @tag body html text hB hb _ ih =>
    intro before rest e hin hend
    have hne : before ≠ [] := by
      rintro rfl
      exact Bool.false_ne_true hin
    have hinside : ∀ later, '<' :: body = before ++ later → rest = later ++ '>' :: html →
        nameCandidates (rest.takeWhile (!isBreaker ·)) = [] := by
      intro later hl hr
      rw [hr, hB.word_eq hl hne hend]
      exact nameCandidates_keywordClass html
    rcases List.append_eq_append_iff.mp e with ⟨more, hbefore, hrest⟩ | ⟨later, hl, hr⟩
    · cases more with
      | nil => exact hinside [] (by simp [hbefore]) hrest.symm
      | cons d more =>
        -- the tag is over before the word starts
        obtain ⟨rfl, e'⟩ := List.cons.inj hrest
        have hlead : before = ('<' :: body ++ ['>']) ++ more := by simp [hbefore]
        rw [hlead, tagAfter_append, (tagsFrom_tag hb none).2] at hin
        have hmore : more ≠ [] := by
          rintro rfl
          exact Bool.false_ne_true hin
        rw [hlead, endsWord_append _ hmore] at hend
        exact ih more rest e' hin hend
    · exact hinside later hl hr

/-! ## 4. Linking names -/

namespace Linker

/-- What replaces the start of a word shows it. -/
theorem shows_replacement {linker : Linker} {line : Nat} {placed after : Placed}
    {previous word name replacement : Text}
    (h : linker.linkWord line placed previous word = (some (name, replacement), after)) :
    name ∈ nameCandidates word ∧ Shows replacement name := by
  rcases linker.linkWord_cases line placed previous word with e | ⟨n, d, hm, _, e⟩ | ⟨n, t, hm, _, e⟩
  · cases e.symm.trans h
  · cases e.symm.trans h
    exact ⟨hm, shows_declarationAnchor (tagFree_of_mem_nameCandidates hm) d⟩
  · cases e.symm.trans h
    exact ⟨hm, shows_nameLink (tagFree_of_mem_nameCandidates hm) _⟩

/-- A rewritten word shows what it showed, and leaves the same tag open, unless it starts inside
a tag and stands for a name there. -/
theorem rewriteWord_shows {linker : Linker} {line : Nat} {placed after : Placed}
    {previous word : Text} {link : Option (Text × Text)} {state : Option Text}
    (h : linker.linkWord line placed previous word = (link, after))
    (hg : state.isSome → nameCandidates word = []) :
    outsideTags state.isSome (rewriteWord link word) = outsideTags state.isSome word ∧
      tagAfter state (rewriteWord link word) = tagAfter state word := by
  cases link with
  | none => exact ⟨rfl, rfl⟩
  | some found =>
    obtain ⟨name, replacement⟩ := found
    obtain ⟨hm, hshows⟩ := shows_replacement h
    cases state with
    | some tag =>
      rw [hg rfl] at hm
      exact absurd hm List.not_mem_nil
    | none =>
      have hfree := Shows.tagFree (tagFree_of_mem_nameCandidates hm)
      obtain ⟨rest, rfl⟩ := (nameCandidates_spec hm).1
      have e : rewriteWord (some (name, replacement)) (name ++ rest) = replacement ++ rest := by
        simp [rewriteWord]
      rw [e, tagAfter_append, tagAfter_append, hshows.closed, hfree.closed]
      refine ⟨?_, rfl⟩
      rw [outsideTags_append, outsideTags_append, hshows.closed, hfree.closed]
      exact congrArg (· ++ _) (hshows.visible.trans hfree.visible.symm)

/-- **Linking names changes nothing of what is shown**, and leaves the same tag open. -/
theorem linkWords_shows (linker : Linker) (line : Nat) (placed : Placed) (previous text : Text)
    (state : Option Text) (hg : Guarded state text) :
    outsideTags state.isSome (linker.linkWords line placed previous text).1 =
        outsideTags state.isSome text ∧
      tagAfter state (linker.linkWords line placed previous text).1 = tagAfter state text := by
  fun_induction linkWords linker line placed previous text generalizing state with
  | case1 placed previous => exact ⟨rfl, rfl⟩
  | case2 placed previous c rest hc shown final he ih =>
    obtain ⟨hout, hafter⟩ := ih _ (hg.tail hc)
    rw [he] at hout hafter
    have h1 := outsideTags_append state [c] shown
    have h2 := outsideTags_append state [c] rest
    exact ⟨h1.trans ((congrArg _ hout).trans h2.symm), hafter⟩
  | case3 placed previous c rest hc word link after hl shown final he ih =>
    have htext : c :: rest = word ++ rest.dropWhile (!isBreaker ·) := by simp [word]
    have hword : word = (c :: rest).takeWhile (!isBreaker ·) := by simp [word, hc]
    have hcand : state.isSome → nameCandidates word = [] := by
      intro hin
      rw [hword]
      exact hg [] (c :: rest) rfl hin fun d hd => absurd hd (by simp)
    rw [htext] at hg ⊢
    obtain ⟨hout, hafter⟩ := ih _ (hg.afterWord (isBreaker_of_head?_dropWhile rest))
    rw [he] at hout hafter
    obtain ⟨hshown, htag⟩ := rewriteWord_shows hl hcand
    rw [outsideTags_append, outsideTags_append, tagAfter_append, tagAfter_append, hshown, htag,
      hout, hafter]
    exact ⟨rfl, rfl⟩

/-- Linking the names of a text with emphasised keywords. -/
theorem shows_linkTypes (linker : Linker) (line : Nat) (placed : Placed) {html text : Text}
    (h : Tagged KeywordTag html text) : Shows (linker.linkTypes line placed html).1 text := by
  obtain ⟨hout, hafter⟩ := linker.linkWords_shows line placed [] html none (guarded_of_tagged h)
  rw [linkTypes_eq_linkWords]
  exact ⟨hout.trans h.shows.visible, hafter.trans h.shows.closed⟩

end Linker

end CodeAtlas.Markup
