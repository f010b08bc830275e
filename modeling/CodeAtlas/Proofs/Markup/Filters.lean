/-
  File:      CodeAtlas/Proofs/Markup/Filters.lean
  Subject:   What the keyword filter and the address filter put into a text.

  * `IsUri`: an address: one of the three starts, and characters of an address.
  * `highlightKeywordsFrom_cases`, `linkUrisFrom_cases`: all that a filter does at the
    start of a text. What holds of a whole text follows by induction on its length.
  * `emphasised_highlightKeywords`: emphasising reserved words puts some parts of
    a text between `KeywordTag`s and does nothing else, whatever the reserved
    words are.
  * `tagged_linkUris`: linking addresses puts in tags of addresses that occur in
    the text shown. It may run on a text that holds tags already, as long as no
    address can start inside them.
  * `not_isUri_of_markerFree`: in a text without comment markers and `mailto:`
    there is no address, so that there the filter does nothing new.
-/
import CodeAtlas.Proofs.Markup.Comments
import CodeAtlas.Proofs.Markup.Tags

namespace CodeAtlas.Markup

/-! ## 1. Addresses and names at the start of a text -/

/-- How an address starts. -/
def uriStarts : List Text := ["http://", "https://", "mailto:"]

/-- An address. -/
def IsUri (uri : Text) : Prop :=
  (∃ start ∈ uriStarts, start <+: uri) ∧ ∀ c ∈ uri, isUriChar c = true ∨ c = '&'

theorem uriRun_isPrefix (text : Text) : uriRun text <+: text := by
  induction text with
  | nil => exact List.nil_prefix
  | cons c rest ih =>
    unfold uriRun
    split
    · exact (List.prefix_cons_inj c).mpr ih
    · exact List.nil_prefix

theorem uriChar_of_mem_uriRun {c : Char} {text : Text} (h : c ∈ uriRun text) :
    isUriChar c = true ∨ c = '&' := by
  induction text with
  | nil => exact absurd h List.not_mem_nil
  | cons d rest ih =>
    unfold uriRun at h
    split at h
    · rename_i hd
      rcases List.mem_cons.mp h with rfl | h
      · simp only [Bool.or_eq_true, Bool.and_eq_true, beq_iff_eq] at hd
        exact hd.imp id And.left
      · exact ih h
    · exact absurd h List.not_mem_nil

theorem uri?_spec {text uri : Text} (h : uri? text = some uri) : IsUri uri ∧ uri <+: text := by
  unfold uri? at h
  split at h
  · exact nomatch h
  · rename_i start hs
    have hmem : start ∈ uriStarts := List.mem_of_find?_eq_some hs
    have hpre : start <+: text := by
      have := List.find?_some hs
      exact List.isPrefixOf_iff_prefix.mp this
    have hchars : ∀ start ∈ uriStarts, start.all isUriChar = true := by decide
    split at h
    · exact nomatch h
    · cases h
      refine ⟨⟨⟨start, hmem, List.prefix_append _ _⟩, fun c hc => ?_⟩, ?_⟩
      · rcases List.mem_append.mp hc with hc | hc
        · exact Or.inl (List.all_eq_true.mp (hchars start hmem) c hc)
        · exact uriChar_of_mem_uriRun hc
      · obtain ⟨rest, rfl⟩ := hpre
        rw [List.drop_left]
        exact (List.prefix_append_right_inj start).mpr (uriRun_isPrefix rest)

theorem IsUri.ne_nil {uri : Text} (h : IsUri uri) : uri ≠ [] := by
  rintro rfl
  obtain ⟨⟨start, hs, hp⟩, _⟩ := h
  have hne : ∀ start ∈ uriStarts, start ≠ [] := by decide
  exact hne start hs (List.prefix_nil.mp hp)

/-- A character that cannot stand in an address does not occur in one. -/
theorem IsUri.not_mem {uri : Text} (h : IsUri uri) {c : Char} (h1 : isUriChar c = false)
    (h2 : c ≠ '&') : c ∉ uri := by
  intro hm
  rcases h.2 c hm with hc | hc
  · exact absurd (h1.symm.trans hc) Bool.false_ne_true
  · exact h2 hc

theorem IsUri.tagFree {uri : Text} (h : IsUri uri) : TagFree uri :=
  ⟨h.not_mem (by decide) (by decide), h.not_mem (by decide) (by decide)⟩

theorem uri?_eq_none {c : Char} (h1 : c ≠ 'h') (h2 : c ≠ 'm') (rest : Text) :
    uri? (c :: rest) = none := by
  cases hu : uri? (c :: rest) with
  | none => rfl
  | some uri =>
    obtain ⟨⟨⟨start, hs, hp⟩, _⟩, hpre⟩ := uri?_spec hu
    have hhead : ∀ start ∈ uriStarts, start.head? = some 'h' ∨ start.head? = some 'm' := by decide
    obtain ⟨more, e⟩ := hp.trans hpre
    cases start with
    | nil => exact absurd (hhead [] hs) (by decide)
    | cons d start =>
      obtain ⟨rfl, -⟩ := List.cons.inj e
      rcases hhead _ hs with h | h
      · exact absurd (Option.some.inj h) h1
      · exact absurd (Option.some.inj h) h2

/-- A text without comment markers and without `mailto:` holds no address. -/
theorem not_isUri_of_markerFree {text uri : Text}
    (hm : ∀ before rest, text = before ++ rest → startsComment rest = false)
    (hmail : ¬ "mailto:".toList <:+: text) (hu : IsUri uri) : ¬ uri <:+: text := by
  rintro ⟨before, after, rfl⟩
  obtain ⟨⟨start, hs, more, rfl⟩, _⟩ := hu
  simp only [uriStarts, List.mem_cons, List.not_mem_nil, or_false] at hs
  rcases hs with rfl | rfl | rfl
  · have := hm (before ++ "http:".toList) ("//".toList ++ more ++ after) (by simp)
    exact nomatch this
  · have := hm (before ++ "https:".toList) ("//".toList ++ more ++ after) (by simp)
    exact nomatch this
  · exact hmail ⟨before, more ++ after, by simp⟩

theorem name?_spec {text name : Text} (h : name? text = some name) :
    name <+: text ∧ name ≠ [] := by
  unfold name? at h
  split at h
  · cases h
  · split at h
    · cases h
      exact ⟨(List.prefix_cons_inj _).mpr (List.takeWhile_prefix _), List.cons_ne_nil _ _⟩
    · cases h

theorem length_lt_of_append {text part later : Text} (e : text = part ++ later)
    (hne : part ≠ []) : later.length < text.length := by
  have hpos := List.length_pos_of_ne_nil hne
  rw [e, List.length_append]
  omega

/-- A filter that has written a part at its first character leaves out the others. -/
theorem drop_of_cons_eq_append {c : Char} {rest part later : Text}
    (e : c :: rest = part ++ later) (hne : part ≠ []) : rest.drop (part.length - 1) = later := by
  cases part with
  | nil => exact absurd rfl hne
  | cons d part =>
    obtain ⟨-, rfl⟩ := List.cons.inj e
    exact List.drop_left

/-! ## 2. Reserved words -/

/-- The tags around a reserved word. -/
def KeywordTag (body : Text) : Prop :=
  body = "strong class=\"jxr_keyword\"".toList ∨ body = "/strong".toList

theorem KeywordTag.tagFree {body : Text} (h : KeywordTag body) : TagFree body := by
  rcases h with rfl | rfl <;> decide

/-- `Emphasised html text`: `html` is `text` with some parts of it between the tags of reserved
words. -/
inductive Emphasised : Text → Text → Prop where
  | nil : Emphasised [] []
  | char {c : Char} {html text : Text} (h1 : c ≠ '<') (h2 : c ≠ '>') (h : Emphasised html text) :
      Emphasised (c :: html) (c :: text)
  | word {word html text : Text} (hw : TagFree word) (h : Emphasised html text) :
      Emphasised ("<strong class=\"jxr_keyword\">" ++ word ++ "</strong>" ++ html) (word ++ text)

namespace Emphasised

theorem tagFree_append {a html text : Text} (ha : TagFree a) (h : Emphasised html text) :
    Emphasised (a ++ html) (a ++ text) := by
  induction a with
  | nil => exact h
  | cons c a ih =>
    obtain ⟨⟨h1, h2⟩, h3⟩ := tagFree_cons.mp ha
    exact .char h1 h2 (ih h3)

theorem tagged {html text : Text} (h : Emphasised html text) : Tagged KeywordTag html text := by
  have hopen : KeywordTag "strong class=\"jxr_keyword\"".toList := Or.inl rfl
  have hclose : KeywordTag "/strong".toList := Or.inr rfl
  induction h with
  | nil => exact .nil
  | char h1 h2 _ ih => exact .char h1 h2 ih
  | word hw _ ih => exact Tagged.wrap hopen hopen.tagFree hw hclose hclose.tagFree ih

end Emphasised

theorem emphasised_showWord (reserved : List Text) {word html text : Text} (rest : Text)
    (hw : TagFree word) (h : Emphasised html text) :
    Emphasised (showWord reserved word rest ++ html) (word ++ text) := by
  unfold showWord
  split
  · exact h.tagFree_append hw
  · split
    · exact h.tagFree_append hw
    · exact .word hw h

theorem highlightKeywordsFrom_eq_drop (reserved : List Text) (inName : Bool) (skip : Nat)
    (text : Text) : ∃ inName', highlightKeywordsFrom reserved inName skip text =
      highlightKeywordsFrom reserved inName' 0 (text.drop skip) := by
  induction text generalizing inName skip with
  | nil => exact ⟨inName, by simp [highlightKeywordsFrom]⟩
  | cons c text ih =>
    cases skip with
    | zero => exact ⟨inName, rfl⟩
    | succ skip => exact ih (isNamePart c) skip

/-- **All that emphasising does at the start of a text**: it copies an address there, shows a word,
or copies one character. -/
theorem highlightKeywordsFrom_cases (reserved : List Text) (inName : Bool) (c : Char)
    (rest : Text) :
    ∃ part later shown inName', c :: rest = part ++ later ∧
      later.length < (c :: rest).length ∧
      highlightKeywordsFrom reserved inName 0 (c :: rest) =
        shown ++ highlightKeywordsFrom reserved inName' 0 later ∧
      ((uri? (c :: rest) = some part ∧ shown = part) ∨
        (name? (c :: rest) = some part ∧ ∃ after, shown = showWord reserved part after) ∨
        (part = [c] ∧ shown = [c])) := by
  -- a part that is written at once is left out afterwards
  have hbehind {part : Text} (hp : part <+: c :: rest) (hne : part ≠ []) :
      ∃ later inName', c :: rest = part ++ later ∧ later.length < (c :: rest).length ∧
        highlightKeywordsFrom reserved (isNamePart c) (part.length - 1) rest =
          highlightKeywordsFrom reserved inName' 0 later := by
    obtain ⟨later, e⟩ := hp
    obtain ⟨inName', hskip⟩ :=
      highlightKeywordsFrom_eq_drop reserved (isNamePart c) (part.length - 1) rest
    rw [drop_of_cons_eq_append e.symm hne] at hskip
    exact ⟨later, inName', e.symm, length_lt_of_append e.symm hne, hskip⟩
  cases hu : uri? (c :: rest) with
  | some uri =>
    have hstep : highlightKeywordsFrom reserved inName 0 (c :: rest) =
        uri ++ highlightKeywordsFrom reserved (isNamePart c) (uri.length - 1) rest := by
      rw [highlightKeywordsFrom, hu]
    obtain ⟨hisUri, hp⟩ := uri?_spec hu
    obtain ⟨later, inName', e, hlength, hskip⟩ := hbehind hp hisUri.ne_nil
    exact ⟨uri, later, uri, inName', e, hlength, hskip ▸ hstep, Or.inl ⟨rfl, rfl⟩⟩
  | none =>
    cases hw : if inName then none else name? (c :: rest) with
    | some word =>
      have hstep : highlightKeywordsFrom reserved inName 0 (c :: rest) =
          showWord reserved word ((c :: rest).drop word.length) ++
            highlightKeywordsFrom reserved (isNamePart c) (word.length - 1) rest := by
        rw [highlightKeywordsFrom, hu]
        simp only [hw]
      cases inName with
      | true =>
        rw [if_pos rfl] at hw
        cases hw
      | false =>
        have hname : name? (c :: rest) = some word := hw
        obtain ⟨hp, hne⟩ := name?_spec hname
        obtain ⟨later, inName', e, hlength, hskip⟩ := hbehind hp hne
        exact ⟨word, later, _, inName', e, hlength, hskip ▸ hstep,
          Or.inr (Or.inl ⟨hname, _, rfl⟩)⟩
    | none =>
      have hstep : highlightKeywordsFrom reserved inName 0 (c :: rest) =
          [c] ++ highlightKeywordsFrom reserved (isNamePart c) 0 rest := by
        rw [highlightKeywordsFrom, hu]
        simp only [hw]
        rfl
      exact ⟨[c], rest, [c], isNamePart c, rfl, Nat.lt_succ_self _, hstep,
        Or.inr (Or.inr ⟨rfl, rfl⟩)⟩

theorem emphasised_highlightKeywordsFrom (reserved : List Text) {text : Text} (ht : TagFree text)
    (inName : Bool) : Emphasised (highlightKeywordsFrom reserved inName 0 text) text := by
  induction hn : text.length using Nat.strong_induction_on generalizing text inName with
  | h n ih =>
    subst hn
    cases text with
    | nil => exact .nil
    | cons c rest =>
      obtain ⟨part, later, shown, inName', e, hlength, hstep, hpart⟩ :=
        highlightKeywordsFrom_cases reserved inName c rest
      obtain ⟨hfree, hlater⟩ := tagFree_append.mp (e ▸ ht)
      have hmore := ih later.length hlength hlater inName' rfl
      rw [hstep, e]
      rcases hpart with ⟨-, rfl⟩ | ⟨-, after, rfl⟩ | ⟨rfl, rfl⟩
      · exact hmore.tagFree_append hfree
      · exact emphasised_showWord reserved after hfree hmore
      · exact hmore.tagFree_append hfree

/-- **Emphasising reserved words only puts them between their tags.** -/
theorem emphasised_highlightKeywords (reserved : List Text) {text : Text} (ht : TagFree text) :
    Emphasised (highlightKeywords reserved text) text :=
  emphasised_highlightKeywordsFrom reserved ht false

theorem tagged_highlightKeywords (reserved : List Text) {text : Text} (ht : TagFree text) :
    Tagged KeywordTag (highlightKeywords reserved text) text :=
  (emphasised_highlightKeywords reserved ht).tagged

/-! ## 3. Links of addresses -/

/-- The tags around a linked address. -/
def UriTag (uri body : Text) : Prop :=
  body = "a href=\"" ++ uri ++ "\" target=\"alexandria_uri\"" ∨ body = "/a".toList

theorem UriTag.tagFree {uri body : Text} (hu : TagFree uri) (h : UriTag uri body) :
    TagFree body := by
  rcases h with rfl | rfl
  · exact tagFree_append.mpr ⟨tagFree_append.mpr ⟨by decide, hu⟩, by decide⟩
  · decide

theorem uriLink_eq_wrap (uri : Text) :
    uriLink uri = '<' :: ("a href=\"" ++ uri ++ "\" target=\"alexandria_uri\"") ++ ['>'] ++ uri ++
      ('<' :: "/a".toList ++ ['>']) := by
  have hend : "\" target=\"alexandria_uri\">".toList =
      "\" target=\"alexandria_uri\"".toList ++ ['>'] := rfl
  unfold uriLink
  rw [hend]
  simp only [List.append_assoc, List.cons_append]
  rfl

theorem linkUrisFrom_eq_drop (skip : Nat) (text : Text) :
    linkUrisFrom skip text = linkUrisFrom 0 (text.drop skip) := by
  induction text generalizing skip with
  | nil => simp [linkUrisFrom]
  | cons c text ih =>
    cases skip with
    | zero => rfl
    | succ skip => exact ih skip

/-- No address starts with a character other than `h` and `m`. -/
theorem linkUrisFrom_append {a : Text} (h1 : 'h' ∉ a) (h2 : 'm' ∉ a) (rest : Text) :
    linkUrisFrom 0 (a ++ rest) = a ++ linkUrisFrom 0 rest := by
  induction a with
  | nil => rfl
  | cons c a ih =>
    simp only [List.mem_cons, not_or] at h1 h2
    have hnone := uri?_eq_none (fun e => h1.1 e.symm) (fun e => h2.1 e.symm) (a ++ rest)
    rw [List.cons_append, linkUrisFrom, hnone]
    simp only [List.cons_append]
    rw [ih h1.2 h2.2]

theorem linkUrisFrom_uri {c : Char} {html uri rest : Text} (hu : uri? (c :: html) = some uri)
    (e : c :: html = uri ++ rest) :
    linkUrisFrom 0 (c :: html) = uriLink uri ++ linkUrisFrom 0 rest := by
  rw [linkUrisFrom, hu]
  simp only
  rw [linkUrisFrom_eq_drop, drop_of_cons_eq_append e (uri?_spec hu).1.ne_nil]

/-- **All that linking does at the start of a text**: it links an address there, or copies one
character. -/
theorem linkUrisFrom_cases (c : Char) (rest : Text) :
    (∃ uri later, uri? (c :: rest) = some uri ∧ c :: rest = uri ++ later ∧
        later.length < (c :: rest).length ∧
        linkUrisFrom 0 (c :: rest) = uriLink uri ++ linkUrisFrom 0 later) ∨
      linkUrisFrom 0 (c :: rest) = c :: linkUrisFrom 0 rest := by
  cases hu : uri? (c :: rest) with
  | some uri =>
    obtain ⟨hisUri, later, e⟩ := uri?_spec hu
    exact Or.inl ⟨uri, later, rfl, e.symm, length_lt_of_append e.symm hisUri.ne_nil,
      linkUrisFrom_uri hu e.symm⟩
  | none =>
    refine Or.inr ?_
    rw [linkUrisFrom, hu]

/-- **Linking addresses only puts in their tags.** The text may hold tags, in which no address
starts; `U` is what is known of the addresses of the text that is shown. -/
theorem tagged_linkUris {P U : Text → Prop} (hP : ∀ body, P body → 'h' ∉ body ∧ 'm' ∉ body)
    {html text : Text} (h : Tagged P html text) (hU : ∀ uri, IsUri uri → uri <:+: text → U uri) :
    Tagged (fun body => P body ∨ ∃ uri, U uri ∧ UriTag uri body) (linkUris html) text := by
  unfold linkUris
  induction hn : html.length using Nat.strong_induction_on generalizing html text with
  | h n ih =>
    subst hn
    cases h with
    | nil => exact .nil
    | @tag body html text hB hb hr =>
      have hfree := hP body hB
      have happ : linkUrisFrom 0 ('<' :: body ++ '>' :: html) =
          '<' :: body ++ '>' :: linkUrisFrom 0 html := by
        have hh : 'h' ∉ '<' :: body ++ ['>'] := by simp [hfree.1]
        have hm : 'm' ∉ '<' :: body ++ ['>'] := by simp [hfree.2]
        have := linkUrisFrom_append hh hm html
        simpa using this
      rw [happ]
      refine .tag (Or.inl hB) hb (ih html.length ?_ hr hU rfl)
      simp only [List.cons_append, List.length_cons, List.length_append]
      omega
    | @char c html text h1 h2 hr =>
      rcases linkUrisFrom_cases c html with ⟨uri, rest, hu, e, hlength, hlink⟩ | hcopy
      · have hisUri : IsUri uri := (uri?_spec hu).1
        have hfree : TagFree uri := hisUri.tagFree
        obtain ⟨text', ht, hr'⟩ := Tagged.split (.char h1 h2 hr) e hfree.1
        have hin : U uri := hU uri hisUri (ht ▸ (List.prefix_append uri text').isInfix)
        have hmore := ih rest.length hlength hr'
          (fun u hu hi => hU u hu (ht ▸ hi.trans (List.suffix_append uri text').isInfix)) rfl
        rw [hlink, uriLink_eq_wrap, ht]
        have hopen : UriTag uri ("a href=\"" ++ uri ++ "\" target=\"alexandria_uri\"") := Or.inl rfl
        have hclose : UriTag uri "/a".toList := Or.inr rfl
        exact Tagged.wrap (Or.inr ⟨uri, hin, hopen⟩) (hopen.tagFree hfree) hfree
          (Or.inr ⟨uri, hin, hclose⟩) (hclose.tagFree hfree) hmore
      · rw [hcopy]
        refine .char h1 h2 (ih html.length (Nat.lt_succ_self _) hr ?_ rfl)
        exact fun uri hisUri hi => hU uri hisUri (hi.trans (List.suffix_cons c text).isInfix)

end CodeAtlas.Markup
