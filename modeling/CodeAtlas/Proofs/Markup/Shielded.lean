/-
  File:      CodeAtlas/Proofs/Markup/Shielded.lean
  Subject:   Texts in which no name is linked inside a tag or another link.

  * `word_place_from`, `Linker.word_of_mem_linkEdits`: a link stands at the start
    of a word, and a word starts after a breaker.
  * `Marked`: what the keyword filter and the address filter make of a text:
    parts without tags, linked addresses, and parts between the tags of reserved
    words. It is balanced.
  * `Shielded`: no word that starts inside a tag or a link stands for a name. A
    marked text is shielded if its addresses hold no round brackets: the words
    that start in tags are attributes, and such an address is part of one word.
  * `Linker.not_linksInside`: then no name is linked inside.
-/
import CodeAtlas.Proofs.Markup.Inside

namespace CodeAtlas.Markup

/-! ## 1. Where words start -/

/-- A word starts at the start of the text or after a breaker, and reaches up to the next one.
`lead` is what stands before the text, and a word may start right after it unless the text starts
with a breaker. -/
theorem word_place_from (text lead : Text)
    (h : EndsWord lead ∨ ∀ c, text.head? = some c → isBreaker c = true) {word : Word}
    (hw : word ∈ wordsFrom lead.length text) :
    ∃ before rest, lead ++ text = before ++ rest ∧ before.length = word.start ∧
      EndsWord before ∧ word.text = rest.takeWhile (!isBreaker ·) := by
  induction hn : text.length using Nat.strong_induction_on generalizing text lead with
  | h n ih =>
    subst hn
    cases text with
    | nil => simp [wordsFrom] at hw
    | cons c rest =>
      rw [wordsFrom] at hw
      split at hw
      · rename_i hc
        have hend : EndsWord (lead ++ [c]) := by
          intro d hd
          rw [List.getLast?_concat] at hd
          exact Option.some.inj hd ▸ hc
        have hlen : lead.length + 1 = (lead ++ [c]).length := by simp
        rw [hlen] at hw
        have := ih rest.length (Nat.lt_succ_self _) rest (lead ++ [c]) (Or.inl hend) hw rfl
        rwa [List.append_assoc] at this
      · rename_i hc
        have htext : c :: rest =
            (c :: rest.takeWhile (!isBreaker ·)) ++ rest.dropWhile (!isBreaker ·) := by simp
        rcases List.mem_cons.mp hw with rfl | hw
        · refine ⟨lead, c :: rest, rfl, rfl, h.resolve_right fun hb => hc (hb c rfl), ?_⟩
          simp [hc]
        · have hshort : (rest.dropWhile (!isBreaker ·)).length < (c :: rest).length :=
            Nat.lt_succ_of_le (List.dropWhile_suffix _).length_le
          rw [← List.length_append] at hw
          have := ih _ hshort _ (lead ++ (c :: rest.takeWhile (!isBreaker ·)))
            (Or.inr (isBreaker_of_head?_dropWhile rest)) hw rfl
          rwa [List.append_assoc, ← htext] at this

namespace Linker

/-- What is replaced is at the start of a word that may stand for a name. -/
theorem word_of_mem_linkEdits {linker : Linker} {line : Nat} {placed : Placed} {previous : Text}
    {list : List Word} {edit : Edit}
    (h : edit ∈ (linker.linkEdits line placed previous list).1) :
    ∃ word ∈ list, word.start = edit.start ∧ nameCandidates word.text ≠ [] := by
  induction list generalizing placed previous with
  | nil => exact absurd h List.not_mem_nil
  | cons word list ih =>
    have hlater : ∀ {after shown}, edit ∈ (linker.linkEdits line after shown list).1 →
        ∃ w ∈ word :: list, w.start = edit.start ∧ nameCandidates w.text ≠ [] := by
      intro after shown he
      obtain ⟨w, hm, hw⟩ := ih he
      exact ⟨w, List.mem_cons_of_mem word hm, hw⟩
    rw [linkEdits_cons] at h
    rcases linker.linkWord_cases line placed previous word.text with
      e | ⟨n, d, hm, _, e⟩ | ⟨n, t, hm, _, e⟩
    · rw [e] at h
      exact hlater h
    all_goals
      rw [e] at h
      rcases List.mem_cons.mp h with rfl | h
      · exact ⟨word, List.mem_cons_self, rfl, List.ne_nil_of_mem hm⟩
      · exact hlater h

end Linker

/-! ## 2. What the filters before make of a text -/

/-- A text put together from parts without tags, linked addresses that satisfy `U`, and such texts
between the tags of reserved words. -/
inductive Marked (U : Text → Prop) : Text → Prop where
  | text {text : Text} (h : TagFree text) : Marked U text
  | uri {uri : Text} (h : IsUri uri) (hU : U uri) : Marked U (uriLink uri)
  | keyword {html : Text} (h : Marked U html) :
      Marked U ("<strong class=\"jxr_keyword\">" ++ html ++ "</strong>")
  | append {a b : Text} (ha : Marked U a) (hb : Marked U b) : Marked U (a ++ b)

variable {U : Text → Prop}

theorem Marked.balanced {html : Text} (h : Marked U html) : Balanced html := by
  induction h with
  | text h => exact .tagFree h
  | uri h _ => exact .uriLink h
  | keyword _ ih =>
    have hname : element? "strong class=\"jxr_keyword\"".toList = some "strong".toList := by decide
    exact Balanced.element (by decide) hname (by decide) ih
  | append _ _ iha ihb => exact iha.append ihb

theorem marked_linkUrisFrom {text : Text} (ht : TagFree text)
    (hU : ∀ uri, IsUri uri → uri <:+: text → U uri) (skip : Nat) :
    Marked U (linkUrisFrom skip text) := by
  induction text generalizing skip with
  | nil => exact .text TagFree.nil
  | cons c rest ih =>
    obtain ⟨hc, hrest⟩ := tagFree_cons.mp ht
    have hmore := ih hrest fun uri hu hi => hU uri hu (hi.trans (List.suffix_cons c rest).isInfix)
    cases skip with
    | succ skip => exact hmore skip
    | zero =>
      unfold linkUrisFrom
      split
      · rename_i uri hu
        obtain ⟨hisUri, hpre⟩ := uri?_spec hu
        exact .append (.uri hisUri (hU uri hisUri hpre.isInfix)) (hmore _)
      · exact .append (.text (tagFree_cons.mpr ⟨hc, TagFree.nil⟩)) (hmore 0)

/-! An address ends where a tag starts, so that addresses are linked part by part. -/

theorem isPrefixOf_append_tag {start : Text} (h : '<' ∉ start) (a rest : Text) :
    start.isPrefixOf (a ++ '<' :: rest) = start.isPrefixOf a := by
  induction start generalizing a with
  | nil => simp
  | cons c start ih =>
    rw [List.mem_cons, not_or] at h
    cases a with
    | nil => simpa [List.isPrefixOf] using fun e => absurd e.symm h.1
    | cons d a => simp [List.isPrefixOf, ih h.2]

theorem uriRun_append_tag (a rest : Text) : uriRun (a ++ '<' :: rest) = uriRun a := by
  have hends : ∀ a : Text, endsUri (a ++ '<' :: rest) = endsUri a := by
    intro a
    have hfree : ∀ start ∈ ["lt;".toList, "gt;", "quot;", "#92;"], '<' ∉ start := by decide
    unfold endsUri
    rw [Bool.eq_iff_iff, List.any_eq_true, List.any_eq_true]
    exact exists_congr fun start => and_congr_right fun hs => by
      rw [isPrefixOf_append_tag (hfree start hs)]
  induction a with
  | nil => rfl
  | cons c a ih => simp only [List.cons_append, uriRun, hends, ih]

theorem uri?_append_tag (a rest : Text) : uri? (a ++ '<' :: rest) = uri? a := by
  have hscheme : uriScheme? (a ++ '<' :: rest) = uriScheme? a := by
    unfold uriScheme?
    simp only [List.find?_cons, List.find?_nil]
    rw [isPrefixOf_append_tag (by decide), isPrefixOf_append_tag (by decide),
      isPrefixOf_append_tag (by decide)]
  unfold uri?
  rw [hscheme]
  cases hs : uriScheme? a with
  | none => rfl
  | some scheme =>
    have hpre : scheme.isPrefixOf a = true := by
      have := List.find?_some hs
      exact this
    obtain ⟨later, rfl⟩ := List.isPrefixOf_iff_prefix.mp hpre
    rw [List.append_assoc]
    simp only [List.drop_left, uriRun_append_tag]

theorem linkUrisFrom_append_tag {skip : Nat} {a : Text} (h : skip ≤ a.length) (rest : Text) :
    linkUrisFrom skip (a ++ '<' :: rest) = linkUrisFrom skip a ++ linkUrisFrom 0 ('<' :: rest) := by
  induction a generalizing skip with
  | nil =>
    rw [Nat.le_zero.mp h]
    rfl
  | cons c a ih =>
    cases skip with
    | succ skip => exact ih (Nat.le_of_succ_le_succ h)
    | zero =>
      have hu := uri?_append_tag (c :: a) rest
      rw [List.cons_append] at hu ⊢
      rw [linkUrisFrom, linkUrisFrom, hu]
      cases hf : uri? (c :: a) with
      | none =>
        simp only [List.cons_append]
        rw [ih (Nat.zero_le _)]
      | some uri =>
        have hlen := (uri?_spec hf).2.length_le
        rw [List.length_cons] at hlen
        simp only [List.append_assoc]
        rw [ih (by omega)]

/-- Addresses before, in and after a part between two tags in which no address starts. -/
theorem linkUris_element {opening closing : Text} (ho : opening.head? = some '<')
    (hc : closing.head? = some '<') (hno : ∀ c ∈ opening ++ closing, c ≠ 'h' ∧ c ≠ 'm')
    (a content rest : Text) :
    linkUris (a ++ (opening ++ content ++ closing ++ rest)) =
      linkUris a ++ (opening ++ linkUris content ++ closing) ++ linkUris rest := by
  have hcut : ∀ a tag : Text, tag.head? = some '<' →
      linkUris (a ++ tag) = linkUris a ++ linkUris tag := by
    intro a tag ht
    obtain ⟨more, rfl⟩ := List.head?_eq_some_iff.mp ht
    exact linkUrisFrom_append_tag (Nat.zero_le _) more
  have hkeep : ∀ tag rest : Text, (∀ c ∈ tag, c ≠ 'h' ∧ c ≠ 'm') →
      linkUris (tag ++ rest) = tag ++ linkUris rest := fun tag rest ht =>
    linkUrisFrom_append (fun hm => (ht _ hm).1 rfl) (fun hm => (ht _ hm).2 rfl) rest
  have hhead : ∀ {tag : Text} (more : Text), tag.head? = some '<' →
      (tag ++ more).head? = some '<' := by
    intro tag more ht
    rw [List.head?_append, ht]
    rfl
  simp only [List.append_assoc]
  rw [hcut a _ (hhead _ ho), hkeep opening _ fun c hm => hno c (List.mem_append_left _ hm),
    hcut content _ (hhead _ hc), hkeep closing _ fun c hm => hno c (List.mem_append_right _ hm)]

/-- Linking addresses in a text with emphasised reserved words. `a` is what has been read since
the last tag. -/
theorem marked_linkUris_append {a html text : Text} (ha : TagFree a) (h : Emphasised html text)
    (hU : ∀ uri, IsUri uri → uri <:+: a ++ text → U uri) : Marked U (linkUris (a ++ html)) := by
  induction h generalizing a with
  | nil =>
    rw [List.append_nil] at hU ⊢
    exact marked_linkUrisFrom ha hU 0
  | @char c html text h1 h2 _ ih =>
    have hc : TagFree (a ++ [c]) := tagFree_append.mpr ⟨ha, tagFree_cons.mpr ⟨⟨h1, h2⟩, .nil⟩⟩
    have := ih hc (by simpa using hU)
    simpa using this
  | @word word html text hw _ ih =>
    have hin : ∀ {part : Text}, part <:+: a ++ (word ++ text) →
        ∀ uri, IsUri uri → uri <:+: part → U uri := fun hp uri hu hi => hU uri hu (hi.trans hp)
    rw [linkUris_element (by decide) (by decide) (forall_mem_of_all rfl)]
    refine .append (.append ?_ (.keyword ?_)) ?_
    · exact marked_linkUrisFrom ha (hin (List.prefix_append a _).isInfix) 0
    · exact marked_linkUrisFrom hw (hin ⟨a, text, by simp⟩) 0
    · exact ih .nil (hin ⟨a ++ word, [], by simp⟩)

/-- The text in which names are linked. -/
theorem marked_prepared (reserved : List Text) {text : Text} (ht : TagFree text)
    (hU : ∀ uri, IsUri uri → uri <:+: text → U uri) :
    Marked U (linkUris (highlightKeywords reserved text)) :=
  marked_linkUris_append .nil (emphasised_highlightKeywords reserved ht) hU

/-! ## 3. Addresses without round brackets -/

/-- Of the characters of an address, only round brackets end a word. -/
theorem not_isBreaker_of_isUriChar {c : Char} (h : isUriChar c = true) (h1 : c ≠ '(')
    (h2 : c ≠ ')') : isBreaker c = false := by
  rcases (Bool.or_eq_true _ _).mp h with h | h
  · -- letters and digits stand apart from all breakers
    have hrange : 48 ≤ c.toNat ∧ c.toNat ≤ 57 ∨ 65 ≤ c.toNat ∧ c.toNat ≤ 90 ∨
        97 ≤ c.toNat ∧ c.toNat ≤ 122 := by
      rcases (Bool.or_eq_true _ _).mp h with h | h
      · rcases (Bool.or_eq_true _ _).mp h with h | h
        · obtain ⟨hlo, hhi⟩ := of_decide_eq_true h
          exact Or.inr (Or.inl ⟨UInt32.le_iff_toNat_le.mp hlo, UInt32.le_iff_toNat_le.mp hhi⟩)
        · obtain ⟨hlo, hhi⟩ := (Bool.and_eq_true _ _).mp h
          exact Or.inr (Or.inr ⟨UInt32.le_iff_toNat_le.mp (of_decide_eq_true hlo),
            UInt32.le_iff_toNat_le.mp (of_decide_eq_true hhi)⟩)
      · obtain ⟨hlo, hhi⟩ := (Bool.and_eq_true _ _).mp h
        exact Or.inl ⟨UInt32.le_iff_toNat_le.mp (of_decide_eq_true hlo),
          UInt32.le_iff_toNat_le.mp (of_decide_eq_true hhi)⟩
    have hblank : Text.isBlank c = false := by
      have hlt : c.toNat < 128 := by omega
      have hspace : c ≠ ' ' := by
        rintro rfl
        exact absurd hrange (by decide)
      have h9 : decide (c.toNat ≤ 13) = false := decide_eq_false (by omega)
      have h28 : decide (c.toNat ≤ 31) = false := decide_eq_false (by omega)
      simp [Text.isBlank, hlt, hspace, h9, h28]
    have hne : c ≠ '[' ∧ c ≠ '{' ∧ c ≠ '}' := by
      refine ⟨?_, ?_, ?_⟩ <;> rintro rfl <;> exact absurd hrange (by decide)
    simp [isBreaker, hblank, h1, h2, hne]
  · have hall : ∀ c ∈ "?+%:/.@_;=$,!~*'()-".toList, c ≠ '(' → c ≠ ')' → isBreaker c = false :=
      forall_mem_of_all rfl
    exact hall c (List.contains_iff_mem.mp h) h1 h2

/-- An address without round brackets lies in one word. -/
theorem IsUri.not_isBreaker {uri : Text} (h : IsUri uri) (hu : '(' ∉ uri ∧ ')' ∉ uri) :
    ∀ c ∈ uri, isBreaker c = false := by
  intro c hc
  rcases h.2 c hc with hchar | rfl
  · exact not_isBreaker_of_isUriChar hchar (fun e => hu.1 (e ▸ hc)) fun e => hu.2 (e ▸ hc)
  · decide

/-- A linked address is three words if the address is part of one. -/
theorem uriLink_eq_words (uri : Text) :
    uriLink uri = "<a".toList ++ ' ' :: (("href=\"".toList ++ uri ++ ['"']) ++
      ' ' :: ("target=\"alexandria_uri\">".toList ++ uri ++ "</a>".toList)) := by
  have hopen : "<a href=\"".toList = "<a".toList ++ ' ' :: "href=\"".toList := rfl
  have hend : "\" target=\"alexandria_uri\">".toList =
      '"' :: ' ' :: "target=\"alexandria_uri\">".toList := rfl
  unfold uriLink
  rw [hopen, hend]
  simp only [List.append_assoc, List.cons_append, List.nil_append]

/-- No breaker ends a start of a text without breakers. -/
theorem not_endsWord {text before rest : Text} (h : ∀ c ∈ text, isBreaker c = false)
    (e : text = before ++ rest) (hne : before ≠ []) : ¬ EndsWord before := by
  intro hend
  have hlast := hend _ (List.getLast?_eq_getLast_of_ne_nil hne)
  have hno := h (before.getLast hne) (e ▸ List.mem_append_left rest (List.getLast_mem hne))
  exact absurd (hno.symm.trans hlast) Bool.false_ne_true

/-- A word of a text that starts with a word and a breaker is what follows the breaker, or starts
further right. -/
theorem word_after_breaker {a later before rest : Text} {b : Char}
    (ha : ∀ c ∈ a, isBreaker c = false) (e : a ++ b :: later = before ++ rest)
    (hne : before ≠ []) (hend : EndsWord before) :
    rest = later ∨ ∃ more, later = more ++ rest ∧ more ≠ [] ∧ EndsWord more := by
  rcases List.append_eq_append_iff.mp e with ⟨more, hb, hr⟩ | ⟨more, hb, _⟩
  · cases more with
    | nil =>
      rw [List.append_nil] at hb
      exact absurd hend (not_endsWord (hb ▸ ha) (List.append_nil before).symm hne)
    | cons d more =>
      obtain ⟨rfl, hlater⟩ := List.cons.inj hr
      by_cases hm : more = []
      · subst hm
        exact Or.inl hlater.symm
      · refine Or.inr ⟨more, hlater, hm, ?_⟩
        rw [hb, List.append_cons] at hend
        exact (endsWord_append _ hm).mp hend
  · exact absurd hend (not_endsWord ha hb hne)

/-- No word that starts inside a tag or a link stands for a name, whatever follows the text. -/
def Shielded (html : Text) : Prop :=
  ∀ opened, linkElement ∉ opened → ∀ before rest, html = before ++ rest → EndsWord before →
    ∀ nest, Nest.read ⟨opened, none⟩ before = some nest → nest.Inside →
      ∀ more, nameCandidates ((rest ++ more).takeWhile (!isBreaker ·)) = []

/-- The names and values of attributes stand for no names. -/
theorem nameCandidates_attribute {lead : Text}
    (h : lead ∈ ["href=\"".toList, "target=\"", "class=\""]) (more : Text) :
    nameCandidates ((lead ++ more).takeWhile (!isBreaker ·)) = [] := by
  simp only [List.mem_cons, List.not_mem_nil, or_false] at h
  rcases h with rfl | rfl | rfl <;> rfl

namespace Shielded

theorem tagFree {text : Text} (h : TagFree text) : Shielded text := by
  intro opened hl before rest e _ nest hr hin
  have hbefore : TagFree before := h.subset (e ▸ List.subset_append_left before rest)
  rw [Nest.read_tagFree hbefore] at hr
  cases hr
  exact absurd hin (Nest.not_inside_mk hl)

/-- Inside a single word no other one starts. -/
theorem of_word {text : Text} (h : ∀ c ∈ text, isBreaker c = false) : Shielded text := by
  intro opened hl before rest e hend nest hr hin
  exact absurd hend (not_endsWord h e (Nest.ne_nil_of_inside hl hr hin))

theorem append {a b : Text} (hbal : Balanced a) (ha : Shielded a) (hb : Shielded b) :
    Shielded (a ++ b) := by
  intro opened hl before rest e hend nest hr hin more
  rcases List.append_eq_append_iff.mp e with ⟨later, rfl, hrest⟩ | ⟨later, hbefore, rfl⟩
  · rw [Nest.read_append_of (hbal opened hl)] at hr
    have hne := Nest.ne_nil_of_inside hl hr hin
    exact hb opened hl later rest hrest ((endsWord_append a hne).mp hend) nest hr hin more
  · rw [List.append_assoc]
    exact ha opened hl before later hbefore hend nest hr hin (b ++ more)

/-- The words that start inside a linked address without round brackets are its two attributes. -/
theorem uriLink {uri : Text} (h : IsUri uri) (hu : '(' ∉ uri ∧ ')' ∉ uri) :
    Shielded (uriLink uri) := by
  have hwords : ∀ {a b : Text}, (∀ c ∈ a ++ b, isBreaker c = false) →
      ∀ c ∈ a ++ uri ++ b, isBreaker c = false := by
    intro a b hab c hc
    rw [List.mem_append, List.mem_append] at hc
    rcases hc with (hc | hc) | hc
    · exact hab c (List.mem_append_left b hc)
    · exact h.not_isBreaker hu c hc
    · exact hab c (List.mem_append_right a hc)
  have hlead : ∀ c ∈ "<a".toList, isBreaker c = false := forall_mem_of_all rfl
  have hhref : ∀ c ∈ "href=\"".toList ++ uri ++ ['"'], isBreaker c = false :=
    hwords (forall_mem_of_all rfl)
  have htarget : ∀ c ∈ "target=\"alexandria_uri\">".toList ++ uri ++ "</a>".toList,
      isBreaker c = false :=
    hwords (forall_mem_of_all rfl)
  rw [uriLink_eq_words]
  intro opened hl before rest hsplit hend nest hr hin more
  have hne := Nest.ne_nil_of_inside hl hr hin
  rcases word_after_breaker hlead hsplit hne hend with rfl | ⟨later, hlater, hne, hend⟩
  · rw [List.append_assoc, List.append_assoc, List.append_assoc]
    exact nameCandidates_attribute (by decide) _
  rcases word_after_breaker hhref hlater hne hend with rfl | ⟨last, hlast, hne, hend⟩
  · rw [List.append_assoc, List.append_assoc]
    have hsplit : "target=\"alexandria_uri\">".toList =
        "target=\"".toList ++ "alexandria_uri\">".toList := rfl
    rw [hsplit, List.append_assoc]
    exact nameCandidates_attribute (by decide) _
  · exact absurd hend (not_endsWord htarget hlast hne)

/-- The word that starts inside the tags of a reserved word is an attribute. -/
theorem keyword {html : Text} (hbal : Balanced html) (h : Shielded html) :
    Shielded ("<strong class=\"jxr_keyword\">" ++ html ++ "</strong>") := by
  have hclose : Shielded "</strong>" := of_word (forall_mem_of_all rfl)
  have hlead : ∀ c ∈ "<strong".toList, isBreaker c = false := forall_mem_of_all rfl
  have hclass : ∀ c ∈ "class=\"jxr_keyword\">".toList, isBreaker c = false := forall_mem_of_all rfl
  intro opened hl before rest hsplit hend nest hr hin more
  rw [List.append_assoc] at hsplit
  rcases List.append_eq_append_iff.mp hsplit with ⟨later, rfl, hrest⟩ | ⟨later, hbefore, rfl⟩
  · have hopen : Nest.read ⟨opened, none⟩ "<strong class=\"jxr_keyword\">" =
        some ⟨"strong".toList :: opened, none⟩ := by
      have hfree : TagFree "strong class=\"jxr_keyword\"".toList := by decide
      exact Nest.read_open hfree (by decide) fun e => absurd e (by decide)
    have hl' : linkElement ∉ "strong".toList :: opened := by
      rw [List.mem_cons, not_or]
      exact ⟨by decide, hl⟩
    rw [Nest.read_append_of hopen] at hr
    have hne := Nest.ne_nil_of_inside hl' hr hin
    have hend' := (endsWord_append _ hne).mp hend
    exact (append hbal h hclose) _ hl' later rest hrest hend' nest hr hin more
  · have hne := Nest.ne_nil_of_inside hl hr hin
    have hopen : "<strong".toList ++ ' ' :: "class=\"jxr_keyword\">".toList = before ++ later :=
      hbefore
    rcases word_after_breaker hlead hopen hne hend with rfl | ⟨last, hlast, hne, hend⟩
    · have hsplit : "class=\"jxr_keyword\">".toList =
          "class=\"".toList ++ "jxr_keyword\">".toList := rfl
      rw [hsplit, List.append_assoc, List.append_assoc]
      exact nameCandidates_attribute (by decide) _
    · exact absurd hend (not_endsWord hclass hlast hne)

end Shielded

theorem Marked.shielded (hU : ∀ uri, U uri → '(' ∉ uri ∧ ')' ∉ uri) {html : Text}
    (h : Marked U html) : Shielded html := by
  induction h with
  | text h => exact .tagFree h
  | uri h hu => exact .uriLink h (hU _ hu)
  | keyword h ih => exact .keyword h.balanced ih
  | append ha _ iha ihb => exact .append ha.balanced iha ihb

namespace Linker

/-- **Where no address holds a round bracket, no name is linked inside a tag or a link.** -/
theorem not_linksInside (linker : Linker) (line : Nat) (placed : Placed) {text : Text}
    (ht : TagFree text)
    (hu : ∀ uri, IsUri uri → uri <:+: text → '(' ∉ uri ∧ ')' ∉ uri) :
    ¬ linker.LinksInside line placed text := by
  have hshield := (marked_prepared linker.reservedWords ht hu).shielded fun _ h => h
  rintro ⟨edit, he, nest, hr, hin⟩
  obtain ⟨word, hw, hstart, hcand⟩ := word_of_mem_linkEdits he
  obtain ⟨before, rest, e, hlen, hend, hword⟩ :=
    word_place_from _ [] (Or.inl fun _ hc => nomatch hc) hw
  rw [List.nil_append] at e
  rw [e, ← hstart, ← hlen, List.take_left] at hr
  have := hshield [] List.not_mem_nil before rest e hend nest hr hin []
  rw [List.append_nil, ← hword] at this
  exact hcand this

end Linker

end CodeAtlas.Markup
