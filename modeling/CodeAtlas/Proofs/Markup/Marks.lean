/-
  File:      CodeAtlas/Proofs/Markup/Marks.lean
  Subject:   The tags of a line that lead somewhere: links to types, and anchors.

  * `Mute`: a tag with neither a fragment nor an id. Every start of such a tag is
    one too, which counts where a link is put into a tag and cuts it off.
  * `Marks`: a list of tags in which, mute ones apart, there are only links to
    types that the table knows and anchors of one form; their names in order.
  * `Claims`: names of declarations on a line that had no anchor before it.
  * `Places`: a part of a line, its marks, and the anchors placed before and
    after it. It goes through concatenation (`Places.append`).
  * `Linker.places_linkTypes`: linking the names of a text with mute tags.
-/
import CodeAtlas.Proofs.Markup.Links

namespace CodeAtlas.Markup

/-! ## 1. Mute tags -/

/-- A tag that has no fragment and no id. -/
def Mute (tag : Text) : Prop := '#' ∉ tag ∧ ¬ " id=".toList <:+: tag

instance (tag : Text) : Decidable (Mute tag) :=
  inferInstanceAs (Decidable ('#' ∉ tag ∧ ¬ " id=".toList <:+: tag))

theorem Mute.of_isPrefix {start tag : Text} (h : Mute tag) (hs : start <+: tag) : Mute start :=
  ⟨fun hm => h.1 (hs.subset hm), fun hi => h.2 (hi.trans hs.isInfix)⟩

/-- A tag with an address as its only varying part. -/
theorem mute_href {value after : Text} (h1 : '#' ∉ value) (h2 : ' ' ∉ value) (ha : Mute after) :
    Mute ("a href=\"" ++ value ++ after) := by
  constructor
  · simp only [List.mem_append, not_or]
    exact ⟨⟨by decide, h1⟩, ha.1⟩
  · intro hi
    have hblank : ' ' ∉ "href=\"" ++ value := by
      simp only [List.mem_append, not_or]
      exact ⟨by decide, h2⟩
    have e : "a href=\"" ++ value ++ after = 'a' :: ' ' :: ("href=\"" ++ value ++ after) := rfl
    rw [e] at hi
    have hid : " id=".toList = ' ' :: "id=".toList := rfl
    rw [hid] at hi
    have hskip : ' ' :: "id=".toList <:+: ' ' :: ("href=\"" ++ value ++ after) :=
      infix_of_infix_append (a := ['a']) (by decide) hi
    rcases List.infix_cons_iff.mp hskip with hp | hi
    · obtain ⟨_, e⟩ := hp
      exact nomatch e
    · exact ha.2 (infix_of_infix_append hblank hi)

theorem mute_keywordTag {body : Text} (h : KeywordTag body) : Mute body := by
  rcases h with rfl | rfl <;> decide

theorem mute_slashA : Mute "/a".toList := by decide

theorem mute_uriTag {uri body : Text} (hu : IsUri uri) (h : UriTag uri body) : Mute body := by
  have hchar : ∀ c, c ∈ uri → isUriChar c = true ∨ c = '&' := hu.2
  rcases h with rfl | rfl
  · refine mute_href (fun hm => ?_) (fun hm => ?_) (by decide)
    · exact absurd (hchar _ hm) (by decide)
    · exact absurd (hchar _ hm) (by decide)
  · exact mute_slashA

/-! ## 2. Texts with mute tags -/

/-- A text that is read from a given state on, with mute tags only, all of them closed. -/
structure MuteFrom (state : Option Text) (text : Text) : Prop where
  tags : ∀ tag ∈ tagsFrom state text, Mute tag
  closed : tagAfter state text = none

theorem Tagged.muteFrom {P : Text → Prop} (hP : ∀ body, P body → Mute body) {html text : Text}
    (h : Tagged P html text) : MuteFrom none html := by
  obtain ⟨list, hl, hlist⟩ := h.hasTags
  refine ⟨fun tag hm => hP tag (hlist tag ?_), hl.closed⟩
  rw [← hl.tags_eq]
  exact hm

namespace MuteFrom

theorem drop {state : Option Text} {a b : Text} (h : MuteFrom state (a ++ b)) :
    MuteFrom (tagAfter state a) b := by
  constructor
  · intro tag hm
    refine h.tags tag ?_
    rw [tagsFrom_append]
    exact List.mem_append_right _ hm
  · rw [← tagAfter_append]
    exact h.closed

theorem take {state : Option Text} {a b : Text} (h : MuteFrom state (a ++ b)) :
    ∀ tag ∈ tagsFrom state a, Mute tag := by
  intro tag hm
  refine h.tags tag ?_
  rw [tagsFrom_append]
  exact List.mem_append_left _ hm

/-- The part that has been read of the open tag is mute, since the whole tag is. -/
theorem run {tag text : Text} (h : MuteFrom (some tag) text) : Mute tag := by
  induction text generalizing tag with
  | nil => exact nomatch h.closed
  | cons c text ih =>
    by_cases hc : c = '<' ∨ c = '>'
    · refine h.tags tag ?_
      rcases hc with rfl | rfl <;> exact List.mem_cons_self
    · obtain ⟨h1, h2⟩ := not_or.mp hc
      have hread : readTag (some tag) c = ([], some (tag ++ [c])) := readTag_of_ne h1 h2 _
      have hnext : MuteFrom (some (tag ++ [c])) text := by
        have := h.drop (a := [c])
        rwa [tagAfter, hread] at this
      exact (ih hnext).of_isPrefix (List.prefix_append tag [c])

/-- Where the open tag is cut off, the rest has the same tags or fewer. -/
theorem outside {state : Option Text} {text : Text} (h : MuteFrom state text) :
    MuteFrom none text := by
  induction text generalizing state with
  | nil => exact ⟨fun _ hm => absurd hm List.not_mem_nil, rfl⟩
  | cons c text ih =>
    have hnext : MuteFrom (readTag state c).2 text := h.drop (a := [c])
    by_cases hc : c = '<'
    · subst hc
      have hstate : (readTag state '<').2 = some [] := by cases state <;> rfl
      rw [hstate] at hnext
      exact ⟨hnext.tags, hnext.closed⟩
    · have hread : readTag none c = ([], none) := by simp [readTag, hc]
      have hrest := ih hnext
      refine ⟨fun tag hm => hrest.tags tag ?_, ?_⟩
      · rwa [tagsFrom, hread] at hm
      · rw [tagAfter, hread]
        exact hrest.closed

end MuteFrom

/-! ## 3. Links to types and anchors -/

/-- The tag of an anchor without text, and what the tag of an anchor on a name starts with. -/
def idTag (name : Text) : Text := "a id=\"" ++ escapeAttribute name ++ "\""

theorem anchorTag_eq (name : Text) : anchorTag name = idTag name ++ " class=\"jxr_declaration\"" := by
  have hend : "\" class=\"jxr_declaration\"".toList =
      "\"".toList ++ " class=\"jxr_declaration\"".toList := rfl
  unfold anchorTag idTag
  rw [hend, List.append_assoc, List.append_assoc, List.append_assoc]

/-- The type is the one that the table has under its package and name. -/
def Linker.Knows (linker : Linker) (target : Target) : Prop :=
  linker.table.find? target.package target.declaration.name = some target.declaration

/-- `Marks linker form tags names`: apart from mute tags, `tags` are links to types that are known
and, in the given form, the anchors of `names`. -/
inductive Marks (linker : Linker) (form : Text → Text) : List Text → List Text → Prop where
  | nil : Marks linker form [] []
  | mute {tag : Text} {tags names : List Text} (ht : Mute tag) (h : Marks linker form tags names) :
      Marks linker form (tag :: tags) names
  | link {target : Target} {tags names : List Text} (ht : linker.Knows target)
      (h : Marks linker form tags names) :
      Marks linker form (linkTag (linker.typeHref target) :: tags) names
  | anchor {name : Text} {tags names : List Text} (h : Marks linker form tags names) :
      Marks linker form (form name :: tags) (name :: names)

namespace Marks

variable {linker : Linker} {form : Text → Text}

theorem append {a b x y : List Text} (ha : Marks linker form a x) (hb : Marks linker form b y) :
    Marks linker form (a ++ b) (x ++ y) := by
  induction ha with
  | nil => exact hb
  | mute ht _ ih => exact .mute ht ih
  | link ht _ ih => exact .link ht ih
  | anchor _ ih => exact .anchor ih

theorem of_mute {tags : List Text} (h : ∀ tag ∈ tags, Mute tag) : Marks linker form tags [] := by
  induction tags with
  | nil => exact .nil
  | cons tag tags ih =>
    exact .mute (h tag List.mem_cons_self) (ih fun t ht => h t (List.mem_cons_of_mem tag ht))

end Marks

/-- Names of declarations on a line, none of which has been placed before, each once. -/
structure Claims (linker : Linker) (line : Nat) (placed names : List Text) : Prop where
  declared : ∀ name ∈ names, ∃ declaration ∈ linker.declarationsOn line, declaration.name = name
  fresh : ∀ name ∈ names, name ∉ placed
  nodup : names.Nodup

namespace Claims

variable {linker : Linker} {line : Nat} {placed : Placed}

theorem nil : Claims linker line placed [] :=
  ⟨fun _ h => absurd h List.not_mem_nil, fun _ h => absurd h List.not_mem_nil, .nil⟩

theorem append {a b : List Text} (ha : Claims linker line placed a)
    (hb : Claims linker line (placed ++ a) b) : Claims linker line placed (a ++ b) := by
  constructor
  · intro name hm
    exact (List.mem_append.mp hm).elim (ha.declared name) (hb.declared name)
  · intro name hm
    rcases List.mem_append.mp hm with hm | hm
    · exact ha.fresh name hm
    · exact fun hp => hb.fresh name hm (List.mem_append_left a hp)
  · refine List.nodup_append.mpr ⟨ha.nodup, hb.nodup, ?_⟩
    rintro x hx y hy rfl
    exact hb.fresh x hy (List.mem_append_right placed hx)

theorem of_claim? {name : Text} {declaration : Declaration}
    (h : linker.claim? line placed name = some declaration) :
    Claims linker line placed [declaration.name] := by
  have hmem := List.mem_of_find?_eq_some h
  have hfree := List.find?_some h
  simp only [Bool.and_eq_true, Bool.not_eq_true', List.contains_eq_mem, decide_eq_false_iff_not]
    at hfree
  refine ⟨?_, ?_, List.pairwise_singleton _ _⟩
  · intro n hn
    exact ⟨declaration, hmem, (List.mem_singleton.mp hn).symm⟩
  · intro n hn
    rw [List.mem_singleton.mp hn]
    exact hfree.2

end Claims

/-- A part of a line that is read from a given state on and closes its tags: its marks are
anchors of declarations on the line, which are placed by it. -/
def Places (linker : Linker) (line : Nat) (state : Option Text) (placed : Placed)
    (out : Text × Placed) : Prop :=
  ∃ names, out.2 = placed ++ names ∧ tagAfter state out.1 = none ∧
    Marks linker anchorTag (tagsFrom state out.1) names ∧ Claims linker line placed names

namespace Places

variable {linker : Linker} {line : Nat} {placed : Placed} {state : Option Text}

/-- Marks in front of a part. -/
theorem cons {a : Text} {names : List Text} {out : Text × Placed}
    (ha : Marks linker anchorTag (tagsFrom state a) names) (hc : Claims linker line placed names)
    (h : Places linker line (tagAfter state a) (placed ++ names) out) :
    Places linker line state placed (a ++ out.1, out.2) := by
  obtain ⟨more, hout, hclosed, hmarks, hclaims⟩ := h
  refine ⟨names ++ more, ?_, ?_, ?_, hc.append hclaims⟩
  · rw [hout, List.append_assoc]
  · rw [tagAfter_append]
    exact hclosed
  · rw [tagsFrom_append]
    exact ha.append hmarks

theorem append {a b : Text × Placed} (ha : Places linker line none placed a)
    (hb : Places linker line none a.2 b) : Places linker line none placed (a.1 ++ b.1, b.2) := by
  obtain ⟨names, hout, hclosed, hmarks, hclaims⟩ := ha
  rw [hout, ← hclosed] at hb
  exact cons hmarks hclaims hb

/-- A text with mute tags places nothing. -/
theorem of_muteFrom {text : Text} (h : MuteFrom state text) :
    Places linker line state placed (text, placed) :=
  ⟨[], (List.append_nil placed).symm, h.closed, Marks.of_mute h.tags, Claims.nil⟩

end Places

/-! ## 4. Linking names -/

namespace Linker

theorem knows_of_target? {linker : Linker} {package name : Text} {target : Target}
    (h : linker.target? package name = some target) : linker.Knows target := by
  obtain ⟨declaration, hd, rfl⟩ := Option.map_eq_some_iff.mp h
  obtain ⟨p, hp, hf⟩ := Option.bind_eq_some_iff.mp hd
  have hname : declaration.name = name := by
    have := List.find?_some hf
    simpa using this
  unfold Knows
  rw [hname]
  exact hd

/-- A name refers only to types that the table has. -/
theorem knows_of_resolve? {linker : Linker} {name : Text} {target : Target}
    (h : linker.resolve? name = some target) : linker.Knows target := by
  unfold resolve? at h
  cases hq : linker.qualified? name with
  | some found =>
    rw [hq] at h
    cases h
    obtain ⟨⟨package, type⟩, _, hcut⟩ := List.exists_of_findSome?_eq_some hq
    simp only at hcut
    split at hcut
    · exact nomatch hcut
    · exact knows_of_target? hcut
  | none =>
    rw [hq] at h
    obtain ⟨package, _, hp⟩ := List.exists_of_findSome?_eq_some h
    exact knows_of_target? hp

/-- The marks of what replaces the start of a word. A tag that is open before it is cut off. -/
theorem marks_replacement {linker : Linker} {line : Nat} {placed after : Placed}
    {previous word name replacement : Text} {state : Option Text}
    (hstate : ∀ tag, state = some tag → Mute tag)
    (h : linker.linkWord line placed previous word = (some (name, replacement), after)) :
    ∃ names, after = placed ++ names ∧ tagAfter state replacement = none ∧
      Marks linker anchorTag (tagsFrom state replacement) names ∧ Claims linker line placed names := by
  have hopen : Marks linker anchorTag state.toList [] :=
    Marks.of_mute fun tag hm => hstate tag (Option.mem_toList.mp hm)
  have hclose : Marks linker anchorTag ["/a".toList] [] := .mute mute_slashA .nil
  rcases linker.linkWord_cases line placed previous word with e | ⟨n, d, hm, hc, e⟩ | ⟨n, t, hm, hr, e⟩
  · cases e.symm.trans h
  · cases e.symm.trans h
    obtain ⟨htags, hafter⟩ := tagsFrom_wrap (tagFree_anchorTag d.name)
      (tagFree_of_mem_nameCandidates hm) tagFree_slashA state
    rw [declarationAnchor_eq_wrap]
    refine ⟨[d.name], rfl, hafter, ?_, .of_claim? hc⟩
    rw [htags]
    exact hopen.append (.anchor hclose)
  · cases e.symm.trans h
    obtain ⟨htags, hafter⟩ := tagsFrom_wrap (tagFree_linkTag (linker.typeHref t))
      (tagFree_of_mem_nameCandidates hm) tagFree_slashA state
    rw [nameLink_eq_wrap]
    refine ⟨[], (List.append_nil placed).symm, hafter, ?_, .nil⟩
    rw [htags]
    exact hopen.append (.link (knows_of_resolve? hr) hclose)

/-- **Linking names** in a text with mute tags puts in links to known types, and anchors of
declarations on the line that had none. -/
theorem places_linkWords (linker : Linker) (line : Nat) (placed : Placed) (previous text : Text)
    (state : Option Text) (hm : MuteFrom state text) :
    Places linker line state placed (linker.linkWords line placed previous text) := by
  fun_induction linkWords linker line placed previous text generalizing state with
  | case1 placed previous => exact .of_muteFrom hm
  | case2 placed previous c rest hc shown final he ih =>
    have hrest := ih (readTag state c).2 (hm.drop (a := [c]))
    rw [he, ← List.append_nil placed] at hrest
    exact Places.cons (Marks.of_mute (hm.take (a := [c]))) .nil hrest
  | case3 placed previous c rest hc word link after hl shown final he ih =>
    have htext : c :: rest = word ++ rest.dropWhile (!isBreaker ·) := by simp [word]
    rw [htext] at hm
    cases link with
    | none =>
      have hafter : after = placed := by
        rcases linker.linkWord_cases line placed previous word with
          e | ⟨n, d, _, _, e⟩ | ⟨n, t, _, _, e⟩
        · cases e.symm.trans hl
          rfl
        · cases e.symm.trans hl
        · cases e.symm.trans hl
      have hrest := ih (tagAfter state word) hm.drop
      rw [he, hafter, ← List.append_nil placed] at hrest
      exact Places.cons (Marks.of_mute hm.take) .nil hrest
    | some found =>
      obtain ⟨name, replacement⟩ := found
      obtain ⟨start, hword⟩ := linkWord_isPrefix hl
      have hopen : ∀ tag, state = some tag → Mute tag := by
        rintro tag rfl
        exact hm.run
      obtain ⟨names, rfl, hclosed, hmarks, hclaims⟩ := marks_replacement hopen hl
      -- what follows the name is read outside of tags, whatever the name stood in
      have hlater : MuteFrom none (start ++ rest.dropWhile (!isBreaker ·)) := by
        rw [← hword, List.append_assoc] at hm
        exact hm.drop.outside
      have hrest := ih (tagAfter none start) hlater.drop
      rw [he, ← List.append_nil (placed ++ names)] at hrest
      have hstart := Places.cons (Marks.of_mute hlater.take) .nil hrest
      rw [← hclosed] at hstart
      have e : rewriteWord (some (name, replacement)) word ++ shown =
          replacement ++ (start ++ shown) := by
        rw [← hword]
        simp [rewriteWord]
      rw [e]
      exact Places.cons hmarks hclaims hstart

theorem places_linkTypes (linker : Linker) (line : Nat) (placed : Placed) {text : Text}
    (h : MuteFrom none text) :
    Places linker line none placed (linker.linkTypes line placed text) := by
  rw [linkTypes_eq_linkWords]
  exact linker.places_linkWords line placed [] text none h

end Linker

end CodeAtlas.Markup
