/-
  File:      CodeAtlas/Proofs/Markup/Inside.lean
  Subject:   Links that start inside a tag or inside another link.

  Names are linked in a text that has tags already, by the offsets of its words.
  A word may lie inside a tag, or between the tags of a link.

  * `Linker.LinksInside`: some name of a plain text is linked at such a place.
  * `Linker.insideFrom_breaker`, `Linker.insideFrom_word`: the places of links in
    a text, from those in what follows its first breaker or word.
  * `Linker.read_linkWords`: a reader of well-formed markup refuses the text with
    its names linked if one of them lies inside, and sees no change otherwise.
-/
import CodeAtlas.Proofs.Markup.Elements

namespace CodeAtlas.Markup

/-! ## 1. The places of links -/

namespace Linker

/-- Some name of a marked-up text, read from a given place on, is linked inside a tag or a link. -/
def InsideFrom (linker : Linker) (line : Nat) (nest : Nest) (placed : Placed)
    (previous html : Text) : Prop :=
  ∃ edit ∈ (linker.linkEdits line placed previous (words html)).1,
    ∃ mid, nest.read (html.take edit.start) = some mid ∧ mid.Inside

/-- Some name of a plain text is linked inside a tag or a link that stands there once reserved
words are emphasised and addresses are linked. -/
def LinksInside (linker : Linker) (line : Nat) (placed : Placed) (text : Text) : Prop :=
  linker.InsideFrom line .outside placed [] (linkUris (highlightKeywords linker.reservedWords text))

/-- What replaces the start of a word is a link on it. -/
theorem replacement_eq_link {linker : Linker} {line : Nat} {placed after : Placed}
    {previous word name replacement : Text}
    (h : linker.linkWord line placed previous word = (some (name, replacement), after)) :
    TagFree name ∧ ∃ body, TagFree body ∧ element? body = some linkElement ∧
      replacement = '<' :: body ++ ['>'] ++ name ++ ('<' :: "/a".toList ++ ['>']) := by
  rcases linker.linkWord_cases line placed previous word with
    e | ⟨n, d, hm, _, e⟩ | ⟨n, t, hm, _, e⟩
  · cases e.symm.trans h
  · cases e.symm.trans h
    exact ⟨tagFree_of_mem_nameCandidates hm, anchorTag d.name, tagFree_anchorTag _,
      element?_anchorTag _, declarationAnchor_eq_wrap d name⟩
  · cases e.symm.trans h
    exact ⟨tagFree_of_mem_nameCandidates hm, linkTag (linker.typeHref t), tagFree_linkTag _,
      element?_linkTag _, nameLink_eq_wrap _ name⟩

theorem insideFrom_breaker (linker : Linker) (line : Nat) (nest : Nest) (placed : Placed)
    (previous : Text) {c : Char} (hc : isBreaker c = true) (rest : Text) :
    linker.InsideFrom line nest placed previous (c :: rest) ↔
      ∃ next, nest.step c = some next ∧ linker.InsideFrom line next placed previous rest := by
  have hedits : (linker.linkEdits line placed previous (words (c :: rest))).1 =
      (linker.linkEdits line placed previous (words rest)).1.map (Edit.shift 1) := by
    rw [words, wordsFrom, if_pos hc, wordsFrom_eq_map_shift, linkEdits_shift]
    rfl
  unfold InsideFrom
  simp only [hedits, List.mem_map, exists_exists_and_eq_and, Edit.shift, List.take_succ_cons,
    Nest.read_cons, Option.bind_eq_some_iff]
  constructor
  · rintro ⟨edit, he, mid, ⟨next, hs, hr⟩, hin⟩
    exact ⟨next, hs, edit, he, mid, hr, hin⟩
  · rintro ⟨next, hs, edit, he, mid, hr, hin⟩
    exact ⟨edit, he, mid, ⟨next, hs, hr⟩, hin⟩

theorem insideFrom_word (linker : Linker) (line : Nat) (nest : Nest) {placed after : Placed}
    {previous word : Text} {link : Option (Text × Text)} {c : Char} {rest : Text}
    (hc : isBreaker c = false) (hw : word = c :: rest.takeWhile (!isBreaker ·))
    (hl : linker.linkWord line placed previous word = (link, after)) :
    linker.InsideFrom line nest placed previous (c :: rest) ↔
      (link.isSome ∧ nest.Inside) ∨
      ∃ next, nest.read word = some next ∧ linker.InsideFrom line next after
        (shownAfter previous word) (rest.dropWhile (!isBreaker ·)) := by
  have htext : c :: rest = word ++ rest.dropWhile (!isBreaker ·) := by simp [hw]
  have hwords : words (c :: rest) = ⟨word, 0⟩ ::
      (words (rest.dropWhile (!isBreaker ·))).map (Word.shift word.length) := by
    rw [words, wordsFrom, if_neg (by simp [hc]), ← hw]
    simp only [Nat.zero_add]
    rw [wordsFrom_eq_map_shift]
    rfl
  have hlater : ∀ edit : Edit, (c :: rest).take (edit.shift word.length).start =
      word ++ (rest.dropWhile (!isBreaker ·)).take edit.start := by
    intro edit
    rw [htext, Edit.shift, Nat.add_comm, List.take_length_add_append]
  -- the edit at the word itself, if there is one, and those after it
  have hedits : (linker.linkEdits line placed previous (words (c :: rest))).1 =
      (link.map fun found => (⟨0, found.1.length, found.2⟩ : Edit)).toList ++
        (linker.linkEdits line after (shownAfter previous word)
          (words (rest.dropWhile (!isBreaker ·)))).1.map (Edit.shift word.length) := by
    rw [hwords, linkEdits_cons, hl]
    simp only [linkEdits_shift, Nat.zero_add]
    cases link <;> rfl
  unfold InsideFrom
  simp only [hedits, List.mem_append, or_and_right, exists_or]
  refine or_congr ?_ ?_
  · cases link with
    | none => simp
    | some found => simp [Nest.read_nil]
  · simp only [List.mem_map, exists_exists_and_eq_and, hlater, Nest.read_append,
      Option.bind_eq_some_iff]
    constructor
    · rintro ⟨edit, he, mid, ⟨next, hs, hr⟩, hin⟩
      exact ⟨next, hs, edit, he, mid, hr, hin⟩
    · rintro ⟨next, hs, edit, he, mid, hr, hin⟩
      exact ⟨edit, he, mid, ⟨next, hs, hr⟩, hin⟩

/-- A rewritten word is refused if it is linked inside, and read like the word otherwise. -/
theorem read_rewriteWord {linker : Linker} {line : Nat} {placed after : Placed}
    {previous word : Text} {link : Option (Text × Text)} (nest : Nest)
    (h : linker.linkWord line placed previous word = (link, after)) (more : Text) :
    (link.isSome ∧ nest.Inside → nest.read (rewriteWord link word ++ more) = none) ∧
    (¬ (link.isSome ∧ nest.Inside) →
      nest.read (rewriteWord link word ++ more) = nest.read (word ++ more)) := by
  cases link with
  | none => exact ⟨fun hin => absurd hin.1 Bool.false_ne_true, fun _ => rfl⟩
  | some found =>
    obtain ⟨name, replacement⟩ := found
    obtain ⟨hname, body, hb, he, rfl⟩ := replacement_eq_link h
    obtain ⟨tail, rfl⟩ := linkWord_isPrefix h
    have hrewrite : ∀ r : Text, rewriteWord (some (name, r)) (name ++ tail) = r ++ tail := by
      intro r
      simp [rewriteWord]
    rw [hrewrite]
    constructor
    · intro hin
      have := Nest.read_link_inside hin.2 hb he
        (name ++ ('<' :: "/a".toList ++ ['>']) ++ tail ++ more)
      simpa only [List.append_assoc] using this
    · intro hout
      have hnest : ¬ nest.Inside := fun hin => hout ⟨rfl, hin⟩
      have hplain : nest.read name = some nest := by
        obtain ⟨opened, rfl, _⟩ := Nest.eq_mk_of_not_inside hnest
        exact Nest.read_tagFree hname _
      have hlink := Nest.read_append_of (Nest.read_link hnest hb he hname) (tail ++ more)
      have hsame := Nest.read_append_of hplain (tail ++ more)
      rw [List.append_assoc _ tail more, List.append_assoc name tail more]
      exact hlink.trans hsame.symm

/-- **Linking names, as a reader of well-formed markup sees it**: refused if a name is linked
inside a tag or a link, and no change at all if none is. -/
theorem read_linkWords (linker : Linker) (line : Nat) (nest : Nest) (placed : Placed)
    (previous html : Text) :
    (linker.InsideFrom line nest placed previous html →
      nest.read (linker.linkWords line placed previous html).1 = none) ∧
    (¬ linker.InsideFrom line nest placed previous html →
      nest.read (linker.linkWords line placed previous html).1 = nest.read html) := by
  fun_induction linkWords linker line placed previous html generalizing nest with
  | case1 placed previous =>
    refine ⟨?_, fun _ => rfl⟩
    rintro ⟨edit, he, _⟩
    simp [words, wordsFrom, linkEdits] at he
  | case2 placed previous c rest hc shown final he ih =>
    rw [insideFrom_breaker linker line nest placed previous hc]
    simp only [he] at ih
    simp only [Nest.read_cons]
    cases hs : nest.step c with
    | none => simp
    | some next => simpa using ih next
  | case3 placed previous c rest hc word link after hl shown final he ih =>
    have htext : c :: rest = word ++ rest.dropWhile (!isBreaker ·) := by simp [word]
    simp only [he] at ih
    obtain ⟨hrefused, hsame⟩ := read_rewriteWord nest hl shown
    rw [insideFrom_word linker line nest (by simpa using hc) rfl hl]
    by_cases hin : link.isSome ∧ nest.Inside
    · exact ⟨fun _ => hrefused hin, fun hno => absurd (Or.inl hin) hno⟩
    · rw [or_iff_right hin, hsame hin, htext, Nest.read_append, Nest.read_append]
      cases hr : nest.read word with
      | none => simp
      | some next => simpa using ih next

end Linker

end CodeAtlas.Markup
